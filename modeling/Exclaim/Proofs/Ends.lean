import Mathlib.Data.List.Basic

/-! Triples for actions that have a state and may fail. `Ends P p Q E` says that from every state
with `P` the action `p` either succeeds with a value and a state with `Q`, or fails with an error
and a state with `E`. -/
namespace Exclaim

variable {ε σ α β : Type}

def Ends (P : σ → Prop) (p : ExceptT ε (StateM σ) α) (Q : α → σ → Prop) (E : ε → σ → Prop) :
    Prop :=
  ∀ s, P s → match p.run s with
    | (.ok a, s') => Q a s'
    | (.error e, s') => E e s'

/-- An action behind another one starts where that one ended. A failure is handed on. -/
lemma run_bindCont (p : ExceptT ε (StateM σ) α) (f : α → ExceptT ε (StateM σ) β) (s : σ) :
    (p >>= f).run s = (ExceptT.bindCont f (p.run s).1).run (p.run s).2 := rfl

/-- What an action does from the state that it looks at is all that counts. -/
lemma run_get_bind (f : σ → ExceptT ε (StateM σ) β) (s : σ) :
    (get >>= f).run s = (f s).run s := rfl

variable {P R : σ → Prop} {Q Q' : α → σ → Prop} {S : β → σ → Prop} {E : ε → σ → Prop}
  {p : ExceptT ε (StateM σ) α} {f : α → ExceptT ε (StateM σ) β}

namespace Ends

lemma strengthen (h : Ends P p Q E) (hP : ∀ s, R s → P s) : Ends R p Q E :=
  fun s hs => h s (hP s hs)

lemma weaken (h : Ends P p Q E) (hQ : ∀ a s, Q a s → Q' a s) : Ends P p Q' E := by
  intro s hs
  have hr := h s hs
  revert hr
  rcases p.run s with ⟨_ | a, s'⟩
  · exact id
  · exact hQ a s'

lemma of_ok (h : Ends P p Q E) {s : σ} (hs : P s) {a : α} (hrun : (p.run s).1 = .ok a) :
    Q a (p.run s).2 := by
  have hr := h s hs
  revert hr hrun
  rcases p.run s with ⟨e | b, s'⟩
  · intro hrun
    exact absurd hrun (by simp)
  · intro hrun hr
    exact Except.ok.inj hrun ▸ hr

lemma of_error (h : Ends P p Q E) {s : σ} (hs : P s) {e : ε} (hrun : (p.run s).1 = .error e) :
    E e (p.run s).2 := by
  have hr := h s hs
  revert hr hrun
  rcases p.run s with ⟨d | b, s'⟩
  · intro hrun hr
    exact Except.error.inj hrun ▸ hr
  · intro hrun
    exact absurd hrun (by simp)

/-- A fact that the state carries may be used outside of it. -/
lemma known {fact : Prop} (hfact : ∀ s, P s → fact) (h : fact → Ends P p Q E) : Ends P p Q E :=
  fun s hs => h (hfact s hs) s hs

/-- What holds however the action ends holds of the state that it leaves. -/
lemma always_iff : Ends P p (fun _ => R) (fun _ => R) ↔ ∀ s, P s → R (p.run s).2 := by
  refine forall₂_congr fun s _ => ?_
  rcases p.run s with ⟨_ | _, s'⟩
  · exact Iff.rfl
  · exact Iff.rfl

lemma bind (hp : Ends P p Q E) (hf : ∀ a, Ends (Q a) (f a) S E) : Ends P (p >>= f) S E := by
  intro s hs
  have hr := hp s hs
  rw [run_bindCont]
  revert hr
  rcases p.run s with ⟨_ | a, s'⟩
  · exact id
  · exact hf a s'

end Ends

lemma ends_pure {a : α} (h : ∀ s, P s → Q a s) : Ends P (pure a) Q E := fun s hs => h s hs

lemma ends_throw {e : ε} (h : ∀ s, P s → E e s) : Ends P (throw e) Q E := fun s hs => h s hs

namespace Ends

lemma map {g : α → β} (hp : Ends P p Q E) (hg : ∀ a s, Q a s → S (g a) s) :
    Ends P (g <$> p) S E := by
  rw [map_eq_pure_bind]
  exact hp.bind fun a => ends_pure (hg a)

lemma discard (hp : Ends P p (fun _ => R) E) : Ends P (discard p) (fun _ => R) E :=
  hp.map fun _ _ hs => hs

end Ends
end Exclaim
