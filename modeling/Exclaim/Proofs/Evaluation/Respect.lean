import Exclaim.Proofs.Ends
import Exclaim.Proofs.Evaluation.Composition
import Exclaim.Proofs.Evaluation.Scope

/-! Evaluation respects the chain of scopes it runs in, whether it succeeds or fails. It declares
names in the innermost scope only, and a value that a nearer scope hides is out of its reach. -/
namespace Exclaim

namespace ScopeChain

/-- `s'` is `s` after names were declared in its innermost scope and values were assigned. -/
structure Respects (s s' : ScopeChain) : Prop where
  outer : s'.outer.map Frame.outline = s.outer.map Frame.outline
  current : s.current.outline <+: s'.current.outline
  hidden : ∀ nearer index name, nearer < index → (s.bindingAt? nearer name).isSome →
    s'.bindingAt? index name = s.bindingAt? index name

namespace Respects

variable {s s' s'' : ScopeChain} {name : String} {index : Nat}

lemma refl (s : ScopeChain) : s.Respects s := ⟨rfl, List.prefix_rfl, fun _ _ _ _ _ => rfl⟩

/-- The frames at one place have outlines of which the earlier one comes first in the later. -/
lemma outline_prefix (h : s.Respects s') {f : Frame} (hf : s.frames[index]? = some f) :
    ∃ f', s'.frames[index]? = some f' ∧ f.outline <+: f'.outline := by
  cases index with
  | zero =>
    obtain rfl : s.current = f := Option.some.inj hf
    exact ⟨s'.current, rfl, h.current⟩
  | succ index =>
    have hmap := congrArg (·[index]?) h.outer
    have hf' : s.outer[index]? = some f := hf
    simp only [List.getElem?_map, hf', Option.map_some, Option.map_eq_some_iff] at hmap
    obtain ⟨f', hget, houtline⟩ := hmap
    exact ⟨f', hget, houtline ▸ List.prefix_rfl⟩

/-- A scope keeps the names that it owns. -/
lemma isSome_bindingAt? (h : s.Respects s') (hs : (s.bindingAt? index name).isSome) :
    (s'.bindingAt? index name).isSome := by
  unfold bindingAt? at hs ⊢
  cases hf : s.frames[index]? with
  | none => simp [hf] at hs
  | some f =>
    obtain ⟨f', hf', hprefix⟩ := h.outline_prefix hf
    rw [hf] at hs
    rw [hf']
    exact Frame.owns_of_outline_prefix hprefix hs

lemma trans (h : s.Respects s') (h' : s'.Respects s'') : s.Respects s'' where
  outer := h'.outer.trans h.outer
  current := h.current.trans h'.current
  hidden := by
    intro nearer index name hlt hs
    calc s''.bindingAt? index name
        = s'.bindingAt? index name := h'.hidden _ _ _ hlt (h.isSome_bindingAt? hs)
      _ = s.bindingAt? index name := h.hidden _ _ _ hlt hs

end Respects

section Steps
variable {s s' : ScopeChain} {name : String} {binding : Binding} {value : Value}

lemma respects_of_declare? (h : s.declare? name binding = some s') : s.Respects s' := by
  obtain ⟨-, rfl⟩ := declare?_eq_some h
  refine ⟨rfl, ?_, fun nearer index other hlt _ => ?_⟩
  · simp [Frame.outline]
  · -- Only the innermost frame changed, and it hides what lies further out.
    obtain ⟨index, rfl⟩ := Nat.exists_eq_add_one_of_ne_zero (Nat.ne_zero_of_lt hlt)
    rfl

lemma respects_of_assign? (h : s.assign? name value = some s') : s.Respects s' := by
  obtain ⟨owner, howner, houtline, hbindings⟩ := bindingAt?_assign? h
  obtain ⟨hcurrent, houter⟩ := List.cons.inj houtline
  refine ⟨houter, hcurrent ▸ List.prefix_rfl, fun nearer index other hlt hsome => ?_⟩
  rw [hbindings, if_neg]
  rintro ⟨rfl, rfl⟩
  -- The owner is nearest for the assigned name, so the hidden name is another one.
  simp [howner.nearest nearer hlt] at hsome

end Steps
end ScopeChain

namespace Eval

/-- However the action ends, the scopes are respected. -/
def Keeps {α : Type} (p : Eval α) : Prop :=
  ∀ s₀ : ScopeChain, Ends (fun s => s₀.Respects s.scopes) p (fun _ s => s₀.Respects s.scopes)
    fun _ s => s₀.Respects s.scopes

section Rules
variable {α β : Type} {p : Eval α} {f : α → Eval β}

lemma Keeps.respects (h : Keeps p) (s : EvalState) : s.scopes.Respects (p.run s).2.scopes :=
  Ends.always_iff.1 (h s.scopes) s (.refl s.scopes)

lemma Keeps.bind (hp : Keeps p) (hf : ∀ a, Keeps (f a)) : Keeps (p >>= f) :=
  fun s₀ => Ends.bind (hp s₀) fun a => hf a s₀

lemma keeps_pure (a : α) : Keeps (pure a) := fun _ => ends_pure fun _ hs => hs

lemma keeps_throw (e : EvalError) : Keeps (throw e : Eval α) := fun _ => ends_throw fun _ hs => hs

lemma keeps_note (level : LogLevel) (message : String) : Keeps (note level message) :=
  fun _ _ hs => hs

lemma keeps_report (kind : NodeKind) : Keeps (report kind) := fun _ _ hs => hs

end Rules

lemma keeps_get_bind {β : Type} {f : EvalState → Eval β}
    (h : ∀ s : EvalState, s.scopes.Respects ((f s).run s).2.scopes) : Keeps (get >>= f) := by
  refine fun s₀ => Ends.always_iff.2 fun s hs => ?_
  rw [run_get_bind]
  exact hs.trans (h s)

lemma keeps_declare (name : String) (binding : Binding) : Keeps (declare name binding) := by
  refine keeps_get_bind fun s => ?_
  cases hdeclare : s.scopes.declare? name binding with
  | none => exact .refl s.scopes
  | some scopes => exact ScopeChain.respects_of_declare? hdeclare

lemma keeps_assign (name : String) (value : Value) : Keeps (assign name value) := by
  refine keeps_get_bind fun s => ?_
  cases hassign : s.scopes.assign? name value with
  | none => exact .refl s.scopes
  | some scopes => exact ScopeChain.respects_of_assign? hassign

lemma keeps_lookup (name : String) : Keeps (lookup name) := by
  refine keeps_get_bind fun s => ?_
  cases s.scopes.lookup? name with
  | none => exact .refl s.scopes
  | some value => exact .refl s.scopes

lemma Composed.keeps {α : Type} {p : Eval α} (h : Composed p) : Keeps p := by
  induction h with
  | pure a => exact keeps_pure a
  | throw e => exact keeps_throw e
  | bind hp hf ihp ihf => exact ihp.bind ihf
  | note level message => exact keeps_note level message
  | report kind => exact keeps_report kind
  | declare name binding => exact keeps_declare name binding
  | assign name value => exact keeps_assign name value
  | lookup name => exact keeps_lookup name

end Eval

/-- Whatever an evaluation comes to, a value or an error: the outer scopes keep their names in
order with modifiers and lifetimes, the innermost one may only get new names behind the ones it
has, and a value stays as it is when a nearer scope owned its name before. -/
theorem eval_respects_scopes (t : EvalTable) (s : EvalState) :
    (∀ e : Expression, s.scopes.Respects ((e.eval t).run s).2.scopes) ∧
    (∀ a : Statement, s.scopes.Respects ((a.eval t).run s).2.scopes) ∧
    (∀ body : Block, s.scopes.Respects ((evalBlock t body).run s).2.scopes) ∧
    ∀ program : Block, s.scopes.Respects ((evalProgram t program).run s).2.scopes := by
  refine ⟨fun e => ?_, fun a => ?_, fun body => ?_, fun program => ?_⟩
  · exact (e.composed_eval t).keeps.respects s
  · exact (a.composed_eval t).keeps.respects s
  · exact (Statement.composed_evalAll t body .null).keeps.respects s
  · exact (composed_evalProgram t program).keeps.respects s

end Exclaim
