import Exclaim.Proofs.Ends
import Exclaim.Proofs.Parse.Reads

/-! What the elementary parsing actions do, as triples. -/
namespace Exclaim.Parse

variable {α β : Type} {P : ParseState → Prop} {Q : α → ParseState → Prop}
  {S : β → ParseState → Prop} {E : ParseError → ParseState → Prop}

lemma ends_cursor_bind {f : Cursor → Parse β}
    (h : ∀ c, Ends (fun s => P s ∧ s.cursor = c) (f c) S E) : Ends P (cursor >>= f) S E := by
  intro s hs
  rw [run_bind]
  exact h s.cursor s ⟨hs, rfl⟩

lemma ends_current_bind {f : Token → Parse β}
    (h : ∀ t, Ends (fun s => P s ∧ s.cursor.current = t) (f t) S E) :
    Ends P (current >>= f) S E := by
  intro s hs
  rw [run_bind]
  exact h s.cursor.current s ⟨hs, rfl⟩

lemma ends_budget_bind {f : Nat → Parse β}
    (h : ∀ n, Ends (fun s => P s ∧ s.cursor.remaining + 2 = n) (f n) S E) :
    Ends P (budget >>= f) S E := by
  intro s hs
  rw [run_budget_bind]
  exact h _ s ⟨hs, rfl⟩

lemma ends_note {level : LogLevel} {message : String}
    (h : ∀ s log, P s → P { s with log }) : Ends P (note level message) (fun _ => P) E :=
  fun s hs => h s _ hs

lemma ends_skipLayout {R : ParseState → Prop}
    (h : ∀ s, P s → R { s with cursor := s.cursor.skipLayout }) :
    Ends P skipLayout (fun _ => R) E := fun s hs => h s hs

lemma ends_noOpening (h : ∀ s, P s → E (.noOpening s.cursor.current s.cursor.position) s) :
    Ends P noOpening Q E := fun s hs => h s hs

lemma ends_cutOff (h : ∀ s, P s →
      E (.noOpening s.cursor.current s.cursor.position) { s with overrun := true }) :
    Ends P cutOff Q E := fun s hs => h s hs

lemma ends_take (expected : Expected) {Q : Token → ParseState → Prop}
    (hmet : ∀ s, P s → expected.isMet s.cursor.next →
      Q s.cursor.next { s with cursor := s.cursor.pass })
    (hmiss : ∀ s, P s → E (expected.mismatch s.cursor.next) s) :
    Ends P (return (← expectWith expected {}).2) Q E := by
  intro s hs
  rw [run_take]
  by_cases hm : expected.isMet s.cursor.next
  · rw [if_pos hm]
    exact hmet s hs hm
  · rw [if_neg hm]
    exact hmiss s hs

lemma ends_test (expected : Expected) {Q : Bool → ParseState → Prop}
    (h : ∀ s log, P s → Q (expected.isMet s.cursor.next) { s with log }) :
    Ends P (return (← expectWith expected .probe).1) Q E := by
  intro s hs
  obtain ⟨log, hrun⟩ := run_test expected s
  rw [hrun]
  exact h s log hs

end Exclaim.Parse
