import Mathlib.Data.List.TakeWhile
import Exclaim.Number.Numeral

/-! Runs of decimal digits, the only numerals that a source has. -/
namespace Exclaim

/-- At least one digit and nothing but digits. -/
def IsDigitRun (text : String) : Prop := text.toList ≠ [] ∧ ∀ c ∈ text.toList, c.isDigit

instance (text : String) : Decidable (IsDigitRun text) :=
  decidable_of_iff ((!text.toList.isEmpty && text.toList.all Char.isDigit) = true)
    (by simp [IsDigitRun])

/-- The number that a run of digits means. -/
def digitRunValue (text : String) : Float :=
  Numeral.toFloat { negative := false, whole := text.toList, fraction := [], exponent := 0 }

namespace Numeral

lemma splitSign_of_isDigit {c : Char} {cs : List Char} (h : c.isDigit) :
    splitSign (c :: cs) = (false, c :: cs) := by
  unfold splitSign
  split
  · next heq => obtain ⟨rfl, -⟩ := List.cons.inj heq; exact absurd h (by decide)
  · next heq => obtain ⟨rfl, -⟩ := List.cons.inj heq; exact absurd h (by decide)
  · rfl

lemma splitDigits_of_all {cs : List Char} (h : ∀ c ∈ cs, c.isDigit) :
    splitDigits cs = (cs, []) := by
  unfold splitDigits
  rw [List.takeWhile_eq_self_iff.2 h, List.dropWhile_eq_nil_iff.2 h]

end Numeral

lemma toLower_of_isDigit {c : Char} (h : c.isDigit) : c.toLower = c := by
  simp only [Char.isDigit, Bool.and_eq_true, decide_eq_true_eq] at h
  have hn : ¬ (c.val ≥ 'A'.val ∧ c.val ≤ 'Z'.val) := fun hu =>
    absurd (UInt32.le_trans hu.1 h.2) (by decide)
  exact dif_neg hn

/-- Every run of digits is read, and as the number it means. -/
lemma readNumber?_digitRun {text : String} (h : IsDigitRun text) :
    readNumber? text = some (digitRunValue text) := by
  obtain ⟨hne, hall⟩ := h
  unfold readNumber? digitRunValue
  generalize text.toList = cs at hne hall
  cases cs with
  | nil => exact absurd rfl hne
  | cons c cs =>
    have hc : c.isDigit := hall c (by simp)
    have hword : ∀ word : List Char, word.head?.any Char.isDigit = false →
        (c :: cs).map Char.toLower ≠ word := by
      rintro word hd rfl
      simp [toLower_of_isDigit hc, hc] at hd
    have hread : Numeral.read? (c :: cs) = some ⟨false, c :: cs, [], 0⟩ := by
      unfold Numeral.read?
      simp only [Numeral.splitSign_of_isDigit hc, Numeral.splitDigits_of_all hall]
      rfl
    simp only [Numeral.splitSign_of_isDigit hc, hread]
    rw [if_neg (not_or.2 ⟨hword _ (by decide), hword _ (by decide)⟩), if_neg (hword _ (by decide))]
    rfl

end Exclaim
