import Exclaim.Proofs.Number.ReadBack
import Exclaim.Value.Basic

/-! The text of a number, converted back. A number is written by one function and read by another,
which tells apart a few words, then asks for the characters of a numeral, and then reads one. -/
namespace Exclaim.Value

section Filter
variable {c : Char} {cs : List Char}

lemma isNumeralChar_of_isNumeric (h : isNumeric c) : isNumeralChar c := by
  simp only [isNumeric, isNumeralChar, Bool.or_eq_true, decide_eq_true_eq, List.mem_cons,
    List.not_mem_nil, or_false] at h ⊢
  tauto

lemma isBlank_of_isDigit (h : c.isDigit) : isBlank c = false := by
  have hbounds : 48 ≤ c.toNat ∧ c.toNat ≤ 57 := by
    simpa [Char.isDigit, UInt32.le_iff_toNat_le] using h
  simp only [isBlank, Bool.or_eq_false_iff, Bool.and_eq_false_iff, decide_eq_false_iff_not,
    beq_eq_false_iff_ne]
  omega

lemma isBlank_of_isNumeralChar (h : isNumeralChar c) : isBlank c = false := by
  simp only [isNumeralChar, Bool.or_eq_true, decide_eq_true_eq, List.mem_cons, List.not_mem_nil,
    or_false] at h
  rcases h with hdigit | rfl | rfl | rfl | rfl | rfl
  · exact isBlank_of_isDigit hdigit
  all_goals rfl

lemma trimBlank_of_forall (h : ∀ c ∈ cs, isBlank c = false) : trimBlank cs = cs := by
  have hdrop : ∀ l : List Char, (∀ c ∈ l, isBlank c = false) → l.dropWhile isBlank = l := by
    intro l hl
    cases l with
    | nil => rfl
    | cons c l => exact List.dropWhile_cons_of_neg (by simp [hl c (by simp)])
  rw [trimBlank, hdrop cs h, hdrop _ (by simpa using h), List.reverse_reverse]

end Filter

/-- A text of the characters of numerals is handed to the reader of numbers as it is. -/
lemma textToNumber_of_all {s : String} (hne : s ≠ "") (hall : s.toList.all isNumeralChar) :
    textToNumber s = (readNumber? s).getD Binary.nan := by
  have hmem := List.all_eq_true.1 hall
  have hword : ∀ word : List Char, 'I' ∈ word → s.toList ≠ word := by
    rintro word hI rfl
    exact absurd (hmem 'I' hI) (by decide)
  have hinfinity : ¬ (s.toList = "Infinity".toList ∨ s.toList = "+Infinity".toList) :=
    not_or.2 ⟨hword _ (by decide), hword _ (by decide)⟩
  unfold textToNumber
  simp only [trimBlank_of_forall fun c hc => isBlank_of_isNumeralChar (hmem c hc)]
  rw [if_neg (by simpa using hne), if_neg hinfinity, if_neg (hword _ (by decide)), if_pos hall,
    String.ofList_toList]

section Written
variable {v : Float} {negative : Bool} {mantissa shift : Nat}

lemma all_isNumeralChar_render (hv : Binary.read v = .finite negative mantissa shift) :
    (number v).render.toList.all isNumeralChar := by
  rcases Nat.eq_zero_or_pos mantissa with rfl | hm
  · rw [render, write_zero numberStyle hv]
    cases negative <;> decide
  · exact List.all_eq_true.2 fun c hc =>
      isNumeralChar_of_isNumeric (NumberStyle.isNumeric_write numberStyle hv hm c hc)

lemma textToNumber_render_of_pos (hv : Binary.read v = .finite negative mantissa shift)
    (hm : 0 < mantissa) : textToNumber (number v).render = v := by
  have hread : readNumber? (number v).render = some v := readNumber?_write numberStyle hv hm
  have hne : (number v).render ≠ "" := by
    intro hempty
    have hnone : readNumber? "" = none := by decide
    rw [hempty, hnone] at hread
    cases hread
  rw [textToNumber_of_all hne (all_isNumeralChar_render hv), hread, Option.getD_some]

/-- Both zeros have no mantissa. -/
lemma beq_zero_eq_false (hv : Binary.read v = .finite negative mantissa shift)
    (hm : 0 < mantissa) : (v == 0) = false := by
  have hpositive : Binary.read 0 = .finite false 0 0 := by decide
  have hnegative : Binary.read (-0) = .finite true 0 0 := by decide
  refine Bool.eq_false_iff.2 fun heq => ?_
  rcases Binary.eq_zero_of_beq heq with rfl | rfl
  · obtain ⟨-, hmantissa, -⟩ := Binary.Reading.finite.inj (hpositive.symm.trans hv)
    omega
  · obtain ⟨-, hmantissa, -⟩ := Binary.Reading.finite.inj (hnegative.symm.trans hv)
    omega

end Written

/-- What is read of a number's text is the number itself, except that both zeros are read as the
positive one. -/
lemma textToNumber_render (v : Float) :
    textToNumber (number v).render = if v == 0 then 0 else v := by
  cases hv : Binary.read v with
  | nan =>
    obtain rfl := Binary.eq_nan_of_read hv
    decide
  | infinite negative =>
    obtain rfl := Binary.eq_infinity_of_read hv
    cases negative <;> decide
  | finite negative mantissa shift =>
    rcases Nat.eq_zero_or_pos mantissa with rfl | hm
    · obtain rfl := Binary.eq_zero_of_read hv
      cases negative <;> decide
    · rw [textToNumber_render_of_pos hv hm, beq_zero_eq_false hv hm]
      rfl

/-- Of the texts of numbers, those of the finite ones pass the test on characters. -/
lemma all_isNumeralChar_render_eq (v : Float) :
    (number v).render.toList.all isNumeralChar = v.isFinite := by
  rw [Binary.isFinite_eq_read]
  cases hv : Binary.read v with
  | nan =>
    obtain rfl := Binary.eq_nan_of_read hv
    decide
  | infinite negative =>
    obtain rfl := Binary.eq_infinity_of_read hv
    cases negative <;> decide
  | finite negative mantissa shift => exact all_isNumeralChar_render hv

/-- Converting the text of a number back loses nothing but the sign of a zero: the result equals
the number, and is undefined if the number is. The test on characters lets just the texts of finite
numbers pass. Infinities are told by their words before it, and what it holds back is undefined, so
the text of an undefined number is right not to pass. -/
theorem number_text_roundtrip (v : Float) :
    (text (number v).render).toNumber = (if v == 0 then 0 else v) ∧
      ((text (number v).render).toNumber == v) = !v.isNaN ∧
      (text (number v).render).toNumber.isNaN = v.isNaN ∧
      (number v).render.toList.all isNumeralChar = v.isFinite := by
  have hback : (text (number v).render).toNumber = if v == 0 then 0 else v := textToNumber_render v
  refine ⟨hback, ?_, ?_, all_isNumeralChar_render_eq v⟩
  · rw [hback]
    split
    · next hzero => rcases Binary.eq_zero_of_beq hzero with rfl | rfl <;> decide
    · exact Binary.beq_self_eq
  · rw [hback]
    split
    · next hzero => rcases Binary.eq_zero_of_beq hzero with rfl | rfl <;> decide
    · rfl

/-- The text of a number need not pass the test on characters to be converted back. -/
theorem number_text_refused :
    ¬ ∀ v : Float, (v.isNaN = false → (text (number v).render).toNumber == v) ∧
      (v.isNaN → (text (number v).render).toNumber.isNaN) ∧
      (number v).render.toList.all isNumeralChar := by
  intro hall
  obtain ⟨-, -, hpasses⟩ := hall Binary.nan
  exact absurd hpasses (by decide)

end Exclaim.Value
