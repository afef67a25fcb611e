import Exclaim.Number.Style
import Exclaim.Proofs.Number.DigitRun
import Exclaim.Proofs.Number.Shortest

/-! Numbers are read back from what is written for them. -/
namespace Exclaim
open Shortest (Decimal)

namespace Numeral
variable {cs ds rest : List Char} {c : Char}

lemma digitsValue_eq (ds : List Char) : digitsValue ds = Nat.ofDigitChars 10 ds 0 := rfl

lemma digitsValue_toDigits (n : Nat) : digitsValue (Nat.toDigits 10 n) = n :=
  Nat.ofDigitChars_ten_toDigits

/-- Zeros before the digits change nothing. -/
lemma digitsValue_zeros_append (zeros : Nat) (ds : List Char) :
    digitsValue (List.replicate zeros '0' ++ ds) = digitsValue ds := by
  rw [digitsValue_eq, Nat.ofDigitChars_append, Nat.ofDigitChars_replicate_zero, Nat.mul_zero]
  rfl

/-- Zeros behind the digits count. -/
lemma digitsValue_append_zeros (ds : List Char) (zeros : Nat) :
    digitsValue (ds ++ List.replicate zeros '0') = digitsValue ds * 10 ^ zeros := by
  rw [digitsValue_eq, Nat.ofDigitChars_append, Nat.ofDigitChars_replicate_zero, Nat.mul_comm]
  rfl

lemma isDigit_replicate_zero {zeros : Nat} (hc : c ∈ List.replicate zeros '0') : c.isDigit := by
  rw [List.eq_of_mem_replicate hc]
  rfl

lemma isDigit_toDigits {n : Nat} (hc : c ∈ Nat.toDigits 10 n) : c.isDigit :=
  Nat.isDigit_of_mem_toDigits (by decide) (by decide) hc

/-- A run of digits ends where something else starts. -/
lemma splitDigits_append (hds : ∀ c ∈ ds, c.isDigit) (hrest : ∀ c ∈ rest.head?, c.isDigit = false) :
    splitDigits (ds ++ rest) = (ds, rest) := by
  have hnone : rest.takeWhile Char.isDigit = [] ∧ rest.dropWhile Char.isDigit = rest := by
    cases rest with
    | nil => exact ⟨rfl, rfl⟩
    | cons c rest => simp [hrest c rfl]
  rw [splitDigits, List.takeWhile_append_of_pos hds, List.dropWhile_append_of_pos hds, hnone.1,
    hnone.2, List.append_nil]

lemma splitSign_of_head (hcs : ∃ c ∈ cs.head?, c.isDigit) : splitSign cs = (false, cs) := by
  obtain ⟨c, hc, hdigit⟩ := hcs
  cases cs with
  | nil => simp at hc
  | cons d cs =>
    obtain rfl : d = c := by simpa using hc
    exact splitSign_of_isDigit hdigit

/-- A power behind its mark, with a sign of its own. -/
lemma readExponent?_power (power : Int) :
    readExponent? ('e' :: (if power < 0 then '-' else '+') :: Nat.toDigits 10 power.natAbs) =
      some power := by
  have hsplit : splitDigits (Nat.toDigits 10 power.natAbs) = (Nat.toDigits 10 power.natAbs, []) :=
    splitDigits_of_all fun c hc => isDigit_toDigits hc
  unfold readExponent?
  simp only [true_or, if_true]
  by_cases hneg : power < 0
  · simp only [if_pos hneg, splitSign, hsplit, Nat.toDigits_ne_nil, digitsValue_toDigits]
    rw [if_neg (by simp), if_pos trivial]
    exact congrArg some (by omega)
  · simp only [if_neg hneg, splitSign, hsplit, Nat.toDigits_ne_nil, digitsValue_toDigits]
    rw [if_neg (by simp), if_neg (by simp)]
    exact congrArg some (by omega)

end Numeral

/-- A text that starts with a digit and is read as a decimal, perhaps with zeros behind its
digits. -/
structure ReadsAs (text : List Char) (coefficient : Nat) (exponent : Int) : Prop where
  head : ∃ c ∈ text.head?, c.isDigit
  reads : ∃ (n : Numeral) (zeros : Nat), Numeral.read? text = some n ∧ n.negative = false ∧
    Numeral.digitsValue (n.whole ++ n.fraction) = coefficient * 10 ^ zeros ∧
    n.exponent - n.fraction.length = exponent - (zeros : Int)

namespace ReadsAs
open Numeral
variable {digits whole fraction text : List Char} {coefficient : Nat} {exponent : Int}

lemma head_append (rest : List Char) (hne : whole ≠ []) (hwhole : ∀ c ∈ whole, c.isDigit) :
    ∃ c ∈ (whole ++ rest).head?, c.isDigit := by
  cases whole with
  | nil => exact absurd rfl hne
  | cons c whole => exact ⟨c, rfl, hwhole c (by simp)⟩

/-- Digits with a point among them. -/
lemma read?_point (rest : List Char) (hne : whole ≠ []) (hwhole : ∀ c ∈ whole, c.isDigit)
    (hfraction : ∀ c ∈ fraction, c.isDigit) (hrest : ∀ c ∈ rest.head?, c.isDigit = false) :
    read? (whole ++ '.' :: (fraction ++ rest)) =
      (readExponent? rest).map fun exponent => ⟨false, whole, fraction, exponent⟩ := by
  unfold read?
  rw [splitSign_of_head (head_append _ hne hwhole)]
  simp only
  rw [splitDigits_append hwhole (by simp)]
  simp only [splitFraction]
  rw [splitDigits_append hfraction hrest]
  simp [hne]

/-- Digits without a point. -/
lemma read?_whole (rest : List Char) (hne : whole ≠ []) (hwhole : ∀ c ∈ whole, c.isDigit)
    (hrest : ∀ c ∈ rest.head?, c.isDigit = false ∧ c ≠ '.') :
    read? (whole ++ rest) =
      (readExponent? rest).map fun exponent => ⟨false, whole, [], exponent⟩ := by
  have hfraction : splitFraction rest = ([], rest) := by
    cases rest with
    | nil => rfl
    | cons c rest =>
      unfold splitFraction
      split
      · next heq =>
        obtain ⟨rfl, -⟩ := List.cons.inj heq
        exact absurd rfl (hrest '.' rfl).2
      · rfl
  unfold read?
  rw [splitSign_of_head (head_append _ hne hwhole)]
  simp only
  rw [splitDigits_append hwhole fun c hc => (hrest c hc).1]
  simp only [hfraction]
  simp [hne]

lemma of_point (whole fraction : List Char) (hne : whole ≠ []) (hwhole : ∀ c ∈ whole, c.isDigit)
    (hfraction : ∀ c ∈ fraction, c.isDigit) :
    ReadsAs (whole ++ '.' :: fraction) (digitsValue (whole ++ fraction)) (-fraction.length) := by
  have hread := read?_point [] hne hwhole hfraction (by simp)
  rw [List.append_nil] at hread
  exact ⟨head_append _ hne hwhole, _, 0, hread, rfl, by simp, by simp⟩

lemma cast {coefficient' : Nat} {exponent' : Int} (h : ReadsAs text coefficient exponent)
    (hc : coefficient = coefficient') (he : exponent = exponent') :
    ReadsAs text coefficient' exponent' :=
  hc ▸ he ▸ h

lemma of_zeros (zeros : Nat) (h : ReadsAs text (coefficient * 10 ^ zeros) (exponent - zeros)) :
    ReadsAs text coefficient exponent := by
  obtain ⟨hhead, n, more, hread, hneg, hvalue, hexponent⟩ := h
  refine ⟨hhead, n, zeros + more, hread, hneg, ?_, ?_⟩
  · rw [hvalue, pow_add, Nat.mul_assoc]
  · push_cast
    omega

lemma of_whole (hne : whole ≠ []) (hwhole : ∀ c ∈ whole, c.isDigit) :
    ReadsAs whole (digitsValue whole) 0 := by
  have hread := read?_whole [] hne hwhole (by simp)
  have hhead := head_append [] hne hwhole
  rw [List.append_nil] at hread hhead
  exact ⟨hhead, _, 0, hread, rfl, by simp, by simp⟩

/-- The positional form of digits whose point is behind the first `point` of them. -/
lemma positional (pointZero : Bool) (hne : digits ≠ []) (hdigits : ∀ c ∈ digits, c.isDigit)
    (point : Int) :
    ReadsAs (NumberStyle.positional pointZero digits point) (digitsValue digits)
      (point - digits.length) := by
  unfold NumberStyle.positional
  split
  · next hpoint =>
    have hfraction : ∀ c ∈ List.replicate (-point).toNat '0' ++ digits, c.isDigit := fun c hc =>
      (List.mem_append.1 hc).elim isDigit_replicate_zero (hdigits c)
    have h := of_point ['0'] _ (by simp) (by simp) hfraction
    have hvalue := digitsValue_zeros_append ((-point).toNat + 1) digits
    rw [List.replicate_succ, List.cons_append] at hvalue
    simp only [List.singleton_append, hvalue, List.length_append, List.length_replicate] at h
    exact h.cast rfl (by omega)
  · next hpoint =>
    simp only
    split
    · next hlength =>
      obtain ⟨zeros, hzeros⟩ : ∃ zeros, point.toNat = digits.length + zeros :=
        ⟨point.toNat - digits.length, by omega⟩
      rw [hzeros, Nat.add_sub_cancel_left]
      have hwhole : ∀ c ∈ digits ++ List.replicate zeros '0', c.isDigit := fun c hc =>
        (List.mem_append.1 hc).elim (hdigits c) isDigit_replicate_zero
      cases pointZero with
      | true =>
        have h := of_point _ ['0'] (by simp [hne]) hwhole (by simp)
        have hvalue := digitsValue_append_zeros digits (zeros + 1)
        rw [List.replicate_succ', ← List.append_assoc] at hvalue
        rw [hvalue] at h
        refine of_zeros (zeros + 1) ?_
        exact h.cast rfl (by rw [List.length_singleton]; omega)
      | false =>
        have h := of_whole (by simp [hne]) hwhole
        rw [digitsValue_append_zeros] at h
        refine of_zeros zeros ?_
        simp only [Bool.false_eq_true, if_false, List.append_nil]
        exact h.cast rfl (by omega)
    · next hlength =>
      have h := of_point (digits.take point.toNat) (digits.drop point.toNat)
        (by simp only [ne_eq, List.take_eq_nil_iff, not_or]; exact ⟨by omega, hne⟩)
        (fun c hc => hdigits c (List.mem_of_mem_take hc))
        fun c hc => hdigits c (List.mem_of_mem_drop hc)
      rw [List.take_append_drop, List.length_drop] at h
      exact h.cast rfl (by omega)

/-- The form with an exponent of digits whose point is behind the first one. -/
lemma scientific (hne : digits ≠ []) (hdigits : ∀ c ∈ digits, c.isDigit) (power : Int) :
    ReadsAs (NumberStyle.scientific digits power) (digitsValue digits)
      (power + 1 - digits.length) := by
  unfold NumberStyle.scientific
  match digits, hne, hdigits with
  | [d], _, hdigits =>
    have hread := read?_whole
      ('e' :: (if power < 0 then '-' else '+') :: Nat.toDigits 10 power.natAbs) (by simp) hdigits
      (by simp)
    rw [readExponent?_power] at hread
    exact ⟨head_append _ (by simp) hdigits, _, 0, hread, rfl, by simp, by simp⟩
  | d :: r :: rs, _, hdigits =>
    have hd : ∀ c ∈ [d], c.isDigit := fun c hc => hdigits c (by simp_all)
    have hrs : ∀ c ∈ r :: rs, c.isDigit := fun c hc => hdigits c (List.mem_cons_of_mem d hc)
    have hread := read?_point
      ('e' :: (if power < 0 then '-' else '+') :: Nat.toDigits 10 power.natAbs) (by simp) hd hrs
      (by simp)
    rw [readExponent?_power] at hread
    exact ⟨⟨d, rfl, hdigits d (by simp)⟩, _, 0, hread, rfl, by simp, by simp⟩

lemma writeDecimal (style : NumberStyle) (d : Decimal) :
    ReadsAs (style.writeDecimal d) d.coefficient d.exponent := by
  have hdigits : ∀ c ∈ Nat.toDigits 10 d.coefficient, c.isDigit := fun c hc => isDigit_toDigits hc
  unfold NumberStyle.writeDecimal
  simp only
  split
  · have h := positional style.pointZero Nat.toDigits_ne_nil hdigits
      ((Nat.toDigits 10 d.coefficient).length + d.exponent)
    rwa [digitsValue_toDigits, add_sub_cancel_left] at h
  · have h := scientific Nat.toDigits_ne_nil hdigits
      ((Nat.toDigits 10 d.coefficient).length + d.exponent - 1)
    rwa [digitsValue_toDigits, Int.sub_add_cancel, add_sub_cancel_left] at h

end ReadsAs

/-- A text that starts with a digit is none of the words for special numbers. -/
lemma map_toLower_ne {text word : List Char} (htext : ∃ c ∈ text.head?, c.isDigit)
    (hword : word.head?.any Char.isDigit = false) : text.map Char.toLower ≠ word := by
  rintro rfl
  obtain ⟨c, hc, hdigit⟩ := htext
  have hlower : c.toLower.isDigit := by rwa [toLower_of_isDigit hdigit]
  rw [List.head?_map, Option.mem_def.1 hc] at hword
  simp [hlower] at hword

lemma readNumber?_ofList {text : List Char} {n : Numeral} (htext : ∃ c ∈ text.head?, c.isDigit)
    (hread : Numeral.read? text = some n) (hn : n.negative = false) (negative : Bool) :
    readNumber? (String.ofList (if negative then '-' :: text else text)) =
      some (Numeral.toFloat { n with negative }) := by
  have hsign := Numeral.splitSign_of_head htext
  have hwords : ¬ (text.map Char.toLower = "inf".toList ∨
      text.map Char.toLower = "infinity".toList) :=
    not_or.2 ⟨map_toLower_ne htext (by decide), map_toLower_ne htext (by decide)⟩
  have hnan : text.map Char.toLower ≠ "nan".toList := map_toLower_ne htext (by decide)
  unfold readNumber?
  rw [String.toList_ofList]
  cases negative with
  | false =>
    obtain ⟨negative, whole, fraction, exponent⟩ := n
    obtain rfl : negative = false := hn
    simp only [Bool.false_eq_true, if_false, hsign, if_neg hwords, if_neg hnan, hread]
    rfl
  | true =>
    have hneg : Numeral.read? ('-' :: text) = some { n with negative := true } := by
      unfold Numeral.read? at hread ⊢
      rw [hsign] at hread
      simp only [Numeral.splitSign] at hread ⊢
      split_ifs at hread ⊢
      obtain ⟨exponent, hexponent, rfl⟩ := Option.map_eq_some_iff.1 hread
      rw [hexponent]
      rfl
    simp only [if_true, Numeral.splitSign, if_neg hwords, if_neg hnan, hneg]
    rfl

section Written
variable {x : Float} {negative : Bool} {mantissa shift : Nat}

lemma write_zero (style : NumberStyle) (hx : Binary.read x = .finite negative 0 shift) :
    style.write x = if negative then style.negativeZero else style.zero := by
  simp [NumberStyle.write, hx]

lemma write_of_read (style : NumberStyle) (hx : Binary.read x = .finite negative mantissa shift)
    (hm : 0 < mantissa) : style.write x = String.ofList
      (if negative then '-' :: style.writeDecimal (Shortest.ofReading style.tie mantissa shift)
        else style.writeDecimal (Shortest.ofReading style.tie mantissa shift)) := by
  unfold NumberStyle.write
  simp [hx, hm.ne']

/-- What is written for a finite number other than zero is read as that number. -/
theorem readNumber?_write (style : NumberStyle)
    (hx : Binary.read x = .finite negative mantissa shift) (hm : 0 < mantissa) :
    readNumber? (style.write x) = some x := by
  have hc := Binary.canonical_of_read hx
  obtain ⟨hhead, n, zeros, hread, hn, hvalue, hexponent⟩ :=
    ReadsAs.writeDecimal style (Shortest.ofReading style.tie mantissa shift)
  rw [write_of_read style hx hm, readNumber?_ofList hhead hread hn]
  unfold Numeral.toFloat
  simp only
  rw [hvalue, hexponent, Shortest.nearest_ofReading hc hm, ← Binary.eq_ofMagnitude hx]

end Written

/-- The characters that a number is written with. -/
def isNumeric (c : Char) : Bool := c.isDigit || c ∈ ['-', '+', '.', 'e']

namespace NumberStyle

variable {digits : List Char}

lemma isNumeric_of_isDigit {c : Char} (h : c.isDigit) : isNumeric c := by
  simp [isNumeric, h]

lemma isNumeric_zeros {zeros : Nat} : ∀ c ∈ List.replicate zeros '0', isNumeric c :=
  fun _ hc => isNumeric_of_isDigit (Numeral.isDigit_replicate_zero hc)

lemma isNumeric_positional (pointZero : Bool) (hdigits : ∀ c ∈ digits, isNumeric c) (point : Int) :
    ∀ c ∈ positional pointZero digits point, isNumeric c := by
  have hmark : isNumeric '0' ∧ isNumeric '.' := by decide
  unfold positional
  split
  · simp only [List.cons_append, List.forall_mem_cons, List.forall_mem_append]
    exact ⟨hmark.1, hmark.2, isNumeric_zeros, hdigits⟩
  · simp only
    split
    · simp only [List.forall_mem_append]
      refine ⟨⟨hdigits, isNumeric_zeros⟩, ?_⟩
      cases pointZero <;> simp [hmark]
    · simp only [List.forall_mem_append, List.forall_mem_cons]
      exact ⟨fun c hc => hdigits c (List.mem_of_mem_take hc), hmark.2,
        fun c hc => hdigits c (List.mem_of_mem_drop hc)⟩

lemma isNumeric_scientific (hdigits : ∀ c ∈ digits, isNumeric c) (power : Int) :
    ∀ c ∈ scientific digits power, isNumeric c := by
  have hmark : isNumeric '.' ∧ isNumeric 'e' ∧ isNumeric (if power < 0 then '-' else '+') := by
    split <;> decide
  have hpower : ∀ c ∈ Nat.toDigits 10 power.natAbs, isNumeric c := fun c hc =>
    isNumeric_of_isDigit (Numeral.isDigit_toDigits hc)
  unfold scientific
  simp only [List.forall_mem_append, List.forall_mem_cons]
  refine ⟨?_, hmark.2.1, hmark.2.2, hpower⟩
  match digits, hdigits with
  | [], _ => simp
  | [d], hdigits => exact hdigits
  | d :: r :: rs, hdigits =>
    simp only [List.forall_mem_cons] at hdigits ⊢
    exact ⟨hdigits.1, hmark.1, hdigits.2⟩

lemma isNumeric_writeDecimal (style : NumberStyle) (d : Decimal) :
    ∀ c ∈ style.writeDecimal d, isNumeric c := by
  have hdigits : ∀ c ∈ Nat.toDigits 10 d.coefficient, isNumeric c := fun c hc =>
    isNumeric_of_isDigit (Numeral.isDigit_toDigits hc)
  unfold writeDecimal
  simp only
  split
  · exact isNumeric_positional _ hdigits _
  · exact isNumeric_scientific hdigits _

lemma isNumeric_write (style : NumberStyle) {x : Float} {negative : Bool} {mantissa shift : Nat}
    (hx : Binary.read x = .finite negative mantissa shift) (hm : 0 < mantissa) :
    ∀ c ∈ (style.write x).toList, isNumeric c := by
  have hall := isNumeric_writeDecimal style (Shortest.ofReading style.tie mantissa shift)
  rw [write_of_read style hx hm, String.toList_ofList]
  cases negative with
  | false => exact hall
  | true => exact List.forall_mem_cons.2 ⟨by decide, hall⟩

end NumberStyle

end Exclaim
