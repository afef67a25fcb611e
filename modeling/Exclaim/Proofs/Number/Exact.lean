import Exclaim.Number.Word
import Exclaim.Proofs.Number.Rounding

/-! Numbers by their exact values. The value of a number is taken from the model of floats in core,
so that what is read of its bits here, its whole part and the rounding of integers are compared with
something that does not come from them. -/
namespace Exclaim.Binary
open Float.Model (Format UnpackedFloat)
open Float.Model.UnpackedFloat (Sign unpack unpackSign)

/-- The rational that an unpacked number is; none for what is not finite. -/
def unpackedRational? : UnpackedFloat → Option ℚ
  | .zero _ => some 0
  | .finite sign mantissa exponent _ => some (sign.apply mantissa * 2 ^ exponent)
  | .infinity _ | .notANumber => none

/-- The rational that a number is. -/
def rational? (x : Float) : Option ℚ := unpackedRational? x.toModel.unpack

/-- The integer of a sign and a magnitude. -/
def signed (negative : Bool) (magnitude : ℕ) : ℤ := if negative then -magnitude else magnitude

/-- The rational that a reading tells. -/
def Reading.rational? : Reading → Option ℚ
  | .finite negative mantissa shift =>
      some (signed negative (mantissa * 2 ^ shift) / (one : ℕ))
  | _ => none

variable {negative : Bool} {mantissa shift num den : ℕ} {x : Float}

section Unpacked
variable (bits : UInt64)

/-- The sign that core has for a sign bit. -/
def signOf (negative : Bool) : Sign := if negative then .negative else .positive

lemma ofBitVec_unpackSign :
    Sign.ofBitVec (@unpackSign .binary64 bits.toBitVec) =
      signOf (decide (1 <<< 63 ≤ bits.toNat)) := by
  have htop : (@unpackSign .binary64 bits.toBitVec).toNat = bits.toNat / 2 ^ 63 % 2 := by
    rw [Float.Model.UnpackedFloat.unpackSign_def, BitVec.extractLsb'_toNat,
      Nat.shiftRight_eq_div_pow]
    rfl
  have hlt := bits.toNat_lt
  simp only [Sign.ofBitVec, signOf, ← BitVec.toNat_inj, htop, Nat.shiftLeft_eq,
    BitVec.toNat_ofNat, decide_eq_true_eq]
  split_ifs <;> first | rfl | omega

/-- The leading bit that is not written out. -/
lemma toNat_one_append (v : BitVec 52) : (1#1 ++ v).toNat = (1 <<< 52) + v.toNat := by
  rw [BitVec.toNat_append, Nat.shiftLeft_eq, Nat.shiftLeft_eq]
  exact (@Nat.two_pow_add_eq_or_of_lt 52 v.toNat v.isLt 1).symm

lemma mul_two_zpow_sub (n : ℤ) (shift places : ℕ) :
    (n : ℚ) * (2 : ℚ) ^ ((shift : ℤ) - places) =
      (n * 2 ^ shift : ℤ) / (1 <<< places : ℕ) := by
  rw [zpow_sub₀ two_ne_zero, zpow_natCast, zpow_natCast, ← mul_div_assoc, Nat.one_shiftLeft]
  push_cast
  rfl

/-- A number of steps is a mantissa and an exponent that counts from the size of a step. -/
lemma unpackedRational?_finite {exponent : ℤ} (hpos : 0 < mantissa)
    (h : exponent = (shift : ℤ) - (1074 : ℕ)) :
    unpackedRational? (.finite (signOf negative) mantissa exponent hpos) =
      (Reading.finite negative mantissa shift).rational? := by
  have hsign : (signOf negative).apply mantissa * 2 ^ shift =
      signed negative (mantissa * 2 ^ shift) := by
    cases negative <;> simp [signOf, signed, Sign.apply]
  rw [unpackedRational?, h, mul_two_zpow_sub, hsign]
  rfl

/-- What is read of a number is its exact value. -/
lemma rational?_eq_read (x : Float) : rational? x = (read x).rational? := by
  have hmodel : rational? x = unpackedRational? (unpack .binary64 x.toBits.toBitVec) := rfl
  rw [hmodel, read]
  generalize x.toBits = bits
  unfold unpack readBits
  simp only [ofBitVec_unpackSign, toNat_unpackExponent, toNat_one_append, toNat_unpackMantissa]
  generalize decide (1 <<< 63 ≤ bits.toNat) = negative
  -- Both split on the exponent first; the last one is no number, and the first has no leading bit.
  by_cases hlast : (bits.toNat >>> 52) % 2048 = 2047
  · rw [if_pos ((unpackExponent_eq_iff bits (-1#11)).2 hlast), if_pos hlast]
    split_ifs <;> rfl
  · rw [if_neg (mt (unpackExponent_eq_iff bits (-1#11)).1 hlast), if_neg hlast]
    by_cases hfirst : (bits.toNat >>> 52) % 2048 = 0
    · rw [if_pos ((unpackExponent_eq_iff bits 0#11).2 hfirst), if_pos hfirst]
      split_ifs with hzero
      · rw [(unpackMantissa_eq_zero_iff bits).1 hzero]
        simp [unpackedRational?, Reading.rational?, signed]
      · refine unpackedRational?_finite _ ?_
        rw [hfirst]
        rfl
    · rw [if_neg (mt (unpackExponent_eq_iff bits 0#11).1 hfirst), if_neg hfirst]
      refine unpackedRational?_finite _ ?_
      have hbias : Format.binary64.exponentBias = 1023 := rfl
      omega

end Unpacked

section Whole

/-- A rational without its fraction. -/
def truncate (q : ℚ) : ℤ := if 0 ≤ q then ⌊q⌋ else ⌈q⌉

lemma truncate_neg (q : ℚ) : truncate (-q) = -truncate q := by
  unfold truncate
  rcases lt_trichotomy q 0 with h | rfl | h
  · rw [if_pos (by linarith), if_neg (by linarith), Int.floor_neg]
  · simp
  · rw [if_neg (by linarith), if_pos h.le, Int.ceil_neg]

lemma truncate_natCast_div (n d : ℕ) : truncate ((n : ℚ) / d) = (n / d : ℕ) := by
  rw [truncate, if_pos (by positivity), Rat.floor_natCast_div_natCast]
  rfl

lemma truncate_signed_div (negative : Bool) (n d : ℕ) :
    truncate ((signed negative n : ℚ) / d) = signed negative (n / d) := by
  cases negative
  · exact truncate_natCast_div n d
  · have hneg : ((signed true n : ℤ) : ℚ) / d = -((n : ℚ) / d) := by
      simp [signed, neg_div]
    rw [hneg, truncate_neg, truncate_natCast_div]
    rfl

/-- The whole part of a finite number is that of its exact value. -/
lemma wholePart_eq (x : Float) : wholePart x = ((rational? x).map truncate).getD 0 := by
  rw [rational?_eq_read, wholePart]
  cases read x with
  | finite negative mantissa shift =>
    simp only [Reading.rational?, Option.map_some, Option.getD_some, truncate_signed_div,
      Nat.shiftLeft_eq]
    rfl
  | _ => rfl

end Whole

section Rounding

/-- Rounding finds the number that all of `num / den` steps round to. -/
lemma read_nearest (hc : Canonical mantissa shift) (hden : 0 < den)
    (h : RoundsTo mantissa shift num den) :
    read (nearest negative num den) = .finite negative mantissa shift := by
  rw [nearest, nearestMagnitude_eq hc hden h, read_ofMagnitude, Nat.min_eq_left hc.magnitude_le,
    readBits_of_canonical hc]

/-- No rounding where the steps are those of a number. -/
lemma roundsTo_self (mantissa shift : ℕ) : RoundsTo mantissa shift (mantissa * 2 ^ shift) 1 where
  low := by
    rw [Nat.one_mul, Nat.mul_assoc]
    exact Nat.le_add_right _ _
  high := by nlinarith [Nat.two_pow_pos shift]
  strict _ := by
    have hpos := Nat.two_pow_pos shift
    constructor <;> nlinarith

/-- An integer of up to `53` bits, its bits moved to the top of the mantissa. -/
lemma canonical_of_log2 {n : ℕ} (hn : n ≠ 0) (h : n < 2 ^ 53) :
    Canonical (n * 2 ^ (52 - n.log2)) (n.log2 + 1022) := by
  have hlog : n.log2 < 53 := (Nat.log2_lt hn).2 h
  have hpow : 2 ^ n.log2 * 2 ^ (52 - n.log2) = 2 ^ 52 := by
    rw [← pow_add]
    congr 1
    omega
  refine ⟨?_, by omega, fun _ => ?_⟩
  · calc n * 2 ^ (52 - n.log2) < 2 ^ (n.log2 + 1) * 2 ^ (52 - n.log2) :=
          Nat.mul_lt_mul_of_pos_right Nat.lt_log2_self (Nat.two_pow_pos _)
      _ = 2 ^ 53 := by rw [pow_succ, mul_right_comm, hpow]; rfl
  · rw [← hpow]
    exact Nat.mul_le_mul_right _ (Nat.log2_self_le hn)

lemma signed_natAbs_mul (n : ℤ) (k : ℕ) : signed (decide (n < 0)) (n.natAbs * k) = n * k := by
  unfold signed
  rcases lt_or_ge n 0 with hn | hn
  · rw [if_pos (by simpa using hn), Nat.cast_mul, Int.ofNat_natAbs_of_nonpos hn.le, neg_mul,
      neg_neg]
  · rw [if_neg (by simpa using hn), Nat.cast_mul, Int.natAbs_of_nonneg hn]

/-- The integers below `2^53` are numbers. -/
lemma rational?_ofInt {n : ℤ} (h : n.natAbs < 2 ^ 53) : rational? (ofInt n) = some (n : ℚ) := by
  rw [rational?_eq_read]
  by_cases hzero : n = 0
  · -- Zero has no leading bit that could be moved to the top.
    subst hzero
    have hread : read (ofInt 0) = .finite false 0 0 := by decide
    simp [hread, Reading.rational?, signed]
  · have hn : n.natAbs ≠ 0 := Int.natAbs_ne_zero.2 hzero
    have hlog : n.natAbs.log2 < 53 := (Nat.log2_lt hn).2 h
    have hsteps : n.natAbs * one =
        n.natAbs * 2 ^ (52 - n.natAbs.log2) * 2 ^ (n.natAbs.log2 + 1022) := by
      have hplaces : 1074 = 52 - n.natAbs.log2 + (n.natAbs.log2 + 1022) := by omega
      rw [one, hplaces, Nat.one_shiftLeft, pow_add, mul_assoc]
    have hone : ((one : ℕ) : ℚ) ≠ 0 := Nat.cast_ne_zero.2 (by decide)
    rw [ofInt, hsteps, read_nearest (canonical_of_log2 hn h) Nat.one_pos (roundsTo_self _ _),
      Reading.rational?, ← hsteps, signed_natAbs_mul, Int.cast_mul, Int.cast_natCast,
      mul_div_cancel_right₀ _ hone]

end Rounding

end Exclaim.Binary
