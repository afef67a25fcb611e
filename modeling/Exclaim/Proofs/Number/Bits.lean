import Mathlib
import Exclaim.Number.Binary

/-! The bits of numbers. A number is determined by what is read of them. -/
namespace Exclaim.Binary

/-- What holds of every finite number that is read from bits. -/
structure Canonical (mantissa shift : Nat) : Prop where
  mantissa_lt : mantissa < 2 ^ 53
  shift_le : shift ≤ 2045
  le_mantissa : shift ≠ 0 → 2 ^ 52 ≤ mantissa

def Reading.isFinite : Reading → Bool
  | .finite .. => true
  | _ => false

/-- Neither infinite nor undefined. -/
def IsFinite (x : Float) : Prop := (read x).isFinite

instance (x : Float) : Decidable (IsFinite x) := inferInstanceAs (Decidable (_ = true))

variable {negative : Bool} {mantissa shift : Nat} {x : Float}

lemma Canonical.magnitude_le (h : Canonical mantissa shift) :
    (shift <<< 52) + mantissa ≤ infinityBits := by
  obtain ⟨hm, hs, -⟩ := h
  simp only [infinityBits, Nat.shiftLeft_eq]
  omega

lemma readBits_eq_finite {bits : Nat} (hbits : bits < 2 ^ 64)
    (h : readBits bits = .finite negative mantissa shift) :
    Canonical mantissa shift ∧
      bits = (if negative then 1 <<< 63 else 0) + ((shift <<< 52) + mantissa) := by
  simp only [readBits, Nat.shiftRight_eq_div_pow, Nat.shiftLeft_eq, Nat.one_mul] at h ⊢
  split_ifs at h with he hf he'
  · simp only [Reading.finite.injEq] at h
    obtain ⟨hneg, rfl, rfl⟩ := h
    refine ⟨⟨by omega, by omega, by simp⟩, ?_⟩
    cases negative <;> simp at hneg ⊢ <;> omega
  · simp only [Reading.finite.injEq] at h
    obtain ⟨hneg, rfl, rfl⟩ := h
    refine ⟨⟨by omega, by omega, by omega⟩, ?_⟩
    cases negative <;> simp at hneg ⊢ <;> omega

lemma canonical_of_read (h : read x = .finite negative mantissa shift) : Canonical mantissa shift :=
  (readBits_eq_finite x.toBits.toNat_lt h).1

lemma eq_ofMagnitude_of_toBits {magnitude : Nat} (hle : magnitude ≤ infinityBits)
    (h : x.toBits.toNat = (if negative then 1 <<< 63 else 0) + magnitude) :
    x = ofMagnitude negative magnitude := by
  have hx : x.toBits = UInt64.ofNat
      (if negative then (1 <<< 63) + magnitude else magnitude) := by
    rw [← @UInt64.ofNat_toNat x.toBits, h]
    cases negative <;> simp
  rw [ofMagnitude, Nat.min_eq_left hle, ← hx, Float.ofBits_toBits]

/-- A finite number is the one of its sign and magnitude bits. -/
lemma eq_ofMagnitude (h : read x = .finite negative mantissa shift) :
    x = ofMagnitude negative ((shift <<< 52) + mantissa) := by
  obtain ⟨hc, hbits⟩ := readBits_eq_finite x.toBits.toNat_lt h
  exact eq_ofMagnitude_of_toBits hc.magnitude_le hbits

lemma eq_zero_of_read (h : read x = .finite negative 0 shift) : x = ofMagnitude negative 0 := by
  obtain ⟨-, -, hle⟩ := canonical_of_read h
  have hshift : shift = 0 := by
    by_contra hs
    exact absurd (hle hs) (by decide)
  rw [eq_ofMagnitude h, hshift]
  rfl

lemma eq_infinity_of_read (h : read x = .infinite negative) : x = infinity negative := by
  refine eq_ofMagnitude_of_toBits le_rfl ?_
  have hlt := x.toBits.toNat_lt
  simp only [read, readBits, infinityBits, Nat.shiftRight_eq_div_pow, Nat.shiftLeft_eq,
    Nat.one_mul] at h ⊢
  split_ifs at h with he hf
  simp only [Reading.infinite.injEq] at h
  cases negative <;> simp at h ⊢ <;> omega

lemma toNat_unpackExponent (bits : UInt64) :
    (@Float.Model.UnpackedFloat.unpackExponent .binary64 bits.toBitVec).toNat =
      (bits.toNat >>> 52) % 2048 := by
  rw [Float.Model.UnpackedFloat.unpackExponent_def, BitVec.extractLsb'_toNat]
  rfl

lemma toNat_unpackMantissa (bits : UInt64) :
    (@Float.Model.UnpackedFloat.unpackMantissa .binary64 bits.toBitVec).toNat =
      bits.toNat % (1 <<< 52) := by
  rw [Float.Model.UnpackedFloat.unpackMantissa, BitVec.toNat_cast, BitVec.extractLsb_toNat]
  rfl

lemma unpackExponent_eq_iff (bits : UInt64) (v : BitVec 11) :
    @Float.Model.UnpackedFloat.unpackExponent .binary64 bits.toBitVec = v ↔
      (bits.toNat >>> 52) % 2048 = v.toNat := by
  rw [← toNat_unpackExponent]
  exact BitVec.toNat_inj.symm

lemma unpackMantissa_eq_zero_iff (bits : UInt64) :
    @Float.Model.UnpackedFloat.unpackMantissa .binary64 bits.toBitVec = 0#52 ↔
      bits.toNat % (1 <<< 52) = 0 := by
  rw [← toNat_unpackMantissa]
  exact BitVec.toNat_inj.symm

/-- Only one bit pattern of those that are no number is a `Float`. -/
lemma eq_nan_of_read (h : read x = .nan) : x = nan := by
  have hbits : (x.toBits.toNat >>> 52) % 2048 = 2047 ∧ x.toBits.toNat % (1 <<< 52) ≠ 0 := by
    simp only [read, readBits] at h
    split_ifs at h with he hf
    exact ⟨he, hf⟩
  have hexponent : @Float.Model.UnpackedFloat.unpackExponent .binary64 x.toBits.toBitVec = -1 := by
    refine BitVec.eq_of_toNat_eq ?_
    rw [toNat_unpackExponent]
    exact hbits.1
  have hfraction : @Float.Model.UnpackedFloat.unpackMantissa .binary64 x.toBits.toBitVec ≠ 0 := by
    intro hzero
    have hmod := congrArg BitVec.toNat hzero
    rw [toNat_unpackMantissa] at hmod
    exact hbits.2 hmod
  have hnan : x.toBits = nan.toBits :=
    UInt64.toBitVec_inj.1 (x.toModel.valid.eq_packedNaN hexponent hfraction)
  rw [← Float.ofBits_toBits x, hnan, Float.ofBits_toBits]

lemma isNaN_iff : x.isNaN ↔ x = nan := by
  refine ⟨fun h => ?_, fun h => h ▸ by decide⟩
  by_contra hne
  have hself : (x == x) = true := Float.beq_self_iff.2 hne
  have hunpack : x.toModel.unpack = .notANumber := Float.Model.UnpackedFloat.isNaN_iff.1 h
  change Float.Model.UnpackedFloat.beq x.toModel.unpack x.toModel.unpack = true at hself
  rw [hunpack] at hself
  exact absurd hself (by decide)

/-- Bits are kept unless they spell an undefined number. -/
lemma toBits_ofBits {bits : UInt64} (h : readBits bits.toNat ≠ .nan) :
    (Float.ofBits bits).toBits = bits := by
  have hnot : @Float.Model.UnpackedFloat.isNaNBits .binary64 bits.toBitVec = false := by
    refine decide_eq_false fun ⟨hexponent, hmantissa⟩ => h ?_
    have he : (bits.toNat >>> 52) % 2048 = 2047 := by
      rw [← toNat_unpackExponent, hexponent]
      rfl
    have hm : bits.toNat % (1 <<< 52) ≠ 0 := fun hzero => hmantissa <| by
      refine BitVec.eq_of_toNat_eq ?_
      rw [toNat_unpackMantissa, hzero]
      rfl
    exact (if_pos he).trans (if_neg hm)
  refine UInt64.toBitVec_inj.1 ?_
  refine (@Float.Model.UnpackedFloat.pack_unpack .binary64 bits.toBitVec (by decide)).trans ?_
  rw [hnot]
  rfl

/-- No magnitude up to that of infinity is undefined. -/
lemma readBits_ne_nan {magnitude : Nat} (h : magnitude ≤ infinityBits) :
    readBits ((if negative then 1 <<< 63 else 0) + magnitude) ≠ .nan := by
  simp only [readBits, infinityBits, Nat.shiftRight_eq_div_pow, Nat.shiftLeft_eq] at h ⊢
  split_ifs <;> simp <;> omega

lemma read_ofMagnitude (negative : Bool) (magnitude : Nat) :
    read (ofMagnitude negative magnitude) =
      readBits ((if negative then 1 <<< 63 else 0) + min magnitude infinityBits) := by
  have hle : min magnitude infinityBits ≤ infinityBits := Nat.min_le_right _ _
  have hbits : (UInt64.ofNat (if negative then (1 <<< 63) + min magnitude infinityBits
      else min magnitude infinityBits)).toNat =
        (if negative then 1 <<< 63 else 0) + min magnitude infinityBits := by
    generalize min magnitude infinityBits = bounded at hle ⊢
    simp only [infinityBits, Nat.shiftLeft_eq] at hle
    rw [UInt64.toNat_ofNat']
    cases negative <;> simp <;> omega
  rw [ofMagnitude, read, toBits_ofBits (by rw [hbits]; exact readBits_ne_nan hle), hbits]

/-- What is written into bits is read from them. -/
lemma readBits_of_canonical (h : Canonical mantissa shift) :
    readBits ((if negative then 1 <<< 63 else 0) + ((shift <<< 52) + mantissa)) =
      .finite negative mantissa shift := by
  obtain ⟨hm, hs, hle⟩ := h
  simp only [readBits, Nat.shiftRight_eq_div_pow, Nat.shiftLeft_eq, Nat.one_mul]
  have hsign : decide (2 ^ 63 ≤ (if negative then 2 ^ 63 else 0) + (shift * 2 ^ 52 + mantissa)) =
      negative := by
    cases negative
    · simp
      omega
    · simp
  rw [hsign]
  generalize hmark : (if negative then 2 ^ 63 else 0) = mark
  obtain hmark : mark = 0 ∨ mark = 2 ^ 63 := by cases negative <;> simp_all
  split_ifs with he hf he'
  · omega
  · omega
  · exact congrArg₂ _ (by omega) (by omega)
  · exact congrArg₂ _ (by omega) (by omega)

/-- A magnitude is never undefined. -/
lemma isNaN_ofMagnitude (negative : Bool) (magnitude : Nat) :
    (ofMagnitude negative magnitude).isNaN = false := by
  rw [← Bool.not_eq_true, isNaN_iff]
  intro hnan
  have hread : read nan = .nan := by decide
  rw [← hnan, read_ofMagnitude] at hread
  exact readBits_ne_nan (Nat.min_le_right _ _) hread

lemma beq_self_eq : (x == x) = !x.isNaN := by
  rw [Bool.eq_iff_iff, Float.beq_self_iff, Bool.not_eq_true', ← Bool.not_eq_true, isNaN_iff]
  exact Iff.rfl

lemma eq_zero_of_beq (h : x == 0) : x = 0 ∨ x = -0 := by
  obtain ⟨-, -, hx | ⟨hx, -⟩ | ⟨hx, -⟩⟩ := Float.beq_iff_ne_nan_and_eq.1 h
  · exact .inl hx
  · exact .inl hx
  · exact .inr hx

/-- What is read as a finite number is one. -/
lemma isFinite_eq_read (x : Float) : x.isFinite = (read x).isFinite := by
  have hmodel : x.isFinite =
      (Float.Model.UnpackedFloat.unpack .binary64 x.toBits.toBitVec).isFinite := rfl
  rw [hmodel, read]
  generalize x.toBits = bits
  unfold Float.Model.UnpackedFloat.unpack readBits
  by_cases hlast : (bits.toNat >>> 52) % 2048 = 2047
  · simp only [if_pos ((unpackExponent_eq_iff bits (-1#11)).2 hlast), if_pos hlast]
    split_ifs <;> rfl
  · simp only [if_neg (mt (unpackExponent_eq_iff bits (-1#11)).1 hlast), if_neg hlast]
    split_ifs <;> rfl

lemma IsFinite.read_eq (h : IsFinite x) :
    ∃ negative mantissa shift, read x = .finite negative mantissa shift := by
  unfold IsFinite at h
  cases hx : read x with
  | finite negative mantissa shift => exact ⟨_, _, _, rfl⟩
  | _ => simp [hx, Reading.isFinite] at h

end Exclaim.Binary
