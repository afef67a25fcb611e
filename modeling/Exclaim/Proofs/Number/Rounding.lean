import Exclaim.Proofs.Number.Bits

/-! Rounding to the nearest number. Each finite number is the rounding of an interval around it. -/
namespace Exclaim.Binary

/-- What lies within half a unit of a natural is rounded to it, at half a unit if it is even. -/
lemma roundHalfEven_eq {num den n : Nat} (hden : 0 < den) (hlow : 2 * n * den ≤ 2 * num + den)
    (hhigh : 2 * num ≤ 2 * n * den + den)
    (hodd : n % 2 = 1 → 2 * n * den ≠ 2 * num + den ∧ 2 * num ≠ 2 * n * den + den) :
    roundHalfEven num den = n := by
  have hdiv : den * (num / den) + num % den = num := Nat.div_add_mod num den
  have hmod : num % den < den := Nat.mod_lt num hden
  unfold roundHalfEven
  simp only
  generalize num / den = q at *
  generalize num % den = r at *
  subst hdiv
  have hle : q ≤ n := by
    by_contra hlt
    have hmul : (n + 1) * den ≤ q * den := Nat.mul_le_mul_right den (by omega)
    linarith
  have hge : n ≤ q + 1 := by
    by_contra hlt
    have hmul : (q + 2) * den ≤ n * den := Nat.mul_le_mul_right den (by omega)
    linarith
  obtain rfl | rfl : q = n ∨ n = q + 1 := by omega
  · rw [if_neg]
    rintro (hr | ⟨hr, hq⟩)
    · linarith
    · exact (hodd hq).2 (by linarith)
  · rw [if_pos]
    by_cases hr : den < 2 * r
    · exact .inl hr
    · have htie : den = 2 * r := by linarith
      by_contra hq
      exact (hodd (by omega)).1 (by linarith)

/-- The part of the gap to the number below, in quarters of the one above. -/
def gapBelow (mantissa shift : Nat) : Nat := if mantissa = 2 ^ 52 ∧ 0 < shift then 1 else 2

/-- Whether `num / den` steps lie nearer to `mantissa * 2^shift` than to its neighbours, or halfway
when the mantissa is even. -/
structure RoundsTo (mantissa shift num den : Nat) : Prop where
  low : 4 * mantissa * (den * 2 ^ shift) ≤ 4 * num + gapBelow mantissa shift * (den * 2 ^ shift)
  high : 4 * num ≤ (4 * mantissa + 2) * (den * 2 ^ shift)
  strict : mantissa % 2 = 1 →
    4 * mantissa * (den * 2 ^ shift) ≠ 4 * num + 2 * (den * 2 ^ shift) ∧
      4 * num ≠ (4 * mantissa + 2) * (den * 2 ^ shift)

variable {mantissa shift num den : Nat}

lemma gapBelow_le (mantissa shift : Nat) : gapBelow mantissa shift ≤ 2 := by
  unfold gapBelow
  split <;> simp

/-- The leading bits of a quotient tell its shift. Below the first of them there is no shift. -/
lemma log2_sub_eq (hden : 0 < den) (hlow : shift ≠ 0 → 2 ^ 52 * (den * 2 ^ shift) ≤ num)
    (hhigh : num < 2 ^ 53 * (den * 2 ^ shift)) : (num / den).log2 - 52 = shift := by
  have hdiv : num / den < 2 ^ (53 + shift) := by
    rw [Nat.div_lt_iff_lt_mul hden, pow_add]
    linarith
  by_cases hs : shift = 0
  · subst hs
    by_cases hzero : num / den = 0
    · rw [hzero]
      rfl
    · have hlog : (num / den).log2 < 53 := (Nat.log2_lt hzero).2 hdiv
      omega
  · have hle : 2 ^ (52 + shift) ≤ num / den := by
      rw [Nat.le_div_iff_mul_le hden, pow_add]
      linarith [hlow hs]
    have hne : num / den ≠ 0 := (lt_of_lt_of_le (Nat.two_pow_pos _) hle).ne'
    have hlog : (num / den).log2 = 52 + shift :=
      (Nat.log2_eq_iff hne).2 ⟨hle, by rwa [show 52 + shift + 1 = 53 + shift by omega]⟩
    omega

/-- Just below a power of two the gap is half as wide, and the carry leads to that power. -/
lemma nearestMagnitude_below (hden : 0 < den) (hs : 0 < shift)
    (hlow : 2 ^ 54 * (den * 2 ^ shift) ≤ 4 * num + den * 2 ^ shift)
    (hnum : num < 2 ^ 52 * (den * 2 ^ shift)) :
    nearestMagnitude num den = (shift <<< 52) + 2 ^ 52 := by
  obtain ⟨shift, rfl⟩ : ∃ n, shift = n + 1 := ⟨shift - 1, by omega⟩
  have hpow : den * 2 ^ (shift + 1) = 2 * (den * 2 ^ shift) := by ring
  rw [hpow] at hlow hnum
  have hpos : 0 < den * 2 ^ shift := by positivity
  have hshift : (num / den).log2 - 52 = shift :=
    log2_sub_eq hden (fun _ => by linarith) (by linarith)
  have hround : roundHalfEven num (den <<< shift) = 2 ^ 53 := by
    rw [Nat.shiftLeft_eq]
    exact roundHalfEven_eq hpos (by linarith) (by linarith) (by norm_num)
  simp only [nearestMagnitude, hshift, hround]
  rw [Nat.shiftLeft_eq, Nat.shiftLeft_eq]
  ring

/-- A number is the one nearest to all that rounds to it. -/
lemma nearestMagnitude_eq (hc : Canonical mantissa shift) (hden : 0 < den)
    (h : RoundsTo mantissa shift num den) :
    nearestMagnitude num den = (shift <<< 52) + mantissa := by
  obtain ⟨hlow, hhigh, hstrict⟩ := h
  obtain ⟨hm, -, hleading⟩ := hc
  have hpos : 0 < den * 2 ^ shift := by positivity
  have hgap : gapBelow mantissa shift * (den * 2 ^ shift) ≤ 2 * (den * 2 ^ shift) :=
    Nat.mul_le_mul_right _ (gapBelow_le mantissa shift)
  by_cases hbelow : shift ≠ 0 ∧ num < 2 ^ 52 * (den * 2 ^ shift)
  · -- Only the half gap below a power of two is there.
    obtain ⟨hs, hnum⟩ := hbelow
    have hmantissa : mantissa = 2 ^ 52 := by
      by_contra hne
      have hmul : (2 ^ 52 + 1) * (den * 2 ^ shift) ≤ mantissa * (den * 2 ^ shift) :=
        Nat.mul_le_mul_right _ (by have := hleading hs; omega)
      linarith
    subst hmantissa
    rw [gapBelow, if_pos ⟨rfl, Nat.pos_of_ne_zero hs⟩] at hlow
    exact nearestMagnitude_below hden (Nat.pos_of_ne_zero hs) (by linarith) hnum
  · have hlt : num < 2 ^ 53 * (den * 2 ^ shift) := by
      have hmul : (mantissa + 1) * (den * 2 ^ shift) ≤ 2 ^ 53 * (den * 2 ^ shift) :=
        Nat.mul_le_mul_right _ hm
      linarith
    have hshift : (num / den).log2 - 52 = shift :=
      log2_sub_eq hden (fun hs => Nat.le_of_not_lt fun hnum => hbelow ⟨hs, hnum⟩) hlt
    have hround : roundHalfEven num (den <<< shift) = mantissa := by
      rw [Nat.shiftLeft_eq]
      refine roundHalfEven_eq hpos (by linarith) (by linarith) fun hodd => ?_
      exact ⟨fun heq => (hstrict hodd).1 (by linarith), fun heq => (hstrict hodd).2 (by linarith)⟩
    simp only [nearestMagnitude, hshift, hround]

end Exclaim.Binary
