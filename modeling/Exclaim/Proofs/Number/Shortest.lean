import Exclaim.Number.Numeral
import Exclaim.Number.Shortest
import Exclaim.Proofs.Number.Rounding

/-! The shortest digits of a number are among those that round to it. -/
namespace Exclaim

namespace Shortest.Interval
variable {i : Interval} {index mantissa shift : Nat}

lemma pow_shiftLeft (index shift : Nat) : Nat.pow 10 index <<< shift = 10 ^ index * 2 ^ shift :=
  Nat.shiftLeft_eq _ _

lemma spacing_eq (index : Nat) : spacing index = 10 ^ index * 2 ^ 1076 := pow_shiftLeft index 1076

lemma contains_iff {x : Nat} : i.contains x ↔
    i.low ≤ x ∧ x ≤ i.high ∧ (i.closed = false → x ≠ i.low ∧ x ≠ i.high) := by
  unfold contains
  cases i.closed
  · simp
    omega
  · simp

/-- The search for a coarse grid keeps to those that meet the interval. -/
lemma meets_coarsest (bits least : Nat) (h : i.meets least) : i.meets (i.coarsest bits least) := by
  induction bits generalizing least with
  | zero => exact h
  | succ bits ih =>
    rw [coarsest]
    split
    · next hmeets => exact ih _ hmeets
    · exact ih _ h

lemma contains_nearestPoint (tie : Tie) (h : i.meets index) :
    0 < i.nearestPoint tie index ∧ i.contains (i.nearestPoint tie index * spacing index) := by
  unfold meets at h
  unfold nearestPoint
  simp only at h ⊢
  generalize i.value / spacing index = below at h ⊢
  cases hlow : below != 0 && i.contains (below * spacing index) with
  | false =>
    rw [hlow, Bool.false_or] at h
    exact ⟨Nat.succ_pos _, h⟩
  | true =>
    have hbelow : 0 < below ∧ i.contains (below * spacing index) := by
      simpa [Nat.pos_iff_ne_zero] using hlow
    cases hhigh : i.contains ((below + 1) * spacing index) with
    | false => exact hbelow
    | true =>
      have heither : ∀ n, n = below ∨ n = below + 1 →
          0 < n ∧ i.contains (n * spacing index) := by
        rintro n (rfl | rfl)
        · exact hbelow
        · exact ⟨Nat.succ_pos _, hhigh⟩
      refine heither _ ?_
      simp only [Bool.not_true, Bool.false_eq_true, if_false]
      cases tie <;> simp only <;> split_ifs <;> simp

/-- The finest grid is finer than a step. -/
lemma spacing_zero_le (shift : Nat) : spacing 0 ≤ 10 ^ finest * 2 ^ shift := by
  have hstep : 2 ^ 1076 ≤ 10 ^ finest := by decide +kernel
  rw [spacing_eq, Nat.pow_zero, Nat.one_mul]
  exact hstep.trans (Nat.le_mul_of_pos_right _ (Nat.two_pow_pos _))

lemma meets_zero (shift : Nat) (hm : 0 < mantissa) : (ofReading mantissa shift).meets 0 := by
  have hfine := spacing_zero_le shift
  have hpos : 0 < spacing 0 := by
    rw [spacing_eq]
    positivity
  have hdiv := Nat.div_add_mod (4 * mantissa * (10 ^ finest * 2 ^ shift)) (spacing 0)
  have hmod := Nat.mod_lt (4 * mantissa * (10 ^ finest * 2 ^ shift)) hpos
  unfold meets ofReading
  simp only [pow_shiftLeft]
  generalize 10 ^ finest * 2 ^ shift = scale at *
  generalize spacing 0 = step at *
  generalize 4 * mantissa * scale % step = rest at *
  generalize 4 * mantissa * scale / step = below at *
  rw [Nat.mul_comm step below] at hdiv
  have hvalue : 4 * scale ≤ 4 * mantissa * scale := Nat.mul_le_mul_right scale (by omega)
  have hlow : (4 * mantissa - if mantissa = 1 <<< 52 ∧ 0 < shift then 1 else 2) * scale <
      below * step := by
    have hle : (4 * mantissa - if mantissa = 1 <<< 52 ∧ 0 < shift then 1 else 2) * scale ≤
        (4 * mantissa - 1) * scale := Nat.mul_le_mul_right scale (by split <;> omega)
    have hone : (4 * mantissa - 1) * scale = 4 * mantissa * scale - scale := by
      rw [Nat.sub_mul, Nat.one_mul]
    omega
  have hhigh : below * step < (4 * mantissa + 2) * scale := by
    linarith
  have hbelow : below ≠ 0 := by
    rintro rfl
    omega
  have hcontains : contains ⟨_, 4 * mantissa * scale, _, mantissa % 2 == 0⟩ (below * step) :=
    contains_iff.2 ⟨hlow.le, hhigh.le, fun _ => ⟨hlow.ne', hhigh.ne⟩⟩
  rw [hcontains, Bool.and_true, bne_iff_ne.2 hbelow, Bool.true_or]

end Shortest.Interval

namespace Shortest
variable {mantissa shift num den : Nat}

/-- Whatever has the value of a point in the interval rounds to the number. -/
lemma roundsTo_of_contains {x : Nat} (hm : 0 < mantissa) (hden : 0 < den)
    (hx : (Interval.ofReading mantissa shift).contains x)
    (hnum : num * (4 * 10 ^ finest) = den * x) : Binary.RoundsTo mantissa shift num den := by
  obtain ⟨hlow, hhigh, hopen⟩ := Interval.contains_iff.1 hx
  have hgap : (if mantissa = 1 <<< 52 ∧ 0 < shift then 1 else 2) =
      Binary.gapBelow mantissa shift := rfl
  simp only [Interval.ofReading, Interval.pow_shiftLeft, hgap] at hlow hhigh hopen
  have hten : 0 < 10 ^ finest := by positivity
  have hle : Binary.gapBelow mantissa shift ≤ 4 * mantissa := by
    have hgap := Binary.gapBelow_le mantissa shift
    omega
  -- An end of the interval, in steps and in the units of the grid.
  have hscale : ∀ k, 10 ^ finest * (k * (den * 2 ^ shift)) =
      den * (k * (10 ^ finest * 2 ^ shift)) := fun k => by ring
  have hunits : 10 ^ finest * (4 * num) = den * x := by
    rw [← hnum]
    ring
  have hend : ∀ k, 4 * num = k * (den * 2 ^ shift) → x = k * (10 ^ finest * 2 ^ shift) :=
    fun k hk => Nat.eq_of_mul_eq_mul_left hden (by rw [← hunits, hk, hscale])
  refine ⟨?_, ?_, fun hodd => ?_⟩
  · have hlow' : (4 * mantissa - Binary.gapBelow mantissa shift) * (den * 2 ^ shift) ≤ 4 * num := by
      refine Nat.le_of_mul_le_mul_left ?_ hten
      rw [hscale, hunits]
      exact Nat.mul_le_mul_left den hlow
    rw [Nat.sub_mul] at hlow'
    omega
  · refine Nat.le_of_mul_le_mul_left ?_ hten
    rw [hscale, hunits]
    exact Nat.mul_le_mul_left den hhigh
  · have hne := hopen (by simp [hodd])
    have htwo : Binary.gapBelow mantissa shift = 2 := if_neg fun hpower => by
      rw [hpower.1] at hodd
      exact absurd hodd (by decide)
    rw [htwo] at hne hle
    refine ⟨fun heq => hne.1 (hend _ ?_), fun heq => hne.2 (hend _ heq)⟩
    rw [Nat.sub_mul]
    omega

lemma point_lt (hc : Binary.Canonical mantissa shift) {coefficient index : Nat}
    (hx : (Interval.ofReading mantissa shift).contains (coefficient * Interval.spacing index)) :
    coefficient * 10 ^ index < 10 ^ 634 := by
  obtain ⟨hm, hs, -⟩ := hc
  have hhigh := (Interval.contains_iff.1 hx).2.1
  simp only [Interval.ofReading, Interval.pow_shiftLeft, Interval.spacing_eq] at hhigh
  have hpow : ∀ {bound}, shift ≤ bound → 2 ^ shift ≤ 2 ^ bound :=
    fun hle => Nat.pow_le_pow_right Nat.two_pos hle
  have hmax : (4 * mantissa + 2) * (10 ^ finest * 2 ^ shift) ≤ 2 ^ 55 * (10 ^ finest * 2 ^ 2045) :=
    Nat.mul_le_mul (by omega) (Nat.mul_le_mul_left (10 ^ finest) (hpow hs))
  have hten : 2 ^ 55 * (10 ^ finest * 2 ^ 2045) < 10 ^ 634 * 2 ^ 1076 := by decide +kernel
  refine Nat.lt_of_mul_lt_mul_right (a := 2 ^ 1076) ?_
  calc coefficient * 10 ^ index * 2 ^ 1076 = coefficient * (10 ^ index * 2 ^ 1076) :=
        Nat.mul_assoc _ _ _
    _ ≤ _ := hhigh
    _ ≤ _ := hmax
    _ < _ := hten

/-- A number with zeros behind it has more digits than zeros. -/
lemma zeros_lt_length {coefficient : Nat} (hpos : 0 < coefficient) (zeros : Nat) :
    zeros < (Nat.toDigits 10 (coefficient * 10 ^ zeros)).length := by
  by_contra hle
  have hlength : 0 < (Nat.toDigits 10 (coefficient * 10 ^ zeros)).length :=
    List.length_pos_iff.2 Nat.toDigits_ne_nil
  have hlt := (Nat.length_toDigits_le_iff (by decide) (by omega)).1 (Nat.le_of_not_lt hle)
  have hge : 10 ^ zeros ≤ coefficient * 10 ^ zeros := Nat.le_mul_of_pos_left _ hpos
  omega

lemma length_add_le {coefficient index bound : Nat} (hpos : 0 < coefficient)
    (h : coefficient * 10 ^ index < 10 ^ bound) (zeros : Nat) :
    (Nat.toDigits 10 (coefficient * 10 ^ zeros)).length + index ≤ bound + zeros := by
  have hindex : index < bound := by
    have hlt : 10 ^ index < 10 ^ bound := lt_of_le_of_lt (Nat.le_mul_of_pos_left _ hpos) h
    exact (Nat.pow_lt_pow_iff_right (by decide)).1 hlt
  have hlt : coefficient * 10 ^ zeros < 10 ^ (bound + zeros - index) := by
    refine Nat.lt_of_mul_lt_mul_right (a := 10 ^ index) ?_
    calc coefficient * 10 ^ zeros * 10 ^ index = coefficient * 10 ^ index * 10 ^ zeros := by ring
      _ < 10 ^ bound * 10 ^ zeros := Nat.mul_lt_mul_of_pos_right h (by positivity)
      _ = 10 ^ (bound + zeros - index) * 10 ^ index := by
        rw [← pow_add, ← pow_add]
        congr 1
        omega
  have hle := (Nat.length_toDigits_le_iff (by decide) (by omega)).2 hlt
  omega

variable {negative : Bool} {tie : Tie}

/-- The shortest decimal of a number, with zeros behind its digits, is read as the number. -/
lemma nearest_ofReading (hc : Binary.Canonical mantissa shift) (hm : 0 < mantissa) (zeros : Nat) :
    Numeral.nearest negative ((ofReading tie mantissa shift).coefficient * 10 ^ zeros)
      ((ofReading tie mantissa shift).exponent - zeros) =
        Binary.ofMagnitude negative ((shift <<< 52) + mantissa) := by
  obtain ⟨hpos, hx⟩ := Interval.contains_nearestPoint tie
    (Interval.meets_coarsest 10 0 (Interval.meets_zero shift hm))
  unfold ofReading
  simp only
  generalize (Interval.ofReading mantissa shift).coarsest 10 0 = index at *
  generalize (Interval.ofReading mantissa shift).nearestPoint tie index = coefficient at *
  have hlower := zeros_lt_length hpos zeros
  have hupper := length_add_le hpos (point_lt hc hx) zeros
  have hdigits : coefficient * 10 ^ zeros ≠ 0 := by positivity
  have hnear : ∀ num den, 0 < den →
      num * (4 * 10 ^ finest) = den * (coefficient * Interval.spacing index) →
        Binary.nearest negative num den =
          Binary.ofMagnitude negative ((shift <<< 52) + mantissa) := by
    intro num den hden hnum
    rw [Binary.nearest, Binary.nearestMagnitude_eq hc hden (roundsTo_of_contains hm hden hx hnum)]
  have hfinest : (finest : Int) = 324 := rfl
  have hunit : 2 ^ 1076 = Binary.one * 4 := by decide +kernel
  rw [Interval.spacing_eq, hunit] at hnear
  unfold Numeral.nearest
  simp only
  rw [if_neg (by omega), if_neg (by omega)]
  split
  · obtain ⟨power, hpower⟩ : ∃ power, index = finest + zeros + power :=
      ⟨index - finest - zeros, by omega⟩
    rw [show ((index : Int) - finest - zeros).toNat = power by omega]
    refine hnear _ _ Nat.one_pos ?_
    rw [hpower, pow_add, pow_add, Nat.pow_eq]
    ring
  · obtain ⟨power, hpower⟩ : ∃ power, index + power = finest + zeros :=
      ⟨finest + zeros - index, by omega⟩
    rw [show (-((index : Int) - finest - zeros)).toNat = power by omega]
    refine hnear _ _ (Nat.pow_pos (by decide)) ?_
    have hpow : 10 ^ index * 10 ^ power = 10 ^ finest * 10 ^ zeros := by
      rw [← pow_add, hpower, pow_add]
    calc coefficient * 10 ^ zeros * Binary.one * (4 * 10 ^ finest) =
          coefficient * (10 ^ finest * 10 ^ zeros) * (Binary.one * 4) := by ring
      _ = Nat.pow 10 power * (coefficient * (10 ^ index * (Binary.one * 4))) := by
        rw [← hpow, Nat.pow_eq]
        ring

end Shortest

end Exclaim
