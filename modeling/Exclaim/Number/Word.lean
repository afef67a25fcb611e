import Exclaim.Number.Binary

/-! Numbers as 32-bit words, and the exact remainder. -/
namespace Exclaim

/-- A number without its fraction; zero for what is not finite. -/
def wholePart (x : Float) : Int :=
  match Binary.read x with
  | .finite negative mantissa shift =>
      let magnitude : Nat := (mantissa <<< shift) / Binary.one
      if negative then -(magnitude : Int) else magnitude
  | _ => 0

/-- The whole part of a number modulo `2^32`, as a word. The remainder takes the sign of the number,
and where it is negative the modulus is added. -/
def wordOf (x : Float) : BitVec 32 :=
  let rest := (wholePart x).tmod 4294967296
  BitVec.ofNat 32 (if rest < 0 then rest + 4294967296 else rest).toNat

theorem wordOf_eq_ofInt (x : Float) : wordOf x = BitVec.ofInt 32 (wholePart x) := by
  have hstep (n : Int) : (if n.tmod 4294967296 < 0 then n.tmod 4294967296 + 4294967296
      else n.tmod 4294967296) = n % 4294967296 := by
    rw [Int.tmod_eq_emod]
    by_cases h : 0 ≤ n ∨ 4294967296 ∣ n
    · rw [if_pos h]
      split <;> omega
    · rw [if_neg h]
      split <;> omega
  refine BitVec.eq_of_toNat_eq ?_
  simp only [wordOf, hstep, BitVec.toNat_ofNat, BitVec.toNat_ofInt]
  omega

/-- The remainder of a division that rounds the quotient toward zero. It has the sign of the
dividend and is exact. -/
def remainder (x y : Float) : Float :=
  match Binary.read x, Binary.read y with
  | .finite negative mx sx, .finite _ my sy =>
      if my = 0 then Binary.nan
      else Binary.nearest negative ((mx <<< sx) % (my <<< sy)) 1
  | .finite .., .infinite _ => x
  | _, _ => Binary.nan

/-- Powers, except that nothing can be said of an undefined exponent, nor of an infinite power of
one or minus one. -/
def power (base exponent : Float) : Float :=
  if exponent.isNaN || (base.abs == 1.0 && exponent.isInf) then Binary.nan
  else base.pow exponent

end Exclaim
