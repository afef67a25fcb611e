/-! Double-precision numbers read from and written to their bits. Every finite number is a whole
count of steps of `2^-1074`, so exact work on it is work on naturals. -/
namespace Exclaim.Binary

/-- What the bits of a number say. A finite number has the magnitude `mantissa * 2^shift` steps;
its mantissa has 53 bits unless `shift` is zero. -/
inductive Reading where
  | nan
  | infinite (negative : Bool)
  | finite (negative : Bool) (mantissa shift : Nat)
deriving DecidableEq, Repr

/-- The steps that make up one. -/
def one : Nat := 1 <<< 1074

/-- The magnitude bits of infinity. -/
def infinityBits : Nat := 2047 <<< 52

def readBits (bits : Nat) : Reading :=
  let negative := decide (1 <<< 63 ≤ bits)
  let exponent := (bits >>> 52) % 2048
  let fraction := bits % (1 <<< 52)
  if exponent = 2047 then
    if fraction = 0 then .infinite negative else .nan
  else if exponent = 0 then .finite negative fraction 0
  else .finite negative ((1 <<< 52) + fraction) (exponent - 1)

def read (x : Float) : Reading := readBits x.toBits.toNat

/-- The number of a sign and magnitude bits; whatever lies beyond infinity is infinity. -/
def ofMagnitude (negative : Bool) (magnitude : Nat) : Float :=
  let magnitude := min magnitude infinityBits
  Float.ofBits (UInt64.ofNat (if negative then (1 <<< 63) + magnitude else magnitude))

def infinity (negative : Bool) : Float := ofMagnitude negative infinityBits

def nan : Float := Float.ofBits 0x7ff8000000000000

/-- The natural nearest to `num / den`; a half goes to the even neighbour. -/
def roundHalfEven (num den : Nat) : Nat :=
  let quotient := num / den
  let rest := num % den
  if den < 2 * rest ∨ (den = 2 * rest ∧ quotient % 2 = 1) then quotient + 1 else quotient

/-- The magnitude bits of the number nearest to `num / den` steps. Rounding may carry the mantissa
to `2^53`; the sum then spells the next power of two. -/
def nearestMagnitude (num den : Nat) : Nat :=
  let shift := (num / den).log2 - 52
  (shift <<< 52) + roundHalfEven num (den <<< shift)

/-- The number nearest to `num / den` steps; a half goes to the even mantissa. -/
def nearest (negative : Bool) (num den : Nat) : Float :=
  ofMagnitude negative (nearestMagnitude num den)

/-- The number nearest to an integer. -/
def ofInt (n : Int) : Float := nearest (decide (n < 0)) (n.natAbs * one) 1

theorem roundHalfEven_one (n : Nat) : roundHalfEven n 1 = n := by
  simp [roundHalfEven, Nat.mod_one]

end Exclaim.Binary
