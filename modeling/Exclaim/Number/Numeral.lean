import Exclaim.Number.Binary

/-! Decimal numerals: how they are spelled and which number they mean. -/
namespace Exclaim

/-- A decimal numeral: an optional sign, digits around an optional point, an optional exponent. -/
structure Numeral where
  negative : Bool
  whole : List Char
  fraction : List Char
  exponent : Int
deriving DecidableEq, Repr

namespace Numeral

/-- An optional sign, and the rest. -/
def splitSign : List Char → Bool × List Char
  | '-' :: cs => (true, cs)
  | '+' :: cs => (false, cs)
  | cs => (false, cs)

/-- A run of decimal digits, and the rest. -/
def splitDigits (cs : List Char) : List Char × List Char :=
  (cs.takeWhile Char.isDigit, cs.dropWhile Char.isDigit)

def digitsValue (digits : List Char) : Nat :=
  digits.foldl (fun value d => 10 * value + (d.toNat - '0'.toNat)) 0

/-- The digits behind a point, if there is one, and the rest. -/
def splitFraction : List Char → List Char × List Char
  | '.' :: cs => splitDigits cs
  | cs => ([], cs)

/-- What follows the digits: nothing, or `e` with an optional sign and at least one digit. -/
def readExponent? : List Char → Option Int
  | [] => some 0
  | c :: cs =>
      if c = 'e' ∨ c = 'E' then
        let (negative, cs) := splitSign cs
        let (digits, rest) := splitDigits cs
        if digits = [] ∨ rest ≠ [] then none
        else some (if negative then -(digitsValue digits : Int) else digitsValue digits)
      else none

/-- Reads a whole text as a numeral. There is at least one digit before or behind the point. -/
def read? (cs : List Char) : Option Numeral :=
  let (negative, cs) := splitSign cs
  let (whole, cs) := splitDigits cs
  let (fraction, cs) := splitFraction cs
  if whole = [] ∧ fraction = [] then none
  else (readExponent? cs).map fun exponent => { negative, whole, fraction, exponent }

/-- The number nearest to `digits * 10^exponent`. Beyond `10^310` that is infinity and below
`10^-330` it is zero, whatever the digits. -/
def nearest (negative : Bool) (digits : Nat) (exponent : Int) : Float :=
  let top := ((Nat.toDigits 10 digits).length : Int) + exponent
  if digits = 0 ∨ top < -330 then Binary.ofMagnitude negative 0
  else if 310 < top then Binary.infinity negative
  else if 0 ≤ exponent then
    Binary.nearest negative (digits * Nat.pow 10 exponent.toNat * Binary.one) 1
  else Binary.nearest negative (digits * Binary.one) (Nat.pow 10 (-exponent).toNat)

def toFloat (n : Numeral) : Float :=
  nearest n.negative (digitsValue (n.whole ++ n.fraction)) (n.exponent - n.fraction.length)

end Numeral

/-- Reads a number: a numeral, or `inf`, `infinity` or `nan` in any letter case with an optional
sign. -/
def readNumber? (text : String) : Option Float :=
  let (negative, word) := Numeral.splitSign text.toList
  let word := word.map Char.toLower
  if word = "inf".toList ∨ word = "infinity".toList then some (Binary.infinity negative)
  else if word = "nan".toList then some Binary.nan
  else (Numeral.read? text.toList).map Numeral.toFloat

end Exclaim
