import Exclaim.Number.Shortest

/-! How numbers are written. -/
namespace Exclaim

/-- The decisions of a number format. A number is written from its shortest digits
`d.ddd * 10^E`: positionally for `E` within bounds, with an exponent otherwise. -/
structure NumberStyle where
  leastPlain : Int
  greatestPlain : Int
  /-- Whether a whole number written positionally ends in `.0`. -/
  pointZero : Bool
  tie : Shortest.Tie
  nan : String
  infinity : String
  negativeInfinity : String
  zero : String
  negativeZero : String

namespace NumberStyle

/-- Digits with the point behind the first `point` of them, filled up with zeros. -/
def positional (pointZero : Bool) (digits : List Char) (point : Int) : List Char :=
  if point ≤ 0 then
    '0' :: '.' :: List.replicate (-point).toNat '0' ++ digits
  else
    let point := point.toNat
    if digits.length ≤ point then
      digits ++ List.replicate (point - digits.length) '0' ++ (if pointZero then ['.', '0'] else [])
    else digits.take point ++ '.' :: digits.drop point

/-- `d.ddde±E`, without a point when there is one digit. -/
def scientific (digits : List Char) (exponent : Int) : List Char :=
  let mantissa := match digits with
    | d :: rest@(_ :: _) => d :: '.' :: rest
    | short => short
  let sign := if exponent < 0 then '-' else '+'
  mantissa ++ 'e' :: sign :: Nat.toDigits 10 exponent.natAbs

/-- A positive decimal. -/
def writeDecimal (style : NumberStyle) (d : Shortest.Decimal) : List Char :=
  let digits := Nat.toDigits 10 d.coefficient
  let point := (digits.length : Int) + d.exponent
  if style.leastPlain ≤ point - 1 ∧ point - 1 ≤ style.greatestPlain then
    positional style.pointZero digits point
  else scientific digits (point - 1)

def write (style : NumberStyle) (x : Float) : String :=
  match Binary.read x with
  | .nan => style.nan
  | .infinite negative => if negative then style.negativeInfinity else style.infinity
  | .finite negative mantissa shift =>
      if mantissa = 0 then if negative then style.negativeZero else style.zero
      else
        let text := style.writeDecimal (Shortest.ofReading style.tie mantissa shift)
        String.ofList (if negative then '-' :: text else text)

end NumberStyle
end Exclaim
