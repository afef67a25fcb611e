import Exclaim.Number.Binary

/-! The fewest decimal digits that read back as a given number. -/
namespace Exclaim.Shortest

/-- Where a value halfway between its two candidates goes. -/
inductive Tie where
  | up
  | toEven
deriving DecidableEq, Repr

/-- `coefficient * 10^exponent` -/
structure Decimal where
  coefficient : Nat
  exponent : Int
deriving DecidableEq, Repr

/-- The finest grid considered has the spacing `10^-324`, less than a step of `2^-1074`. -/
def finest : Nat := 324

/-- The values that round to one number, and that number itself, in units of
`2^-1076 * 10^-324`. -/
structure Interval where
  low : Nat
  value : Nat
  high : Nat
  /-- Whether the two ends round to the number as well. -/
  closed : Bool

/-- Half the gap to each neighbour belongs to the number. Below a power of two the gap is half as
wide, and the ends round to the even mantissa. -/
def Interval.ofReading (mantissa shift : Nat) : Interval :=
  let scale := Nat.pow 10 finest <<< shift
  let below := if mantissa = 1 <<< 52 ∧ 0 < shift then 1 else 2
  { low := (4 * mantissa - below) * scale
    value := 4 * mantissa * scale
    high := (4 * mantissa + 2) * scale
    closed := mantissa % 2 == 0 }

namespace Interval

def contains (i : Interval) (x : Nat) : Bool :=
  if i.closed then i.low ≤ x && x ≤ i.high else i.low < x && x < i.high

/-- The distance of neighbours on the grid of the multiples of `10^(index - 324)`. -/
def spacing (index : Nat) : Nat := Nat.pow 10 index <<< 1076

/-- Whether the grid at `index` has a positive point in the interval, next to its value. -/
def meets (i : Interval) (index : Nat) : Bool :=
  let below := i.value / spacing index
  (below != 0 && i.contains (below * spacing index)) || i.contains ((below + 1) * spacing index)

/-- The greatest index from `least` on, below `least + 2^bits`, whose grid meets the interval,
found by halving. -/
def coarsest (i : Interval) : (bits least : Nat) → Nat
  | 0, least => least
  | bits + 1, least =>
      if i.meets (least + (1 <<< bits)) then i.coarsest bits (least + (1 <<< bits))
      else i.coarsest bits least

/-- The point of the grid at `index` that lies in the interval and nearest to its value. -/
def nearestPoint (i : Interval) (tie : Tie) (index : Nat) : Nat :=
  let step := spacing index
  let below := i.value / step
  let lowIn := below != 0 && i.contains (below * step)
  let highIn := i.contains ((below + 1) * step)
  if !lowIn then below + 1
  else if !highIn then below
  else
    let down := i.value - below * step
    let up := (below + 1) * step - i.value
    if down < up then below
    else if up < down then below + 1
    else match tie with
      | .up => below + 1
      | .toEven => if below % 2 = 0 then below else below + 1

end Interval

/-- The shortest decimal of the positive number `mantissa * 2^shift` steps. -/
def ofReading (tie : Tie) (mantissa shift : Nat) : Decimal :=
  let interval := Interval.ofReading mantissa shift
  let index := interval.coarsest 10 0
  ⟨interval.nearestPoint tie index, (index : Int) - finest⟩

end Exclaim.Shortest
