import Exclaim.Json.Basic
import Exclaim.Number.Numeral
import Exclaim.Number.Word
import Exclaim.Text.Blank

/-! The values of programs and how one kind of value counts as another. -/
namespace Exclaim

inductive Value where
  | null
  | undefined
  | boolean (value : Bool)
  | number (value : Float)
  | text (value : String)

namespace Value

def typeName : Value → String
  | null => "NullValue"
  | undefined => "UndefinedValue"
  | boolean _ => "BooleanValue"
  | number _ => "NumberValue"
  | text _ => "StringValue"

/-- Shortest digits, positional from `0.000001` up to `10^21`; the two zeros look the same. -/
def numberStyle : NumberStyle where
  leastPlain := -6
  greatestPlain := 20
  pointZero := false
  tie := .up
  nan := "NaN"
  infinity := "Infinity"
  negativeInfinity := "-Infinity"
  zero := "0"
  negativeZero := "0"

/-- The text of a value. -/
def render : Value → String
  | null => "null"
  | undefined => "undefined"
  | boolean value => if value then "true" else "false"
  | number value => numberStyle.write value
  | text value => value

def toJson (v : Value) : Json :=
  .record (("typeName", .text v.typeName) :: match v with
    | null | undefined => []
    | boolean value => [("value", .boolean value)]
    | number value => [("value", .number value)]
    | text value => [("value", .text value)])

def isNullish : Value → Bool
  | null | undefined => true
  | _ => false

def isTruthy : Value → Bool
  | null | undefined => false
  | boolean value => value
  | number value => !(value == 0.0 || value.isNaN)
  | text value => value != ""

/-- The characters that a text may have to be read as a numeral. They keep out the words that the
reader of numbers knows. -/
def isNumeralChar (c : Char) : Bool := c.isDigit || c ∈ ['.', 'e', 'E', '+', '-']

/-- The number that a text spells, blanks at its ends aside. No text at all spells zero, and what is
no numeral and no infinity is not a number. -/
def textToNumber (s : String) : Float :=
  let cs := trimBlank s.toList
  if cs = [] then Binary.ofMagnitude false 0
  else if cs = "Infinity".toList ∨ cs = "+Infinity".toList then Binary.infinity false
  else if cs = "-Infinity".toList then Binary.infinity true
  else if cs.all isNumeralChar then (readNumber? (String.ofList cs)).getD Binary.nan
  else Binary.nan

def toNumber : Value → Float
  | null => Binary.ofMagnitude false 0
  | undefined => Binary.nan
  | boolean value => if value then Binary.ofInt 1 else Binary.ofMagnitude false 0
  | number value => value
  | text value => textToNumber value

/-- The 32-bit word of a value's number. -/
def toWord (v : Value) : BitVec 32 := wordOf v.toNumber

/-- Null and undefined equal each other and nothing else, texts compare as texts, and everything
else compares by number. -/
def looseEquals (a b : Value) : Bool :=
  if a.isNullish || b.isNullish then a.isNullish && b.isNullish
  else match a, b with
    | text a, text b => a == b
    | a, b => a.toNumber == b.toNumber

/-- Equal in kind and content. A number that is undefined equals nothing. -/
def strictEquals : Value → Value → Bool
  | null, null => true
  | undefined, undefined => true
  | boolean a, boolean b => a == b
  | number a, number b => a == b
  | text a, text b => a == b
  | _, _ => false

end Value
end Exclaim
