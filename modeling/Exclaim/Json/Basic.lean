import Exclaim.Number.Style

/-! JSON values and their two written forms. -/
namespace Exclaim

inductive Json where
  | null
  | boolean (value : Bool)
  | number (value : Float)
  | text (value : String)
  | list (items : List Json)
  /-- Fields in the order they are written. -/
  | record (fields : List (String × Json))

namespace Json

/-- Shortest digits, positional from `0.00001` up to `10^16`, always with a point; what is not
finite is null. -/
def numberStyle : NumberStyle where
  leastPlain := -5
  greatestPlain := 15
  pointZero := true
  tie := .toEven
  nan := "null"
  infinity := "null"
  negativeInfinity := "null"
  zero := "0.0"
  negativeZero := "-0.0"

/-- Four lower-case hexadecimal digits. -/
def hexDigits (code : Nat) : List Char :=
  let digits := Nat.toDigits 16 code
  List.replicate (4 - digits.length) '0' ++ digits

/-- Quotes, backslashes and control characters are escaped, everything else stands for itself. -/
def escapeChar (c : Char) : List Char :=
  if c = '\x22' then ['\\', '\x22']
  else if c = '\\' then ['\\', '\\']
  else if c = '\x08' then ['\\', 'b']
  else if c = '\x0c' then ['\\', 'f']
  else if c = '\n' then ['\\', 'n']
  else if c = '\r' then ['\\', 'r']
  else if c = '\t' then ['\\', 't']
  else if c.toNat < 0x20 then '\\' :: 'u' :: hexDigits c.toNat
  else [c]

def quote (s : String) : List Char := '\x22' :: s.toList.flatMap escapeChar ++ ['\x22']

/-- A value without inner parts. -/
def writeScalar : Json → List Char
  | .boolean value => (if value then "true" else "false").toList
  | .number value => (numberStyle.write value).toList
  | .text value => quote value
  | _ => "null".toList

mutual

/-- The written form without any blanks. -/
def compact : Json → List Char
  | .list items => '[' :: compactItems items ++ [']']
  | .record fields => '\x7b' :: compactFields fields ++ ['\x7d']
  | scalar => scalar.writeScalar

def compactItems : List Json → List Char
  | [] => []
  | [item] => item.compact
  | item :: items => item.compact ++ ',' :: compactItems items

def compactFields : List (String × Json) → List Char
  | [] => []
  | [field] => quote field.1 ++ ':' :: field.2.compact
  | field :: fields => quote field.1 ++ ':' :: field.2.compact ++ ',' :: compactFields fields

end

/-- A line end with two blanks per level. -/
def newline (level : Nat) : List Char := '\n' :: List.replicate (2 * level) ' '

mutual

/-- The written form with one part a line, indented by level. -/
def pretty (level : Nat) : Json → List Char
  | .list [] => ['[', ']']
  | .list items => '[' :: prettyItems (level + 1) items ++ newline level ++ [']']
  | .record [] => ['\x7b', '\x7d']
  | .record fields => '\x7b' :: prettyFields (level + 1) fields ++ newline level ++ ['\x7d']
  | scalar => scalar.writeScalar

def prettyItems (level : Nat) : List Json → List Char
  | [] => []
  | [item] => newline level ++ item.pretty level
  | item :: items => newline level ++ item.pretty level ++ ',' :: prettyItems level items

def prettyFields (level : Nat) : List (String × Json) → List Char
  | [] => []
  | [field] => newline level ++ quote field.1 ++ ':' :: ' ' :: field.2.pretty level
  | field :: fields =>
      newline level ++ quote field.1 ++ ':' :: ' ' :: field.2.pretty level ++
        ',' :: prettyFields level fields

end

def compactText (j : Json) : String := String.ofList j.compact

def prettyText (j : Json) : String := String.ofList (j.pretty 0)

/-- A field that is left out when it has no value. -/
def optionalField (name : String) : Option Json → List (String × Json)
  | some value => [(name, value)]
  | none => []

end Json
end Exclaim
