/-! Reading JSON text strictly: no comments, no trailing commas, no leading zeros, nothing behind
the value but blanks. -/
namespace Exclaim.Json

/-- A JSON value as far as it is looked into. A text is missing when it spells half of a surrogate
pair, which no character has. -/
inductive Raw where
  | null
  | boolean (value : Bool)
  | number
  | text (value : Option String)
  | list (items : List Raw)
  | record (fields : List (Option String × Raw))

namespace Raw

def isSpace (c : Char) : Bool := c == ' ' || c == '\n' || c == '\t' || c == '\r'

def skipSpace (cs : List Char) : List Char := cs.dropWhile isSpace

def hexValue? (c : Char) : Option Nat :=
  if c.isDigit then some (c.toNat - '0'.toNat)
  else if 'a' ≤ c ∧ c ≤ 'f' then some (c.toNat - 'a'.toNat + 10)
  else if 'A' ≤ c ∧ c ≤ 'F' then some (c.toNat - 'A'.toNat + 10)
  else none

/-- The value of hexadecimal digits. -/
def hexCode? (digits : List Char) : Option Nat :=
  digits.foldlM (fun code c => (hexValue? c).map (16 * code + ·)) 0

/-- What a character behind a backslash stands for. -/
def escape? (c : Char) : Option Nat :=
  if c = '\x22' ∨ c = '\\' ∨ c = '/' then some c.toNat
  else if c = 'b' then some 0x08
  else if c = 'f' then some 0x0c
  else if c = 'n' then some 0x0a
  else if c = 'r' then some 0x0d
  else if c = 't' then some 0x09
  else none

/-- The codes of a quoted text up to its closing quote, and the rest. -/
def codes? : List Char → Option (List Nat × List Char)
  | [] => none
  | '\\' :: 'u' :: a :: b :: c :: d :: cs => do
      let code ← hexCode? [a, b, c, d]
      let (codes, rest) ← codes? cs
      return (code :: codes, rest)
  | '\\' :: c :: cs => do
      let code ← escape? c
      let (codes, rest) ← codes? cs
      return (code :: codes, rest)
  | c :: cs =>
      if c = '\x22' then some ([], cs)
      else if c = '\\' ∨ c.toNat < 0x20 then none
      else do
        let (codes, rest) ← codes? cs
        return (c.toNat :: codes, rest)

/-- The characters of codes, of which a high and a low surrogate make one. -/
def characters? : List Nat → Option (List Char)
  | [] => some []
  | [code] => if 0xd800 ≤ code ∧ code ≤ 0xdfff then none else some [Char.ofNat code]
  | high :: low :: codes =>
      if 0xd800 ≤ high ∧ high ≤ 0xdbff ∧ 0xdc00 ≤ low ∧ low ≤ 0xdfff then do
        let cs ← characters? codes
        return Char.ofNat (0x10000 + (high - 0xd800) * 0x400 + (low - 0xdc00)) :: cs
      else if 0xd800 ≤ high ∧ high ≤ 0xdfff then none
      else do
        let cs ← characters? (low :: codes)
        return Char.ofNat high :: cs

/-- A text behind its opening quote, and the rest. -/
def quoted? (cs : List Char) : Option (Option String × List Char) := do
  let (codes, rest) ← codes? cs
  return ((characters? codes).map String.ofList, rest)

/-- What stands behind at least one digit. -/
def digits? (cs : List Char) : Option (List Char) :=
  match cs.span Char.isDigit with
  | ([], _) => none
  | (_, rest) => some rest

/-- What stands behind the whole part of a number, which has no leading zeros. -/
def whole? : List Char → Option (List Char)
  | '0' :: cs => if (cs.head?.map Char.isDigit).getD false then none else some cs
  | cs => digits? cs

/-- What stands behind a fraction, if there is one. -/
def fraction? : List Char → Option (List Char)
  | '.' :: cs => digits? cs
  | cs => some cs

/-- What stands behind an exponent, if there is one. -/
def exponent? : List Char → Option (List Char)
  | [] => some []
  | c :: cs =>
      if c = 'e' ∨ c = 'E' then
        match cs with
        | '+' :: cs => digits? cs
        | '-' :: cs => digits? cs
        | cs => digits? cs
      else some (c :: cs)

/-- What stands behind a number. -/
def number? (cs : List Char) : Option (List Char) := do
  let unsigned := match cs with
    | '-' :: cs => cs
    | cs => cs
  exponent? (← fraction? (← whole? unsigned))

/-- What stands behind a word that the text starts with. -/
def word? (word : String) (cs : List Char) : Option (List Char) :=
  if word.toList.isPrefixOf cs then some (cs.drop word.length) else none

mutual

/-- A value, and the rest. The budget bounds the nesting and the length of what is read. -/
def value? : (budget : Nat) → List Char → Option (Raw × List Char)
  | 0, _ => none
  | budget + 1, cs =>
      match skipSpace cs with
      | '[' :: cs => match skipSpace cs with
        | ']' :: cs => some (.list [], cs)
        | cs => (items? budget cs).map fun (items, rest) => (.list items, rest)
      | '\x7b' :: cs => match skipSpace cs with
        | '\x7d' :: cs => some (.record [], cs)
        | cs => (fields? budget cs).map fun (fields, rest) => (.record fields, rest)
      | '\x22' :: cs => (quoted? cs).map fun (value, rest) => (.text value, rest)
      | cs =>
          ((word? "null" cs).map ((.null, ·))).orElse fun _ =>
          ((word? "true" cs).map ((.boolean true, ·))).orElse fun _ =>
          ((word? "false" cs).map ((.boolean false, ·))).orElse fun _ =>
          (number? cs).map ((.number, ·))

/-- One item or more, up to the closing bracket, and the rest. -/
def items? : (budget : Nat) → List Char → Option (List Raw × List Char)
  | 0, _ => none
  | budget + 1, cs => do
      let (item, cs) ← value? budget cs
      match skipSpace cs with
      | ']' :: cs => return ([item], cs)
      | ',' :: cs =>
          let (items, cs) ← items? budget cs
          return (item :: items, cs)
      | _ => none

/-- One field or more, up to the closing bracket, and the rest. -/
def fields? : (budget : Nat) → List Char → Option (List (Option String × Raw) × List Char)
  | 0, _ => none
  | budget + 1, cs =>
      match skipSpace cs with
      | '\x22' :: cs => do
          let (name, cs) ← quoted? cs
          match skipSpace cs with
          | ':' :: cs =>
              let (value, cs) ← value? budget cs
              match skipSpace cs with
              | '\x7d' :: cs => return ([(name, value)], cs)
              | ',' :: cs =>
                  let (fields, cs) ← fields? budget cs
                  return ((name, value) :: fields, cs)
              | _ => none
          | _ => none
      | _ => none

end

/-- Reads a whole text as one value. Every level and every part takes a character, so the length of
the text is budget enough. -/
def read? (text : String) : Option Raw := do
  let cs := text.toList
  let (value, rest) ← value? (cs.length + 1) cs
  if skipSpace rest = [] then some value else none

end Raw
end Exclaim.Json
