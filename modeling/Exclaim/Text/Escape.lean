/-! Characters made visible. -/
namespace Exclaim

/-- A character below U+0080 as it is shown to the user: control characters by name or code, quotes
and backslashes behind a backslash, others as they are. -/
def escapeChar (c : Char) : String :=
  if c = '\x00' then "\\0"
  else if c = '\t' then "\\t"
  else if c = '\r' then "\\r"
  else if c = '\n' then "\\n"
  else if c = '\\' ∨ c = '\x27' ∨ c = '\x22' then String.ofList ['\\', c]
  else if c.toNat < 0x20 ∨ c.toNat = 0x7f then
    String.ofList ("\\u\x7b".toList ++ Nat.toDigits 16 c.toNat ++ ['\x7d'])
  else String.ofList [c]

/-- At least four upper-case hexadecimal digits. -/
def codePoint (c : Char) : String :=
  let digits := (Nat.toDigits 16 c.toNat).map Char.toUpper
  String.ofList (List.replicate (4 - digits.length) '0' ++ digits)

end Exclaim
