import Exclaim.Text.Span
import Exclaim.Token.Kind

/-! Tokens. -/
namespace Exclaim

/-- A piece of source text with its category. -/
structure Token where
  kind : TokenKind
  /-- The text, without the quotes of a string; a run of spaces has its length here. -/
  value : String
  /-- The operator that a combined assignment applies. -/
  operation : Option TokenKind := none
  span : Span
  /-- Counted from one, and unbounded like the span; a word of 32 bits holds the same number as long
  as the source has less than 4 GiB. -/
  line : Nat
deriving DecidableEq, Repr

namespace Token

/-- The token behind the last one of a text. -/
def endOfFile (position line : Nat) : Token :=
  { kind := .endOfFile, value := "EOF", span := .empty position, line }

/-- Whether the token is an identifier spelled exactly `word`. -/
def isWord (t : Token) (word : String) : Bool := t.kind == .identifier && t.value == word

/-- The kind with, where it is telling, the operation and the value. -/
def render (t : Token) : String :=
  match t.kind, t.operation with
  | .combinedAssignment, some operation => s!"{t.kind.name}<{operation.name}>({t.value})"
  | .identifier, _ | .number, _ | .string, _ => s!"{t.kind.name}({t.value})"
  | _, _ => s!"{t.kind.name}()"

end Token
end Exclaim
