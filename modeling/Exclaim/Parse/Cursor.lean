import Exclaim.Token.Basic

/-! A place in a sequence of tokens. -/
namespace Exclaim

/-- A sequence of tokens that ends with the end of the file, and a position in it. Behind its end
there is only that last token, again and again. -/
structure Cursor where
  body : List Token
  last : Token
  last_kind : last.kind = .endOfFile
  position : Nat := 0

namespace Cursor

/-- The start of a token sequence. The end of the file is added when it is missing. -/
def ofTokens (tokens : List Token) : Cursor :=
  match tokens.getLast? with
  | none => { body := [], last := Token.endOfFile 0 1, last_kind := rfl }
  | some t =>
      if h : t.kind = .endOfFile then { body := tokens.dropLast, last := t, last_kind := h }
      else { body := tokens, last := Token.endOfFile t.span.stop t.line, last_kind := rfl }

/-- The number of tokens, the last one included. -/
def size (c : Cursor) : Nat := c.body.length + 1

/-- The tokens from the position on, except the last one. -/
def upcoming (c : Cursor) : List Token := c.body.drop c.position

def tokenAt (c : Cursor) (index : Nat) : Token := c.body[index]?.getD c.last

def current (c : Cursor) : Token := c.tokenAt c.position

/-- The token some places further or back, from the first one to the last one. -/
def atOffset (c : Cursor) (offset : Int) : Token := c.tokenAt ((c.position : Int) + offset).toNat

/-- The cursor some places further or back, but not before the first token. -/
def moveBy (c : Cursor) (offset : Int) : Cursor :=
  { c with position := ((c.position : Int) + offset).toNat }

/-- How many tokens are left, the current one included. -/
def remaining (c : Cursor) : Nat := c.size - c.position

/-- Whether there is a current token other than an end of file. -/
def hasToken (c : Cursor) : Bool := c.position < c.size && c.current.kind != .endOfFile

/-- How many tokens of ignored kinds stand before the next one that counts. An end of file always
counts. -/
def ignoredCount (c : Cursor) (ignored : List TokenKind) : Nat :=
  (c.upcoming.takeWhile fun t => t.kind != .endOfFile && ignored.contains t.kind).length

/-- The cursor behind the layout that it stands before. -/
def skipLayout (c : Cursor) : Cursor :=
  { c with position := c.position + (c.upcoming.takeWhile (·.kind.isIgnorable)).length }

end Cursor
end Exclaim
