import Exclaim.Text.Lines
import Exclaim.Token.Operator

/-! Cutting a source into pieces: tokens, comments and blanks. What a piece is depends on the text
from its first character on, and on nothing before it. -/
namespace Exclaim

/-- What a piece of source is. -/
inductive Form where
  /-- A tab or a line feed, which are skipped. -/
  | blank
  /-- A comment up to the end of its line. -/
  | lineComment
  | blockComment (closed : Bool)
  /-- A token whose value is its text. -/
  | lexeme (kind : TokenKind) (operation : Option TokenKind)
  /-- A text in quotes. -/
  | quoted (closed : Bool)
  | spaces
  | lineBreak
deriving DecidableEq, Repr

/-- A piece of source. It has at least one character. -/
structure Piece where
  head : Char
  tail : List Char
  form : Form
deriving DecidableEq, Repr

namespace Piece

def text (p : Piece) : List Char := p.head :: p.tail

/-- Letters of the Latin alphabet and everything beyond ASCII make up words, except the inverted
exclamation mark. -/
def isWordChar (c : Char) : Bool := c ≠ '¡' && (0x7f < c.toNat || c.isAlpha)

/-- The symbols that are no operators. Decrement shares the kind of increment. -/
def symbols : List (String × TokenKind) := [
  ("(", .openParen), (")", .closeParen), ("\x7b", .openCurly), ("\x7d", .closeCurly),
  ("[", .openBracket), ("]", .closeBracket), ("=>", .arrow), ("!", .exclamation),
  ("?", .question), ("¡", .invertedExclamation), ("++", .plusPlus), ("--", .plusPlus),
  (":", .colon), (",", .comma), (".", .dot)]

/-- The symbol that a text starts with. -/
def symbol? (cs : List Char) : Option (String × TokenKind) :=
  symbols.find? fun entry => entry.1.toList.isPrefixOf cs

/-- The line ending that a text starts with, if any. -/
def lineEnding : List Char → List Char
  | '\r' :: '\n' :: _ => ['\r', '\n']
  | '\r' :: _ => ['\r']
  | '\n' :: _ => ['\n']
  | _ => []

/-- A text up to its first line ending, that included. -/
def throughLineEnding (cs : List Char) : List Char :=
  let isEnding (c : Char) := c == '\r' || c == '\n'
  cs.takeWhile (!isEnding ·) ++ lineEnding (cs.dropWhile (!isEnding ·))

/-- A text up to the first end of a block comment, that included, and whether there is one. -/
def throughCommentEnd : List Char → List Char × Bool
  | [] => ([], false)
  | '*' :: '/' :: _ => (['*', '/'], true)
  | c :: cs =>
      let rest := throughCommentEnd cs
      (c :: rest.1, rest.2)

/-- A text up to a closing quote, that included, and whether there is one. -/
def throughQuote (quote : Char) : List Char → List Char × Bool
  | [] => ([], false)
  | c :: cs =>
      if c = quote then ([c], true)
      else
        let rest := throughQuote quote cs
        (c :: rest.1, rest.2)

/-- The operator that a text starts with. One that combines takes a following `=` along. -/
def operator? (cs : List Char) : Option (List Char × Form) :=
  (Operator.first? cs).map fun (spelling, kind) =>
    if kind.combines && (cs.drop spelling.toList.length).head? == some '=' then
      (spelling.toList ++ ['='], .lexeme .combinedAssignment (some kind))
    else (spelling.toList, .lexeme kind none)

/-- The piece that starts with `c`; none when no piece does. -/
def first? (c : Char) (cs : List Char) : Option Piece :=
  if c = '/' ∧ cs.head? = some '/' then some ⟨c, throughLineEnding cs, .lineComment⟩
  else if c = '/' ∧ cs.head? = some '*' then
    let (body, closed) := throughCommentEnd cs.tail
    some ⟨c, '*' :: body, .blockComment closed⟩
  else if c = '\x27' ∨ c = '\x22' then
    let (body, closed) := throughQuote c cs
    some ⟨c, body, .quoted closed⟩
  else if c.isDigit then some ⟨c, cs.takeWhile Char.isDigit, .lexeme .number none⟩
  else if let some (spelling, kind) := symbol? (c :: cs) then
    some ⟨c, spelling.toList.tail, .lexeme kind none⟩
  else if let some (text, form) := operator? (c :: cs) then some ⟨c, text.tail, form⟩
  else if c = ' ' then some ⟨c, cs.takeWhile (· == ' '), .spaces⟩
  else if c = '\r' then some ⟨c, if cs.head? = some '\n' then ['\n'] else [], .lineBreak⟩
  else if isWordChar c then some ⟨c, cs.takeWhile isWordChar, .lexeme .identifier none⟩
  else if c = '\n' ∨ c = '\t' then some ⟨c, [], .blank⟩
  else none

/-- The pieces of a source, one behind the other, and the text that starts no piece. -/
def split : List Char → List Piece × List Char
  | [] => ([], [])
  | c :: cs =>
      match first? c cs with
      | none => ([], c :: cs)
      | some p =>
          let rest := split (cs.drop p.tail.length)
          (p :: rest.1, rest.2)
termination_by cs => cs.length
decreasing_by simp only [List.length_drop, List.length_cons]; omega

end Piece
end Exclaim
