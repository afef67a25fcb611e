import Exclaim.Diagnostic.Catalogue
import Exclaim.Log
import Exclaim.Source.Piece
import Exclaim.Text.Escape
import Exclaim.Text.IdentifierClass
import Exclaim.Token.Basic

/-! Reading the tokens of a source. -/
namespace Exclaim

namespace Piece

/-- The value of the token that a piece is. -/
def value (p : Piece) : String :=
  match p.form with
  | .quoted true => String.ofList p.tail.dropLast
  | .quoted false => String.ofList p.tail
  | .spaces => toString p.text.length
  | .lineBreak => "\n"
  | _ => String.ofList p.text

/-- The kind and the operation of the token that a piece is; none for what is skipped. -/
def kind? (p : Piece) : Option (TokenKind × Option TokenKind) :=
  match p.form with
  | .blank | .lineComment | .blockComment _ => none
  | .lexeme kind operation => some (kind, operation)
  | .quoted _ => some (.string, none)
  | .spaces => some (.whiteSpace, none)
  | .lineBreak => some (.lineBreak, none)

/-- How many lines a piece ends. Each form has a count of its own: a line comment ends the line that
it stands on if there is a line ending behind it, a block comment and a text in quotes end those of
the text that they enclose. -/
def linesEnded (p : Piece) : Nat :=
  match p.form with
  | .blank => if p.head = '\n' then 1 else 0
  | .lineComment => if p.tail.any fun c => c == '\r' || c == '\n' then 1 else 0
  | .blockComment true => lineEndings p.tail.tail.dropLast.dropLast
  | .blockComment false => lineEndings p.tail.tail
  | .quoted _ => lineEndings p.value.toList
  | .lineBreak => 1
  | .lexeme .. | .spaces => 0

/-- The line that a piece ends on when it starts on `line`. -/
def nextLine (p : Piece) (line : Nat) : Nat := line + p.linesEnded

/-- The token that a piece is when it starts at byte `offset` on `line`. A token belongs to the
line that it ends on. -/
def token? (p : Piece) (offset line : Nat) : Option Token :=
  p.kind?.map fun (kind, operation) =>
    { kind, operation
      value := p.value
      span := ⟨offset, byteSize p.text⟩
      line := p.nextLine line }

section Warnings
variable (continues : Char → Bool)

/-- The characters beyond ASCII that an identifier may not go on with, with their byte offsets. -/
def strangers (offset : Nat) : List Char → List (Char × Nat)
  | [] => []
  | c :: cs =>
      let rest := strangers (offset + c.utf8Size) cs
      if 0x7f < c.toNat && !continues c then (c, offset) :: rest else rest

/-- What is to be warned of in a piece that starts at byte `offset`. -/
def warnings (p : Piece) (offset : Nat) : List Diagnostic :=
  let whole := Span.mk offset (byteSize p.text)
  match p.form with
  | .lexeme .identifier _ => (strangers continues offset p.text).map fun (c, offset) =>
      Message.nonStandardCharacter.raise [String.ofList [c], codePoint c]
        (some ⟨offset, c.utf8Size⟩)
  | .quoted false => [Message.unterminatedString.raise [] (some whole)]
  | .blockComment false => [Message.unterminatedComment.raise [] (some whole)]
  | _ => []

/-- What is noted of a piece: its strange characters, then the token. -/
def records (p : Piece) (offset line : Nat) : List Record :=
  let strange := match p.form with
    | .lexeme .identifier _ => (strangers continues offset p.text).map fun (c, offset) =>
        let text := s!"Weird character found, code: {c.toNat} at position {offset}"
        { level := .warn, target := "scanner", message := text }
    | _ => []
  strange ++ (p.token? offset line).toList.map fun t =>
    { level := .trace, target := "scanner", message := t.render }

/-- The warnings of pieces that stand one behind the other. -/
def allWarnings (offset : Nat) : List Piece → List Diagnostic
  | [] => []
  | p :: ps => p.warnings continues offset ++ allWarnings (offset + byteSize p.text) ps

/-- The notes of pieces that stand one behind the other. -/
def allRecords (offset line : Nat) : List Piece → List Record
  | [] => []
  | p :: ps =>
      p.records continues offset line ++
        allRecords (offset + byteSize p.text) (p.nextLine line) ps

end Warnings

/-- The tokens of pieces that stand one behind the other. -/
def tokens (offset line : Nat) : List Piece → List Token
  | [] => []
  | p :: ps =>
      (p.token? offset line).toList ++ tokens (offset + byteSize p.text) (p.nextLine line) ps

/-- The text of pieces that stand one behind the other. -/
def joined (ps : List Piece) : List Char := ps.flatMap text

/-- The line behind the last piece. -/
def lastLine (line : Nat) (ps : List Piece) : Nat := ps.foldl (fun line p => p.nextLine line) line

end Piece

/-- The failure to read a source: a character that starts no piece. -/
structure ScanError where
  character : Char
  offset : Nat
  line : Nat
deriving DecidableEq, Repr

namespace ScanError

/-- The code point of the character. -/
def code (e : ScanError) : Nat := e.character.toNat

def message (e : ScanError) : String :=
  s!"Unrecognized character found in source: {e.code} at position {e.offset}"

def span (e : ScanError) : Span := ⟨e.offset, e.character.utf8Size⟩

def toDiagnostic (e : ScanError) : Diagnostic :=
  Message.invalidCharacter.raise [escapeChar e.character, toString e.code]
    (some e.span)

end ScanError

/-- A source that is being read. -/
structure Scanner where
  /-- Which characters beyond ASCII an identifier may go on with. -/
  continues : Char → Bool
  rest : List Char
  offset : Nat := 0
  line : Nat := 1
  /-- Tokens found but not yet handed out. -/
  held : List Token := []
  warnings : List Diagnostic := []
  log : List Record := []

namespace Scanner

/-- The start of a source. The class of characters is that of the Unicode standard unless another one
is given. -/
def ofString (source : String) (continues : Char → Bool := IdentifierClass.continues) : Scanner :=
  { continues, rest := source.toList }

/-- The scanner moved over pieces that its rest starts with. -/
def take (s : Scanner) (ps : List Piece) (rest : List Char) : Scanner where
  continues := s.continues
  rest := rest
  offset := s.offset + byteSize (Piece.joined ps)
  line := Piece.lastLine s.line ps
  held := s.held ++ Piece.tokens s.offset s.line ps
  warnings := s.warnings ++ Piece.allWarnings s.continues s.offset ps
  log := s.log ++ Piece.allRecords s.continues s.offset s.line ps

/-- Hands out all tokens up to the end of the source, the end itself included. At a character that
starts no piece the scanner stops and keeps what it found. -/
def tokenize (s : Scanner) : Except ScanError (List Token) × Scanner :=
  let (ps, rest) := Piece.split s.rest
  let s := s.take ps rest
  match rest with
  | c :: _ => (.error ⟨c, s.offset, s.line⟩, s)
  | [] =>
      let last := Token.endOfFile s.offset s.line
      let tokens := s.held ++ [last]
      let notes := [
        { level := .trace, target := "scanner", message := last.render },
        { level := .debug, target := "scanner",
          message := s!"scanned {tokens.length} tokens over {s.line} lines" }]
      (.ok tokens, { s with held := [], log := s.log ++ notes })

/-- The warnings so far, which the scanner then forgets. -/
def takeWarnings (s : Scanner) : List Diagnostic × Scanner :=
  (s.warnings, { s with warnings := [] })

end Scanner

/-- The tokens of a source. -/
def tokenize (source : String) : Except ScanError (List Token) :=
  (Scanner.ofString source).tokenize.1

end Exclaim
