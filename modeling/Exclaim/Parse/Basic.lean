import Exclaim.Log
import Exclaim.Parse.Cursor
import Exclaim.Parse.Error

/-! Parsing actions: they move a cursor and may fail. The cursor stays where the failure was. -/
namespace Exclaim

/-- The cursor of a parse, and what was noted on the way. -/
structure ParseState where
  cursor : Cursor
  log : Array Record := #[]
  /-- Whether a nested call was cut off because its budget was used up. -/
  overrun : Bool := false

abbrev Parse := ExceptT ParseError (StateM ParseState)

namespace Parse

def note (level : LogLevel) (message : String) : Parse Unit :=
  modify fun s => { s with log := s.log.push { level, target := "parser", message } }

def cursor : Parse Cursor := return (← get).cursor

def setCursor (c : Cursor) : Parse Unit := modify fun s => { s with cursor := c }

def current : Parse Token := return (← cursor).current

/-- The current token; the cursor moves by `offset`. -/
def advance (offset : Int) : Parse Token := do
  let c ← cursor
  setCursor (c.moveBy offset)
  return c.current

def skipLayout : Parse Unit := do
  let c ← cursor
  setCursor c.skipLayout

/-- What the next token that counts has to be. -/
inductive Expected where
  | kinds (kinds : List TokenKind)
  | words (words : List String)

namespace Expected

def isMet (expected : Expected) (t : Token) : Bool :=
  match expected with
  | kinds ks => ks.contains t.kind
  | words ws => t.kind == .identifier && ws.contains t.value

def mismatch (expected : Expected) (found : Token) : ParseError :=
  match expected with
  | kinds ks => .unexpectedKind ks found
  | words ws => .unexpectedWord ws found

end Expected

/-- How an expectation is handled. -/
structure ExpectOptions where
  /-- The kinds that are passed over. -/
  ignored : List TokenKind := [.whiteSpace, .lineBreak]
  /-- Whether the cursor moves behind the token. -/
  advance : Bool := true
  /-- Whether a mismatch is a failure. -/
  fatal : Bool := true

/-- Neither moves the cursor nor fails. -/
def ExpectOptions.probe : ExpectOptions := { advance := false, fatal := false }

/-- Looks at the next token that counts, and says whether it is the expected one. -/
def expectWith (expected : Expected) (options : ExpectOptions) : Parse (Bool × Token) := do
  let c ← cursor
  let skipped := c.ignoredCount options.ignored
  let t := c.tokenAt (c.position + skipped)
  let met := expected.isMet t
  if !met then
    let error := expected.mismatch t
    if options.fatal then throw error
    note .debug s!"{error.message} (line {t.line})"
  if options.advance then setCursor { c with position := c.position + skipped + 1 }
  return (met, t)

/-- Takes the next token that counts, which must be of one of these kinds. -/
def expect (kinds : List TokenKind) : Parse Token := return (← expectWith (.kinds kinds) {}).2

/-- Takes the next token that counts, which must be one of these words. -/
def expectWord (words : List String) : Parse Token := return (← expectWith (.words words) {}).2

/-- Whether the next token that counts is of one of these kinds. -/
def check (kinds : List TokenKind) : Parse Bool := return (← expectWith (.kinds kinds) .probe).1

/-- Whether the next token that counts is one of these words. -/
def checkWord (words : List String) : Parse Bool := return (← expectWith (.words words) .probe).1

/-- The kinds that end a statement. -/
def terminators : List TokenKind := [.exclamation, .invertedExclamation, .question]

/-- The failure to find the start of an expression at the cursor. -/
def noOpening {α : Type} : Parse α := do
  let c ← cursor
  throw (.noOpening c.current c.position)

/-- The end of a nested call that has no budget left, which no parse comes to. -/
def cutOff {α : Type} : Parse α := do
  modify fun s => { s with overrun := true }
  noOpening

end Parse
end Exclaim
