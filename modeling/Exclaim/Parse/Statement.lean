import Exclaim.Parse.Expression

/-! Reading statements and whole programs. -/
namespace Exclaim

/-- Reads an expression and the end of its statement. -/
def parseExpressionStatement (g : Grammar) : Parse Expression := do
  let e ← parseExpression g .lowest
  discard <| Parse.expect Parse.terminators
  return e

namespace Parse

def endOfFile : Parse Statement := do
  discard <| expect [.endOfFile]
  return .endOfFile

/-- How long a binding lives: a number or `Infinity`. -/
def duration : Parse Float := do
  if ← checkWord ["Infinity"] then
    discard <| expectWord ["Infinity"]
    return Binary.infinity false
  else
    let t ← expect [.number]
    match readNumber? t.value with
    | some value => return value
    | none => throw (.invalidNumber t)

/-- Seconds when `s` follows, else lines. -/
def lifetimeUnit : Parse LifetimeUnit := do
  if ← checkWord ["s"] then
    discard <| expectWord ["s"]
    return .seconds
  else return .lines

/-- A lifetime between `<` and `>`, when there is one: a count of lines, or of seconds behind which
stands `s`, or `Infinity`. -/
def lifetime? : Parse (Option Lifetime) := do
  if ← check [.smaller] then
    discard <| expect [.smaller]
    let duration ← duration
    let unit ← lifetimeUnit
    discard <| expect [.greater]
    return some { duration, unit }
  else return none

/-- `const` or `var`; true for `var`. -/
def modifier : Parse Bool := return (← expectWord ["const", "var"]).value == "var"

/-- The value behind an equal sign, when there is one. -/
def initializer? (g : Grammar) : Parse (Option Expression) := do
  if ← check [.equalSign] then
    discard <| expect [.equalSign]
    some <$> parseExpression g .lowest
  else return none

/-- `const|var const|var name <lifetime> = value!`, where lifetime and value may be missing. -/
def variableDeclaration (g : Grammar) : Parse Statement := do
  let canReassign ← modifier
  let canMutate ← modifier
  let identifier ← expect [.identifier]
  let lifetime ← lifetime?
  let value ← initializer? g
  discard <| expect terminators
  return .variableDeclaration identifier.value { canReassign, canMutate } value lifetime

/-- Parameters up to a closing parenthesis, with commas between them. -/
def parameters : (budget : Nat) → (isFirst : Bool) → Parse (List Parameter)
  | 0, _ => cutOff
  | budget + 1, isFirst => do
      skipLayout
      if (← current).kind = .closeParen then return []
      separator isFirst
      let identifier ← expect [.identifier]
      let lifetime ← lifetime?
      return { identifier, lifetime } :: (← parameters budget false)

/-- Statements up to the end of a block or of the file. -/
def statements (statement : Parse Statement) : (budget : Nat) → Parse Block
  | 0 => cutOff
  | budget + 1 => do
      let s ← statement
      if s.isSentinel then return []
      return s :: (← statements statement budget)

/-- Statements between curly brackets. -/
def block (statement : Parse Statement) : Parse Block := do
  discard <| expect [.openCurly]
  let body ← statements statement (← budget)
  discard <| expect [.closeCurly]
  return body

/-- Whether `async` stands here; if so, it is passed. -/
def asyncMark : Parse Bool := do
  if ← checkWord ["async"] then
    discard <| expectWord ["async"]
    return true
  else return false

/-- A block, or an expression with the end of its statement. -/
def functionBody (g : Grammar) (statement : Parse Statement) : Parse FunctionBody := do
  if ← check [.openCurly] then FunctionBody.block <$> block statement
  else FunctionBody.expression <$> parseExpressionStatement g

/-- `async function name(parameters) => body`, where `async` may be missing. -/
def functionDeclaration (g : Grammar) (statement : Parse Statement) : Parse Statement := do
  let isAsync ← asyncMark
  discard <| expectWord ["function"]
  let identifier ← expect [.identifier]
  discard <| expect [.openParen]
  let params ← parameters (← budget) true
  discard <| expect [.closeParen]
  discard <| expect [.arrow]
  let body ← functionBody g statement
  return .functionDeclaration identifier params isAsync body

def returning (g : Grammar) : Parse Statement := do
  discard <| expectWord ["return"]
  let argument ← parseExpression g .lowest
  discard <| expect terminators
  return .returning argument

/-- A word, a test in parentheses and a block. -/
def guarded (g : Grammar) (statement : Parse Statement) (word : String) :
    Parse (Expression × Block) := do
  discard <| expectWord [word]
  discard <| expect [.openParen]
  let test ← parseExpression g .lowest
  discard <| expect [.closeParen]
  return (test, ← block statement)

/-- What stands behind `else`, when there is one: another test or a block. -/
def alternate (statement : Parse Statement) (conditional : Parse Conditional) :
    Parse Alternate := do
  if ← checkWord ["else"] then
    discard <| expectWord ["else"]
    if ← checkWord ["if"] then Alternate.conditional <$> conditional
    else Alternate.block <$> block statement
  else return .none

/-- `if (test) { … }` and what else is to be done. -/
def conditional (g : Grammar) (statement : Parse Statement) : (budget : Nat) → Parse Conditional
  | 0 => cutOff
  | budget + 1 => do
      let (test, consequent) ← guarded g statement "if"
      let alternate ← alternate statement (conditional g statement budget)
      return .mk test consequent alternate

def when (g : Grammar) (statement : Parse Statement) : Parse Statement := do
  let (test, consequent) ← guarded g statement "when"
  return .when test consequent

/-- How a statement with a rule of its own is read. -/
def ruled (g : Grammar) (statement : Parse Statement) : StatementRule → Parse Statement
  | .variableDeclaration => variableDeclaration g
  | .functionDeclaration => functionDeclaration g statement
  | .returning => returning g
  | .conditional => return .conditional (← conditional g statement (← budget))
  | .when => when g statement
  | .block => return .block (← block statement)
  | .endOfFile => endOfFile

/-- A statement. A closing curly bracket is left in place and marks the end of a block. -/
def statement (g : Grammar) : (budget : Nat) → Parse Statement
  | 0 => cutOff
  | budget + 1 => do
      skipLayout
      let t ← current
      match g.statement? t with
      | some rule => ruled g (statement g budget) rule
      | none =>
          if t.kind = .closeCurly then return .endOfBlock
          return .expression (← parseExpressionStatement g)

end Parse

/-- Reads a statement. -/
def parseStatement (g : Grammar) : Parse Statement := do
  Parse.statement g (← Parse.budget)

/-- Reads statements between curly brackets. -/
def parseBlock (g : Grammar) : Parse Block := Parse.block (parseStatement g)

namespace Parse

/-- Statements up to the end of the file. -/
def programBody (g : Grammar) : (budget : Nat) → Parse Block
  | 0 => cutOff
  | budget + 1 => do
      match ← parseStatement g with
      | .endOfFile => return []
      | .endOfBlock => throw (.strayCloseBrace (← current))
      | s => return s :: (← programBody g budget)

end Parse

/-- Reads statements up to the end of the file. -/
def parseProgram (g : Grammar) : Parse Block := do
  let body ← Parse.programBody g (← Parse.budget)
  Parse.note .debug s!"parsed {body.length} top-level statements"
  return body

/-- The state of a parse that starts. -/
def ParseState.ofTokens (tokens : List Token) : ParseState := { cursor := Cursor.ofTokens tokens }

/-- The program that tokens spell. -/
def parseTokens (g : Grammar) (tokens : List Token) : Except ParseError Block :=
  ((parseProgram g).run (ParseState.ofTokens tokens)).1

/-- The program that a source spells. -/
def parseSource (source : String) : Except SourceError Block :=
  match tokenize source with
  | .error e => .error (.scan e)
  | .ok tokens => (parseTokens .stock tokens).mapError .parse

end Exclaim
