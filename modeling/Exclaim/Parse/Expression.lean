import Exclaim.Grammar.Stock
import Exclaim.Number.Numeral
import Exclaim.Parse.Basic

/-! Reading expressions by binding power. Each rule is given the parser for its inner expressions;
`expression` ties the knot with a budget of nested calls that no input uses up. -/
namespace Exclaim.Parse

/-- A parser for expressions whose operators all bind tighter than a limit. -/
abbrev Inner := Power → Parse Expression

def primary : Parse Expression := do
  let t ← expect [.number, .string, .identifier]
  match t.kind with
  | .number =>
      match readNumber? t.value with
      | some value => return .number value
      | none => throw (.invalidNumber t)
  | .string => return .string t.value
  | _ => return .symbol t.value

def grouping (inner : Inner) : Parse Expression := do
  discard <| expect [.openParen]
  let e ← inner .lowest
  discard <| expect [.closeParen]
  return e

def unary (inner : Inner) : Parse Expression := do
  let operator ← expect [.subtract, .logicalNot, .bitwiseNot]
  return .unary operator (← inner .unary)

/-- The reference that an expression has to be in a context. -/
def reference (context : ShapeContext) (span : Span) (e : Expression) : Parse Reference :=
  match Reference.ofExpression? e with
  | some r => return r
  | none => throw (.misshapen context e span)

def stateOperator : Parse Token := do
  if ← checkWord Grammar.stateWords then expectWord Grammar.stateWords
  else expect [.plusPlus, .minusMinus]

def state (inner : Inner) : Parse Expression := do
  let operator ← stateOperator
  let argument ← inner .unary
  return .state operator (← reference .stateArgument operator.span argument)

/-- How an expression starts. -/
def opening (inner : Inner) : OpeningRule → Parse Expression
  | .primary => primary
  | .grouping => grouping inner
  | .unary => unary inner
  | .state => state inner

/-- The operands of one operator bind tighter on the right, so equal powers group to the left. -/
def binary (inner : Inner) (left : Expression) (power : Power) : Parse Expression := do
  let operator ← advance 1
  return .binary left operator (← inner power)

/-- A text without one `=` at its end. -/
def withoutEqualSign (value : String) : String :=
  if value.toList.getLast? = some '=' then String.ofList value.toList.dropLast else value

/-- The operator that a combined assignment applies, as a token of its own. -/
def combinedOperator (t : Token) (operation : TokenKind) : Token :=
  let value := withoutEqualSign t.value
  { kind := operation, value, span := ⟨t.span.start, value.utf8ByteSize⟩, line := t.line }

/-- `target = value`; `target op= value` stands for `target = target op value`. -/
def assignment (inner : Inner) (left : Expression) : Parse Expression := do
  let target ← reference .assignmentTarget (← current).span left
  let t ← expect [.combinedAssignment, .equalSign]
  let value ← inner .assignment
  match t.operation with
  | some operation =>
      let operator := combinedOperator t operation
      return .assignment target (.binary target.toExpression operator value)
  | none => return .assignment target value

/-- `object.property` or `object[property]`. -/
def member (inner : Inner) (left : Expression) (power : Power) : Parse Expression := do
  if (← current).kind = .dot then
    let dot ← expect [.dot]
    let property ← inner power
    match property with
    | .symbol _ | .number _ => return .member left property false
    | _ => throw (.misshapen .dotProperty property dot.span)
  else
    discard <| expect [.openBracket]
    let property ← inner .lowest
    discard <| expect [.closeBracket]
    return .member left property true

/-- The comma before every item of a list but the first. -/
def separator (isFirst : Bool) : Parse Unit :=
  if isFirst then pure () else discard <| expect [.comma]

/-- Arguments up to a closing parenthesis, with commas between them. -/
def arguments (inner : Inner) : (budget : Nat) → (isFirst : Bool) → Parse (List Expression)
  | 0, _ => cutOff
  | budget + 1, isFirst => do
      skipLayout
      if (← current).kind = .closeParen then return []
      separator isFirst
      let argument ← inner .lowest
      return argument :: (← arguments inner budget false)

def call (inner : Inner) (budget : Nat) (left : Expression) : Parse Expression := do
  discard <| expect [.openParen]
  let args ← arguments inner budget true
  discard <| expect [.closeParen]
  return .call left args

/-- How an expression goes on behind its left part. -/
def joining (inner : Inner) (budget : Nat) (left : Expression) (power : Power) :
    JoiningRule → Parse Expression
  | .binary => binary inner left power
  | .assignment => assignment inner left
  | .member => member inner left power
  | .call => call inner budget left

/-- Extends an expression as long as what follows binds tighter than the limit. -/
def climb (g : Grammar) (inner : Inner) (limit : Power) :
    (budget : Nat) → Expression → Parse Expression
  | 0, _ => cutOff
  | budget + 1, left => do
      skipLayout
      let c ← cursor
      match g.joining? c.current with
      | some (rule, power) =>
          if limit < power then
            note .trace s!"led {c.current.render} at {c.position}"
            let left ← joining inner budget left power rule
            climb g inner limit budget left
          else return left
      | none => return left

/-- An expression whose operators all bind tighter than the limit. -/
def expression (g : Grammar) : (budget : Nat) → Inner
  | 0, _ => cutOff
  | budget + 1, limit => do
      skipLayout
      let c ← cursor
      match g.opening? c.current with
      | none => noOpening
      | some (rule, _) =>
          note .trace s!"nud {c.current.render} at {c.position}"
          let left ← opening (expression g budget) rule
          climb g (expression g budget) limit budget left

/-- More nested calls than the tokens left can cause. -/
def budget : Parse Nat := return (← cursor).remaining + 2

end Parse

/-- Reads an expression whose operators all bind tighter than the limit. -/
def parseExpression (g : Grammar) (limit : Power) : Parse Expression := do
  Parse.expression g (← Parse.budget) limit

end Exclaim
