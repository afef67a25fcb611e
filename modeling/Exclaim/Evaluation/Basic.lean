import Exclaim.Evaluation.Error
import Exclaim.Evaluation.Scope
import Exclaim.Log
import Exclaim.Value.Operation

/-! Evaluation: a table says how the nodes of each kind are evaluated. -/
namespace Exclaim

/-- How a node is evaluated. -/
inductive EvalRule where
  | expressionStatement
  | block
  | variableDeclaration
  | conditional
  | assignment
  | unary
  | binary
  | number
  | string
  | symbol
  /-- Reports the node and gives null. -/
  | underConstruction
  /-- Gives a value, whatever the node. -/
  | constant (value : Value)
  /-- Fails as if there were no rule. -/
  | reject

/-- Rules by the kind of node, the newest first. -/
abbrev EvalTable := List (NodeKind × EvalRule)

namespace EvalTable

def rule? (t : EvalTable) (kind : NodeKind) : Option EvalRule := List.lookup kind t

def register (t : EvalTable) (kind : NodeKind) (rule : EvalRule) : EvalTable := (kind, rule) :: t

/-- The rules of the language. Members, objects and arrays have none yet. -/
def stock : EvalTable := [
  (.expressionStatement, .expressionStatement),
  (.blockStatement, .block),
  (.variableDeclarationStatement, .variableDeclaration),
  (.functionDeclarationStatement, .underConstruction),
  (.returnStatement, .underConstruction),
  (.ifStatement, .conditional),
  (.whenStatement, .underConstruction),
  (.assignmentExpression, .assignment),
  (.prefixExpression, .unary),
  (.stateExpression, .underConstruction),
  (.binaryExpression, .binary),
  (.numberExpression, .number),
  (.stringExpression, .string),
  (.symbolExpression, .symbol),
  (.callExpression, .underConstruction),
  (.eofStatement, .underConstruction),
  (.endOfBlockStatement, .underConstruction)]

end EvalTable

/-- The scopes of an evaluation, the kinds of nodes it reported, and what it noted. -/
structure EvalState where
  scopes : ScopeChain := .global
  reports : List NodeKind := []
  log : Array Record := #[]

/-- The findings that report nodes under construction. -/
def EvalState.diagnostics (s : EvalState) : List Diagnostic :=
  s.reports.map fun kind => Message.nodeUnderConstruction.raise [kind.name]

abbrev Eval := ExceptT EvalError (StateM EvalState)

namespace Eval

def note (level : LogLevel) (message : String) : Eval Unit :=
  modify fun s => { s with log := s.log.push { level, target := "evaluator", message } }

/-- Notes that nodes of a kind are not supported yet. -/
def report (kind : NodeKind) : Eval Unit := do
  note .debug s!"{kind.name} is under construction"
  modify fun s => { s with reports := s.reports ++ [kind] }

def declare (name : String) (binding : Binding) : Eval Value := do
  let s ← get
  match s.scopes.declare? name binding with
  | none => throw (.alreadyDeclared name)
  | some scopes =>
      note .debug s!"declare {name} = {binding.value.render}"
      modify fun s => { s with scopes }
      return binding.value

def assign (name : String) (value : Value) : Eval Value := do
  let s ← get
  match s.scopes.assign? name value with
  | none => throw (.unresolved name)
  | some scopes =>
      set { s with scopes }
      return value

def lookup (name : String) : Eval Value := do
  match (← get).scopes.lookup? name with
  | none => throw (.unresolved name)
  | some value => return value

/-- The rule for nodes of a kind. -/
def ruleFor (t : EvalTable) (kind : NodeKind) : Eval EvalRule := do
  match t.rule? kind with
  | none => throw (.unhandled kind)
  | some rule =>
      note .trace s!"evaluate {kind.name}"
      return rule

/-- What a rule does on a node that it does not look into. The rules that look into nodes of one
kind refuse all others. -/
def aside (rule : EvalRule) (found : NodeKind) : Eval Value :=
  let refuse (expected : NodeKind) : Eval Value := throw (.mismatch expected found)
  match rule with
  | .underConstruction => do
      report found
      return .null
  | .constant value => return value
  | .reject => throw (.unhandled found)
  | .expressionStatement => refuse .expressionStatement
  | .block => refuse .blockStatement
  | .variableDeclaration => refuse .variableDeclarationStatement
  | .conditional => refuse .ifStatement
  | .assignment => refuse .assignmentExpression
  | .unary => refuse .prefixExpression
  | .binary => refuse .binaryExpression
  | .number => refuse .numberExpression
  | .string => refuse .stringExpression
  | .symbol => refuse .symbolExpression

/-- Stores a value. Members cannot be stored into yet. -/
def store (target : Reference) (value : Value) : Eval Value :=
  match target with
  | .symbol name => assign name value
  | .member .. => do
      report .memberExpression
      return .null

end Eval

/-- The value of an expression. Both operands of an operator are always evaluated, the left one
first, and an assigned value before its target. -/
def Expression.eval (t : EvalTable) : Expression → Eval Value
  | .assignment target value => do
      match ← Eval.ruleFor t .assignmentExpression with
      | .assignment => Eval.store target (← value.eval t)
      | rule => Eval.aside rule .assignmentExpression
  | .unary operator operand => do
      match ← Eval.ruleFor t .prefixExpression with
      | .unary => return .unary operator.kind (← operand.eval t)
      | rule => Eval.aside rule .prefixExpression
  | .binary left operator right => do
      match ← Eval.ruleFor t .binaryExpression with
      | .binary =>
          let a ← left.eval t
          let b ← right.eval t
          return .binary operator.kind a b
      | rule => Eval.aside rule .binaryExpression
  | .number value => do
      match ← Eval.ruleFor t .numberExpression with
      | .number => return .number value
      | rule => Eval.aside rule .numberExpression
  | .string value => do
      match ← Eval.ruleFor t .stringExpression with
      | .string => return .text value
      | rule => Eval.aside rule .stringExpression
  | .symbol name => do
      match ← Eval.ruleFor t .symbolExpression with
      | .symbol => Eval.lookup name
      | rule => Eval.aside rule .symbolExpression
  | e => do Eval.aside (← Eval.ruleFor t e.kind) e.kind

mutual

def Statement.eval (t : EvalTable) : Statement → Eval Value
  | .expression e => do
      match ← Eval.ruleFor t .expressionStatement with
      | .expressionStatement => e.eval t
      | rule => Eval.aside rule .expressionStatement
  | .block body => do
      match ← Eval.ruleFor t .blockStatement with
      | .block => Statement.evalAll t .null body
      | rule => Eval.aside rule .blockStatement
  | .variableDeclaration name modifiers value lifetime => do
      match ← Eval.ruleFor t .variableDeclarationStatement with
      | .variableDeclaration =>
          let value ← match value with
            | some e => e.eval t
            | none => pure .undefined
          Eval.declare name { value, modifiers, lifetime }
      | rule => Eval.aside rule .variableDeclarationStatement
  | .conditional branch => do
      match ← Eval.ruleFor t .ifStatement with
      | .conditional => branch.eval t
      | rule => Eval.aside rule .ifStatement
  | s => do Eval.aside (← Eval.ruleFor t s.kind) s.kind

/-- The value of the last of some statements; `last` when there are none. -/
def Statement.evalAll (t : EvalTable) (last : Value) : List Statement → Eval Value
  | [] => return last
  | s :: ss => do
      let value ← s.eval t
      Statement.evalAll t value ss

def Conditional.eval (t : EvalTable) : Conditional → Eval Value
  | .mk test consequent alternate => do
      let value ← test.eval t
      if value.isTruthy then Statement.evalAll t .null consequent else alternate.eval t

def Alternate.eval (t : EvalTable) : Alternate → Eval Value
  | .none => return .null
  | .conditional branch => branch.eval t
  | .block body => Statement.evalAll t .null body

end

/-- The value of a block: that of its last statement, or null. Blocks open no scope. -/
def evalBlock (t : EvalTable) (body : Block) : Eval Value := Statement.evalAll t .null body

/-- The value of a program. -/
def evalProgram (t : EvalTable) (program : Block) : Eval Value := do
  let value ← evalBlock t program
  Eval.note .debug s!"program evaluated to {value.render}"
  return value

/-- The value of a program in a fresh global scope, and the nodes that it reports. -/
def evaluate (program : Block) : Except EvalError (Value × List Diagnostic) :=
  match (evalProgram .stock program).run {} with
  | (.ok value, s) => .ok (value, s.diagnostics)
  | (.error e, _) => .error e

end Exclaim
