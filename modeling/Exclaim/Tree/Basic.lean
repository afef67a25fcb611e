import Exclaim.Token.Basic
import Exclaim.Tree.Kind

/-! Trees: what a source says. -/
namespace Exclaim

/-- What a declaration allows: the name to be bound anew, the value to be changed in place. -/
structure Modifiers where
  canReassign : Bool := false
  canMutate : Bool := false
deriving DecidableEq, Repr

inductive LifetimeUnit where
  | seconds
  | lines
deriving DecidableEq, Repr

/-- How long a binding is declared to live. -/
structure Lifetime where
  duration : Float
  unit : LifetimeUnit

/-- A parameter of a function. -/
structure Parameter where
  identifier : Token
  lifetime : Option Lifetime

mutual

inductive Expression where
  | assignment (target : Reference) (value : Expression)
  /-- An operator before its operand. -/
  | unary (operator : Token) (operand : Expression)
  /-- An operator on the history of a variable. -/
  | state (operator : Token) (argument : Reference)
  | binary (left : Expression) (operator : Token) (right : Expression)
  | number (value : Float)
  | string (value : String)
  | symbol (name : String)
  | object (properties : List Property)
  | array (elements : List Expression)
  /-- `object[property]` when computed, else `object.property`. -/
  | member (object property : Expression) (computed : Bool)
  | call (callee : Expression) (arguments : List Expression)
  /-- Candidate readings of one ambiguous expression. -/
  | branching (branches : List Expression)

/-- The expressions that name a place to store a value in. -/
inductive Reference where
  | symbol (name : String)
  | member (object property : Expression) (computed : Bool)

inductive Property where
  | mk (key value : Expression) (shorthand computed : Bool)

end

mutual

inductive Statement where
  | expression (expression : Expression)
  | block (body : List Statement)
  | variableDeclaration (name : String) (modifiers : Modifiers) (value : Option Expression)
      (lifetime : Option Lifetime)
  | functionDeclaration (identifier : Token) (parameters : List Parameter) (isAsync : Bool)
      (body : FunctionBody)
  | returning (argument : Expression)
  | conditional (branch : Conditional)
  | when (test : Expression) (consequent : List Statement)
  | classDeclaration
  | delete
  | reverse
  | importing
  | exporting
  /-- Candidate readings of one ambiguous statement. -/
  | branching (branches : List (List Statement))
  /-- Stands for the end of the source. -/
  | endOfFile
  /-- Stands for the end of a block. -/
  | endOfBlock

inductive FunctionBody where
  | block (body : List Statement)
  | expression (expression : Expression)

/-- A test, what to do when it holds, and what else to do. -/
inductive Conditional where
  | mk (test : Expression) (consequent : List Statement) (alternate : Alternate)

inductive Alternate where
  | none
  | conditional (branch : Conditional)
  | block (body : List Statement)

end

instance : Inhabited Expression := ⟨.symbol ""⟩

instance : Inhabited Reference := ⟨.symbol ""⟩

instance : Inhabited Statement := ⟨.endOfFile⟩

instance : Inhabited Conditional := ⟨.mk default [] .none⟩

/-- The statements of a block or of a whole program. -/
abbrev Block := List Statement

def Expression.kind : Expression → NodeKind
  | .assignment .. => .assignmentExpression
  | .unary .. => .prefixExpression
  | .state .. => .stateExpression
  | .binary .. => .binaryExpression
  | .number _ => .numberExpression
  | .string _ => .stringExpression
  | .symbol _ => .symbolExpression
  | .object _ => .objectDeclarationExpression
  | .array _ => .arrayDeclarationExpression
  | .member .. => .memberExpression
  | .call .. => .callExpression
  | .branching _ => .branchingExpression

def Statement.kind : Statement → NodeKind
  | .expression _ => .expressionStatement
  | .block _ => .blockStatement
  | .variableDeclaration .. => .variableDeclarationStatement
  | .functionDeclaration .. => .functionDeclarationStatement
  | .returning _ => .returnStatement
  | .conditional _ => .ifStatement
  | .when .. => .whenStatement
  | .classDeclaration => .classDeclarationStatement
  | .delete => .deleteStatement
  | .reverse => .reverseStatement
  | .importing => .importStatement
  | .exporting => .exportStatement
  | .branching _ => .branchingStatement
  | .endOfFile => .eofStatement
  | .endOfBlock => .endOfBlockStatement

/-- Whether a statement only marks an end. -/
def Statement.isSentinel : Statement → Bool
  | .endOfFile | .endOfBlock => true
  | _ => false

namespace Reference

def kind : Reference → NodeKind
  | .symbol _ => .symbolExpression
  | .member .. => .memberExpression

def toExpression : Reference → Expression
  | .symbol name => .symbol name
  | .member object property computed => .member object property computed

/-- The reference that an expression is, if it is a symbol or a member access. -/
def ofExpression? : Expression → Option Reference
  | .symbol name => some (.symbol name)
  | .member object property computed => some (.member object property computed)
  | _ => none

theorem toExpression_of_ofExpression? {e : Expression} {r : Reference}
    (h : ofExpression? e = some r) : r.toExpression = e := by
  cases e <;> simp_all [ofExpression?] <;> subst h <;> rfl

@[simp] theorem ofExpression?_toExpression (r : Reference) :
    ofExpression? r.toExpression = some r := by
  cases r <;> rfl

end Reference
end Exclaim
