import Mathlib.Data.List.Basic
import Exclaim.Parse.Error

/-! Tokens, trees and errors without their places. Two sources that differ only in layout give
trees that agree once the spans and lines of all tokens are forgotten. -/
namespace Exclaim

namespace Token

/-- A token that stands nowhere. -/
def plain (kind : TokenKind) (value : String) : Token := { kind, value, span := default, line := 0 }

/-- The token without its place: what is left are kind, value and operation. -/
def unplaced (t : Token) : Token := { t with span := default, line := 0 }

variable {t t' : Token}

lemma unplaced_eq_iff :
    t.unplaced = t'.unplaced ↔
      t.kind = t'.kind ∧ t.value = t'.value ∧ t.operation = t'.operation := by
  obtain ⟨kind, value, operation, span, line⟩ := t
  obtain ⟨kind', value', operation', span', line'⟩ := t'
  simp [unplaced]

lemma kind_eq (h : t.unplaced = t'.unplaced) : t.kind = t'.kind := (unplaced_eq_iff.1 h).1
lemma value_eq (h : t.unplaced = t'.unplaced) : t.value = t'.value := (unplaced_eq_iff.1 h).2.1
lemma operation_eq (h : t.unplaced = t'.unplaced) : t.operation = t'.operation :=
  (unplaced_eq_iff.1 h).2.2

end Token

mutual

def Expression.unplaced : Expression → Expression
  | .assignment target value => .assignment target.unplaced value.unplaced
  | .unary operator operand => .unary operator.unplaced operand.unplaced
  | .state operator argument => .state operator.unplaced argument.unplaced
  | .binary left operator right => .binary left.unplaced operator.unplaced right.unplaced
  | .number value => .number value
  | .string value => .string value
  | .symbol name => .symbol name
  | .object properties => .object (Property.unplacedList properties)
  | .array elements => .array (Expression.unplacedList elements)
  | .member object property computed => .member object.unplaced property.unplaced computed
  | .call callee arguments => .call callee.unplaced (Expression.unplacedList arguments)
  | .branching branches => .branching (Expression.unplacedList branches)

def Reference.unplaced : Reference → Reference
  | .symbol name => .symbol name
  | .member object property computed => .member object.unplaced property.unplaced computed

def Property.unplaced : Property → Property
  | .mk key value shorthand computed => .mk key.unplaced value.unplaced shorthand computed

def Expression.unplacedList : List Expression → List Expression
  | [] => []
  | e :: es => e.unplaced :: Expression.unplacedList es

def Property.unplacedList : List Property → List Property
  | [] => []
  | p :: ps => p.unplaced :: Property.unplacedList ps

end

def Parameter.unplaced (p : Parameter) : Parameter := { p with identifier := p.identifier.unplaced }

mutual

def Statement.unplaced : Statement → Statement
  | .expression e => .expression e.unplaced
  | .block body => .block (Statement.unplacedList body)
  | .variableDeclaration name modifiers value lifetime =>
      .variableDeclaration name modifiers (value.map Expression.unplaced) lifetime
  | .functionDeclaration identifier parameters isAsync body =>
      .functionDeclaration identifier.unplaced (parameters.map Parameter.unplaced) isAsync
        body.unplaced
  | .returning argument => .returning argument.unplaced
  | .conditional branch => .conditional branch.unplaced
  | .when test consequent => .when test.unplaced (Statement.unplacedList consequent)
  | .classDeclaration => .classDeclaration
  | .delete => .delete
  | .reverse => .reverse
  | .importing => .importing
  | .exporting => .exporting
  | .branching branches => .branching (Statement.unplacedBranches branches)
  | .endOfFile => .endOfFile
  | .endOfBlock => .endOfBlock

def FunctionBody.unplaced : FunctionBody → FunctionBody
  | .block body => .block (Statement.unplacedList body)
  | .expression e => .expression e.unplaced

def Conditional.unplaced : Conditional → Conditional
  | .mk test consequent alternate =>
      .mk test.unplaced (Statement.unplacedList consequent) alternate.unplaced

def Alternate.unplaced : Alternate → Alternate
  | .none => .none
  | .conditional branch => .conditional branch.unplaced
  | .block body => .block (Statement.unplacedList body)

def Statement.unplacedList : List Statement → List Statement
  | [] => []
  | s :: ss => s.unplaced :: Statement.unplacedList ss

def Statement.unplacedBranches : List (List Statement) → List (List Statement)
  | [] => []
  | b :: bs => Statement.unplacedList b :: Statement.unplacedBranches bs

end

/-- The program without places. -/
def Block.unplaced (block : Block) : Block := Statement.unplacedList block

/-- The error without places, and without the index of the token that starts no expression. -/
def ParseError.unplaced : ParseError → ParseError
  | .noOpening token _ => .noOpening token.unplaced 0
  | .misshapen context found _ => .misshapen context found.unplaced default
  | .unexpectedKind expected found => .unexpectedKind expected found.unplaced
  | .unexpectedWord expected found => .unexpectedWord expected found.unplaced
  | .strayCloseBrace token => .strayCloseBrace token.unplaced
  | .invalidNumber token => .invalidNumber token.unplaced

@[simp] lemma Expression.kind_unplaced (e : Expression) : e.unplaced.kind = e.kind := by
  cases e <;> rfl

@[simp] lemma Statement.isSentinel_unplaced (s : Statement) :
    s.unplaced.isSentinel = s.isSentinel := by
  cases s <;> rfl

lemma Reference.toExpression_unplaced (r : Reference) :
    r.toExpression.unplaced = r.unplaced.toExpression := by
  cases r <;> rfl

lemma Reference.ofExpression?_unplaced (e : Expression) :
    ofExpression? e.unplaced = (ofExpression? e).map Reference.unplaced := by
  cases e <;> rfl

@[simp] lemma Token.toJson_unplaced (t : Token) : t.unplaced.toJson = t.toJson := rfl

mutual

lemma Expression.toJson_unplaced : ∀ e : Expression, e.unplaced.toJson = e.toJson
  | .assignment target value => by
      simp [Expression.unplaced, Expression.toJson, target.toJson_unplaced, value.toJson_unplaced]
  | .unary operator operand => by
      simp [Expression.unplaced, Expression.toJson, operand.toJson_unplaced]
  | .state operator argument => by
      simp [Expression.unplaced, Expression.toJson, argument.toJson_unplaced]
  | .binary left operator right => by
      simp [Expression.unplaced, Expression.toJson, left.toJson_unplaced, right.toJson_unplaced]
  | .number value => rfl
  | .string value => rfl
  | .symbol name => rfl
  | .object properties => by
      simp [Expression.unplaced, Expression.toJson, Property.listToJson_unplaced properties]
  | .array elements => by
      simp [Expression.unplaced, Expression.toJson, Expression.listToJson_unplaced elements]
  | .member object property computed => by
      simp [Expression.unplaced, Expression.toJson, object.toJson_unplaced,
        property.toJson_unplaced]
  | .call callee arguments => by
      simp [Expression.unplaced, Expression.toJson, callee.toJson_unplaced,
        Expression.listToJson_unplaced arguments]
  | .branching branches => by
      simp [Expression.unplaced, Expression.toJson, Expression.listToJson_unplaced branches]

lemma Reference.toJson_unplaced : ∀ r : Reference, r.unplaced.toJson = r.toJson
  | .symbol name => rfl
  | .member object property computed => by
      simp [Reference.unplaced, Reference.toJson, object.toJson_unplaced, property.toJson_unplaced]

lemma Property.toJson_unplaced : ∀ p : Property, p.unplaced.toJson = p.toJson
  | .mk key value shorthand computed => by
      simp [Property.unplaced, Property.toJson, key.toJson_unplaced, value.toJson_unplaced]

lemma Expression.listToJson_unplaced : ∀ es : List Expression,
    Expression.listToJson (Expression.unplacedList es) = Expression.listToJson es
  | [] => rfl
  | e :: es => by
      simp [Expression.unplacedList, Expression.listToJson, e.toJson_unplaced,
        Expression.listToJson_unplaced es]

lemma Property.listToJson_unplaced : ∀ ps : List Property,
    Property.listToJson (Property.unplacedList ps) = Property.listToJson ps
  | [] => rfl
  | p :: ps => by
      simp [Property.unplacedList, Property.listToJson, p.toJson_unplaced,
        Property.listToJson_unplaced ps]

end

/-- Places are not part of a message, except for the index of a token that starts no expression. -/
lemma ParseError.message_unplaced {e : ParseError} (h : ∀ token index, e ≠ .noOpening token index) :
    e.unplaced.message = e.message := by
  cases e with
  | noOpening token index => exact (h token index rfl).elim
  | misshapen context found span =>
    change context.complaint found.unplaced.kind ++ "\n" ++ found.unplaced.toJson.prettyText = _
    rw [found.toJson_unplaced, found.kind_unplaced]
    rfl
  | unexpectedKind expected found => rfl
  | unexpectedWord expected found => rfl
  | strayCloseBrace token => rfl
  | invalidNumber token => rfl

lemma ParseError.message_congr {e e' : ParseError} (h : e.unplaced = e'.unplaced)
    (hne : ∀ token index, e ≠ .noOpening token index) : e.message = e'.message := by
  have hne' : ∀ token index, e' ≠ .noOpening token index := by
    rintro token index rfl
    cases e with
    | noOpening token index => exact hne token index rfl
    | _ => exact absurd h (by simp [ParseError.unplaced])
  rw [← message_unplaced hne, h, message_unplaced hne']

end Exclaim
