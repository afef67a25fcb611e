import Exclaim.Proofs.Parse.Precedence

/-! Programs written as tokens. Compound parts of an expression stand in parentheses, so that the
written form needs no knowledge of powers. -/
namespace Exclaim

/-- Whether a number is the value of a run of digits. -/
def IsNumeral (value : Float) : Prop := ∃ text, IsDigitRun text ∧ digitRunValue text = value

/-- What a writer of programs is free to choose. -/
structure Style where
  numeral : Float → String
  numeral_spec : ∀ value, IsNumeral value →
    IsDigitRun (numeral value) ∧ digitRunValue (numeral value) = value
  /-- The token that ends a statement. -/
  terminator : Token
  terminator_kind : terminator.kind ∈ Parse.terminators
  /-- Whether an expression is put in parentheses where a statement asks for one. -/
  wraps : Expression → Bool

/-- Every number that a run of digits can spell has a spelling. -/
noncomputable def Style.chosen (wraps : Expression → Bool) : Style where
  numeral value := open Classical in if h : IsNumeral value then h.choose else ""
  numeral_spec value h := by
    rw [dif_pos h]
    exact h.choose_spec
  terminator := .plain .exclamation "!"
  terminator_kind := by decide
  wraps := wraps

namespace Token

def word (text : String) : Token := .plain .identifier text

/-- The token of a kind that has only one spelling. -/
def mark (kind : TokenKind) : Token := .plain kind (kind.spelling?.getD "")

@[simp] lemma kind_plain (kind : TokenKind) (value : String) : (plain kind value).kind = kind := rfl
@[simp] lemma kind_word (text : String) : (word text).kind = .identifier := rfl
@[simp] lemma kind_mark (kind : TokenKind) : (mark kind).kind = kind := rfl

end Token

def parenthesized (ts : List Token) : List Token := .mark .openParen :: (ts ++ [.mark .closeParen])

def braced (ts : List Token) : List Token := .mark .openCurly :: (ts ++ [.mark .closeCurly])

/-- The comma before every item of a list but the first. -/
def commaUnless (isFirst : Bool) : List Token := if isFirst then [] else [.mark .comma]

/-- The property of an object, both already written. -/
def accessed (object property : List Token) (computed : Bool) : List Token :=
  if computed then object ++ .mark .openBracket :: (property ++ [.mark .closeBracket])
  else object ++ .mark .dot :: property

namespace Expression

/-- Numbers, texts and symbols are one token each. -/
def isLeaf : Expression → Bool
  | .number _ | .string _ | .symbol _ => true
  | _ => false

/-- Parentheses around the tokens of an expression, unless it is a single token. -/
def enclose (e : Expression) (ts : List Token) : List Token :=
  if e.isLeaf then ts else parenthesized ts

end Expression

mutual

/-- An expression without parentheses around it. -/
def Expression.bare (style : Style) : Expression → List Token
  | .assignment target value =>
      target.enclosed style ++ .mark .equalSign :: value.enclose (value.bare style)
  | .unary operator operand => operator :: operand.enclose (operand.bare style)
  | .state operator argument => operator :: argument.enclosed style
  | .binary left operator right =>
      left.enclose (left.bare style) ++ operator :: right.enclose (right.bare style)
  | .number value => [.plain .number (style.numeral value)]
  | .string value => [.plain .string value]
  | .symbol name => [.word name]
  | .member object property computed =>
      accessed (object.enclose (object.bare style)) (property.enclose (property.bare style))
        computed
  | .call callee arguments =>
      callee.enclose (callee.bare style) ++ parenthesized (Expression.listed style true arguments)
  | .object _ | .array _ | .branching _ => []

def Reference.enclosed (style : Style) : Reference → List Token
  | .symbol name => [.word name]
  | .member object property computed =>
      parenthesized (accessed (object.enclose (object.bare style))
        (property.enclose (property.bare style)) computed)

def Expression.listed (style : Style) (isFirst : Bool) : List Expression → List Token
  | [] => []
  | e :: es => commaUnless isFirst ++ e.enclose (e.bare style) ++ Expression.listed style false es

end

namespace Expression

def enclosed (style : Style) (e : Expression) : List Token := e.enclose (e.bare style)

/-- An expression where a statement asks for one. -/
def slotted (style : Style) (e : Expression) : List Token :=
  if style.wraps e then parenthesized (e.bare style) else e.bare style

end Expression

/-- How long a binding lives, as one token. -/
def Style.duration (style : Style) (duration : Float) : Token :=
  if duration = Binary.infinity false then .word "Infinity"
  else .plain .number (style.numeral duration)

def LifetimeUnit.written : LifetimeUnit → List Token
  | .seconds => [.word "s"]
  | .lines => []

def Lifetime.written? (style : Style) : Option Lifetime → List Token
  | none => []
  | some lifetime =>
      .mark .smaller :: style.duration lifetime.duration ::
        (lifetime.unit.written ++ [.mark .greater])

def Modifiers.written (modifiers : Modifiers) : List Token :=
  [modifiers.canReassign, modifiers.canMutate].map fun can => .word (if can then "var" else "const")

/-- The value of a declaration behind its equal sign. -/
def initialized (style : Style) : Option Expression → List Token
  | none => []
  | some value => .mark .equalSign :: value.slotted style

def Parameter.listed (style : Style) (isFirst : Bool) : List Parameter → List Token
  | [] => []
  | p :: ps =>
      commaUnless isFirst ++ p.identifier :: Lifetime.written? style p.lifetime ++
        Parameter.listed style false ps

/-- A word, a test in parentheses and a block. -/
def guard (style : Style) (text : String) (test : Expression) (consequent : List Token) :
    List Token :=
  .word text :: (parenthesized (test.slotted style) ++ braced consequent)

mutual

def Statement.written (style : Style) : Statement → List Token
  | .expression e => parenthesized (e.bare style) ++ [style.terminator]
  | .block body => braced (Statement.writtenList style body)
  | .variableDeclaration name modifiers value lifetime =>
      modifiers.written ++ .word name :: (Lifetime.written? style lifetime ++
        initialized style value ++ [style.terminator])
  | .functionDeclaration identifier parameters isAsync body =>
      (if isAsync then [.word "async"] else []) ++ .word "function" :: identifier ::
        (parenthesized (Parameter.listed style true parameters) ++
          .mark .arrow :: body.written style)
  | .returning argument => .word "return" :: (argument.slotted style ++ [style.terminator])
  | .conditional branch => branch.written style
  | .when test consequent => guard style "when" test (Statement.writtenList style consequent)
  | _ => []

def FunctionBody.written (style : Style) : FunctionBody → List Token
  | .block body => braced (Statement.writtenList style body)
  | .expression e => e.slotted style ++ [style.terminator]

def Conditional.written (style : Style) : Conditional → List Token
  | .mk test consequent alternate =>
      guard style "if" test (Statement.writtenList style consequent) ++ alternate.written style

def Alternate.written (style : Style) : Alternate → List Token
  | .none => []
  | .conditional branch => .word "else" :: branch.written style
  | .block body => .word "else" :: braced (Statement.writtenList style body)

def Statement.writtenList (style : Style) : List Statement → List Token
  | [] => []
  | s :: ss => s.written style ++ Statement.writtenList style ss

end

/-- The tokens of a program, without the end of the file. -/
def Block.written (style : Style) (program : Block) : List Token :=
  Statement.writtenList style program

/-- An operator on the history of a variable. -/
def IsStateOperator (t : Token) : Prop :=
  (t.kind = .identifier ∧ t.value ∈ Grammar.stateWords) ∨ t.kind = .plusPlus ∨ t.kind = .minusMinus

/-- What may stand behind a dot. -/
def Expression.isName : Expression → Bool
  | .symbol _ | .number _ => true
  | _ => false

mutual

/-- Whether an expression consists of what the grammar of the language knows. -/
def Expression.Writable : Expression → Prop
  | .assignment target value => target.Writable ∧ value.Writable
  | .unary operator operand =>
      operator.kind ∈ [TokenKind.subtract, .logicalNot, .bitwiseNot] ∧ operand.Writable
  | .state operator argument => IsStateOperator operator ∧ argument.Writable
  | .binary left operator right =>
      (operatorPower? operator).isSome ∧ left.Writable ∧ right.Writable
  | .number value => IsNumeral value
  | .string _ => True
  | .symbol name => name ∉ Grammar.stateWords
  | .member object property computed =>
      object.Writable ∧ property.Writable ∧ (computed ∨ property.isName)
  | .call callee arguments => callee.Writable ∧ Expression.WritableList arguments
  | .object _ | .array _ | .branching _ => False

def Reference.Writable : Reference → Prop
  | .symbol name => name ∉ Grammar.stateWords
  | .member object property computed =>
      object.Writable ∧ property.Writable ∧ (computed ∨ property.isName)

def Expression.WritableList : List Expression → Prop
  | [] => True
  | e :: es => e.Writable ∧ Expression.WritableList es

end

def Lifetime.Writable (lifetime : Lifetime) : Prop :=
  lifetime.duration = Binary.infinity false ∨ IsNumeral lifetime.duration

def Parameter.Writable (p : Parameter) : Prop :=
  p.identifier.kind = .identifier ∧ ∀ lifetime ∈ p.lifetime, lifetime.Writable

mutual

def Statement.Writable : Statement → Prop
  | .expression e => e.Writable
  | .block body => Statement.WritableList body
  | .variableDeclaration _ _ value lifetime =>
      (∀ e ∈ value, e.Writable) ∧ ∀ l ∈ lifetime, l.Writable
  | .functionDeclaration identifier parameters _ body =>
      identifier.kind = .identifier ∧ (∀ p ∈ parameters, p.Writable) ∧ body.Writable
  | .returning argument => argument.Writable
  | .conditional branch => branch.Writable
  | .when test consequent => test.Writable ∧ Statement.WritableList consequent
  | _ => False

def FunctionBody.Writable : FunctionBody → Prop
  | .block body => Statement.WritableList body
  | .expression e => e.Writable

def Conditional.Writable : Conditional → Prop
  | .mk test consequent alternate =>
      test.Writable ∧ Statement.WritableList consequent ∧ alternate.Writable

def Alternate.Writable : Alternate → Prop
  | .none => True
  | .conditional branch => branch.Writable
  | .block body => Statement.WritableList body

def Statement.WritableList : List Statement → Prop
  | [] => True
  | s :: ss => s.Writable ∧ Statement.WritableList ss

end

/-- Whether a program consists of what the grammar of the language knows. -/
def Block.Writable (program : Block) : Prop := Statement.WritableList program

/-- No token is mere layout. -/
def Solid (ts : List Token) : Prop := ∀ t ∈ ts, t.kind.isIgnorable = false

section Solid
variable {style : Style} {ts us : List Token} {t : Token}

@[simp] lemma solid_nil : Solid [] := by simp [Solid]

@[simp] lemma solid_cons : Solid (t :: ts) ↔ t.kind.isIgnorable = false ∧ Solid ts := by
  simp [Solid]

@[simp] lemma solid_append : Solid (ts ++ us) ↔ Solid ts ∧ Solid us := by
  simp [Solid, or_imp, forall_and]

lemma Solid.filter_eq (h : Solid ts) : ts.filter (!·.kind.isIgnorable) = ts :=
  List.filter_eq_self.2 fun t ht => by simp [h t ht]

@[simp] lemma isIgnorable_identifier : TokenKind.identifier.isIgnorable = false := rfl

@[simp] lemma solid_parenthesized : Solid (parenthesized ts) ↔ Solid ts := by
  simp [parenthesized, TokenKind.isIgnorable]

@[simp] lemma solid_braced : Solid (braced ts) ↔ Solid ts := by
  simp [braced, TokenKind.isIgnorable]

@[simp] lemma solid_enclose (e : Expression) : Solid (e.enclose ts) ↔ Solid ts := by
  cases h : e.isLeaf <;> simp [Expression.enclose, h]

@[simp] lemma solid_commaUnless (isFirst : Bool) : Solid (commaUnless isFirst) := by
  cases isFirst <;> simp [commaUnless, TokenKind.isIgnorable]

@[simp] lemma solid_accessed (computed : Bool) :
    Solid (accessed ts us computed) ↔ Solid ts ∧ Solid us := by
  cases computed <;> simp [accessed, TokenKind.isIgnorable]

lemma isIgnorable_of_mem {kind : TokenKind} {kinds : List TokenKind} (h : kind ∈ kinds)
    (hall : kinds.all (!·.isIgnorable)) : kind.isIgnorable = false := by
  simpa using List.all_eq_true.1 hall kind h

lemma IsStateOperator.isIgnorable (h : IsStateOperator t) : t.kind.isIgnorable = false := by
  rcases h with ⟨h, -⟩ | h | h <;> rw [h] <;> rfl

lemma isIgnorable_of_operatorPower? (h : (operatorPower? t).isSome) :
    t.kind.isIgnorable = false := by
  unfold operatorPower? at h
  rw [Grammar.joining?_stock] at h
  cases hk : t.kind <;> first | rfl | (rw [hk] at h; exact absurd h (by decide))

mutual

lemma Expression.solid_bare (style : Style) : ∀ e : Expression, e.Writable → Solid (e.bare style)
  | .assignment target value, h => by
      simp [Expression.bare, target.solid_enclosed style h.1, value.solid_bare style h.2,
        TokenKind.isIgnorable]
  | .unary operator operand, h => by
      simp [Expression.bare, operand.solid_bare style h.2, isIgnorable_of_mem h.1 rfl]
  | .state operator argument, h => by
      simp [Expression.bare, argument.solid_enclosed style h.2, h.1.isIgnorable]
  | .binary left operator right, h => by
      simp [Expression.bare, left.solid_bare style h.2.1, right.solid_bare style h.2.2,
        isIgnorable_of_operatorPower? h.1]
  | .number value, h => by simp [Expression.bare, TokenKind.isIgnorable]
  | .string value, h => by simp [Expression.bare, TokenKind.isIgnorable]
  | .symbol name, h => by simp [Expression.bare]
  | .member object property computed, h => by
      simp [Expression.bare, object.solid_bare style h.1, property.solid_bare style h.2.1]
  | .call callee arguments, h => by
      simp [Expression.bare, callee.solid_bare style h.1,
        Expression.solid_listed style true arguments h.2]
  | .object _, h | .array _, h | .branching _, h => absurd h id

lemma Reference.solid_enclosed (style : Style) :
    ∀ r : Reference, r.Writable → Solid (r.enclosed style)
  | .symbol name, h => by simp [Reference.enclosed]
  | .member object property computed, h => by
      simp [Reference.enclosed, object.solid_bare style h.1, property.solid_bare style h.2.1]

lemma Expression.solid_listed (style : Style) (isFirst : Bool) : ∀ es : List Expression,
    Expression.WritableList es → Solid (Expression.listed style isFirst es)
  | [], h => by simp [Expression.listed]
  | e :: es, h => by
      simp [Expression.listed, e.solid_bare style h.1, Expression.solid_listed style false es h.2]

end

@[simp] lemma Style.solid_terminator (style : Style) : style.terminator.kind.isIgnorable = false :=
  isIgnorable_of_mem style.terminator_kind rfl

lemma Expression.solid_slotted {e : Expression} (h : e.Writable) : Solid (e.slotted style) := by
  unfold slotted
  split <;> simp [e.solid_bare style h]

lemma Lifetime.solid_written? (lifetime : Option Lifetime) : Solid (written? style lifetime) := by
  have hd : ∀ d, (style.duration d).kind.isIgnorable = false := by
    intro d
    unfold Style.duration
    split <;> rfl
  have hu : ∀ u : LifetimeUnit, Solid u.written := by rintro (_ | _) <;> simp [LifetimeUnit.written]
  cases lifetime with
  | none => exact solid_nil
  | some lifetime =>
    simp [written?, hd, hu, show TokenKind.smaller.isIgnorable = false from rfl,
      show TokenKind.greater.isIgnorable = false from rfl]

lemma solid_initialized {value : Option Expression} (h : ∀ e ∈ value, e.Writable) :
    Solid (initialized style value) := by
  cases value with
  | none => exact solid_nil
  | some e => simp [initialized, Expression.solid_slotted (h e rfl), TokenKind.isIgnorable]

lemma Parameter.solid_listed (isFirst : Bool) {ps : List Parameter} (h : ∀ p ∈ ps, p.Writable) :
    Solid (Parameter.listed style isFirst ps) := by
  induction ps generalizing isFirst with
  | nil => exact solid_nil
  | cons p ps ih =>
    have hp : p.identifier.kind = .identifier := (h p (by simp)).1
    have hps := ih false fun q hq => h q (by simp [hq])
    simp [Parameter.listed, hp, Lifetime.solid_written?, hps]

lemma solid_guard {text : String} {test : Expression} (ht : test.Writable) (hts : Solid ts) :
    Solid (guard style text test ts) := by
  simp [guard, Expression.solid_slotted ht, hts]

mutual

lemma Statement.solid_written (style : Style) :
    ∀ s : Statement, s.Writable → Solid (s.written style)
  | .expression e, h => by simp [Statement.written, e.solid_bare style h]
  | .block body, h => by simp [Statement.written, Statement.solid_writtenList style body h]
  | .variableDeclaration name modifiers value lifetime, h => by
      simp [Statement.written, Modifiers.written, Lifetime.solid_written?, solid_initialized h.1]
  | .functionDeclaration identifier parameters isAsync body, h => by
      cases isAsync <;>
        simp [Statement.written, h.1, Parameter.solid_listed true h.2.1,
          body.solid_written style h.2.2, TokenKind.isIgnorable]
  | .returning argument, h => by
      simp [Statement.written, Expression.solid_slotted (e := argument) h]
  | .conditional branch, h => by simp [Statement.written, branch.solid_written style h]
  | .when test consequent, h => by
      simp [Statement.written, solid_guard h.1 (Statement.solid_writtenList style consequent h.2)]
  | .classDeclaration, h | .delete, h | .reverse, h | .importing, h | .exporting, h
  | .branching _, h | .endOfFile, h | .endOfBlock, h => absurd h id

lemma FunctionBody.solid_written (style : Style) :
    ∀ b : FunctionBody, b.Writable → Solid (b.written style)
  | .block body, h => by simp [FunctionBody.written, Statement.solid_writtenList style body h]
  | .expression e, h => by simp [FunctionBody.written, Expression.solid_slotted (e := e) h]

lemma Conditional.solid_written (style : Style) :
    ∀ c : Conditional, c.Writable → Solid (c.written style)
  | .mk test consequent alternate, h => by
      simp [Conditional.written,
        solid_guard h.1 (Statement.solid_writtenList style consequent h.2.1),
        alternate.solid_written style h.2.2]

lemma Alternate.solid_written (style : Style) :
    ∀ a : Alternate, a.Writable → Solid (a.written style)
  | .none, _ => by simp [Alternate.written]
  | .conditional branch, h => by simp [Alternate.written, branch.solid_written style h]
  | .block body, h => by simp [Alternate.written, Statement.solid_writtenList style body h]

lemma Statement.solid_writtenList (style : Style) : ∀ ss : List Statement,
    Statement.WritableList ss → Solid (Statement.writtenList style ss)
  | [], _ => by simp [Statement.writtenList]
  | s :: ss, h => by
      simp [Statement.writtenList, s.solid_written style h.1,
        Statement.solid_writtenList style ss h.2]

end

end Solid

end Exclaim
