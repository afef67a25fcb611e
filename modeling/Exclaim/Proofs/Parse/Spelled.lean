import Exclaim.Proofs.Parse.Written

/-! Which tokens spell which tree. The relations say what stands where, and nothing about powers, so
a sequence may spell several trees; the one that a parse gives is among them. Layout and the end of
the file are left out. -/
namespace Exclaim

/-- Only the binary operators stand between two operands. -/
lemma kind_of_operatorPower? {t : Token} (h : (operatorPower? t).isSome) :
    t.kind ∈ Grammar.binaryOperators.map Prod.fst := by
  have hall : ∀ entry ∈ Grammar.stockJoinings, entry.rule = .binary →
      entry.kind ∈ Grammar.binaryOperators.map Prod.fst := by decide
  obtain ⟨power, hp⟩ := Option.isSome_iff_exists.1 h
  rw [operatorPower?_eq_some, Grammar.joining?_stock] at hp
  obtain ⟨entry, hf, he⟩ := Option.map_eq_some_iff.1 hp
  have hkind : entry.kind = t.kind := by simpa using List.find?_some hf
  rw [← hkind]
  exact hall entry (List.mem_of_find?_eq_some hf) (congrArg Prod.fst he)

/-- What stands before an item of a list: a comma, but nothing before the first one. -/
def Separates (isFirst : Bool) (ts : List Token) : Prop :=
  if isFirst then ts = [] else ∃ comma : Token, comma.kind = .comma ∧ ts = [comma]

mutual

inductive Expression.Spelled : Expression → List Token → Prop where
  | number {t : Token} {value : Float} (kind : t.kind = .number)
      (reads : readNumber? t.value = some value) : Spelled (.number value) [t]
  | string {t : Token} (kind : t.kind = .string) : Spelled (.string t.value) [t]
  | symbol {t : Token} (kind : t.kind = .identifier) : Spelled (.symbol t.value) [t]
  | grouping {opener closer : Token} {e : Expression} {ts : List Token}
      (opens : opener.kind = .openParen) (inner : e.Spelled ts)
      (closes : closer.kind = .closeParen) : Spelled e (opener :: (ts ++ [closer]))
  | unary {operator : Token} {operand : Expression} {ts : List Token}
      (kind : operator.kind ∈ [TokenKind.subtract, .logicalNot, .bitwiseNot])
      (right : operand.Spelled ts) : Spelled (.unary operator operand) (operator :: ts)
  | state {operator : Token} {argument : Reference} {ts : List Token}
      (kind : IsStateOperator operator) (right : argument.toExpression.Spelled ts) :
      Spelled (.state operator argument) (operator :: ts)
  | binary {left right : Expression} {operator : Token} {ts us : List Token}
      (before : left.Spelled ts) (kind : (operatorPower? operator).isSome)
      (behind : right.Spelled us) : Spelled (.binary left operator right) (ts ++ operator :: us)
  | assignment {target : Reference} {sign : Token} {value : Expression} {ts us : List Token}
      (before : target.toExpression.Spelled ts)
      (kind : sign.kind ∈ [TokenKind.combinedAssignment, .equalSign])
      (plain : sign.operation = none) (behind : value.Spelled us) :
      Spelled (.assignment target value) (ts ++ sign :: us)
  /-- The target is written once and stands in the tree twice. -/
  | combined {target : Reference} {sign : Token} {operation : TokenKind} {value : Expression}
      {ts us : List Token} (before : target.toExpression.Spelled ts)
      (kind : sign.kind ∈ [TokenKind.combinedAssignment, .equalSign])
      (combines : sign.operation = some operation) (behind : value.Spelled us) :
      Spelled (.assignment target
        (.binary target.toExpression (Parse.combinedOperator sign operation) value))
        (ts ++ sign :: us)
  | property {object property : Expression} {dot : Token} {ts us : List Token}
      (before : object.Spelled ts) (kind : dot.kind = .dot) (behind : property.Spelled us) :
      Spelled (.member object property false) (ts ++ dot :: us)
  | element {object property : Expression} {opener closer : Token} {ts us : List Token}
      (before : object.Spelled ts) (opens : opener.kind = .openBracket)
      (inner : property.Spelled us) (closes : closer.kind = .closeBracket) :
      Spelled (.member object property true) (ts ++ opener :: (us ++ [closer]))
  | call {callee : Expression} {arguments : List Expression} {opener closer : Token}
      {ts us : List Token} (before : callee.Spelled ts) (opens : opener.kind = .openParen)
      (inner : Expression.Listed true arguments us) (closes : closer.kind = .closeParen) :
      Spelled (.call callee arguments) (ts ++ opener :: (us ++ [closer]))

inductive Expression.Listed : Bool → List Expression → List Token → Prop where
  | nil {isFirst : Bool} : Listed isFirst [] []
  | cons {isFirst : Bool} {e : Expression} {es : List Expression} {sep ts us : List Token}
      (separates : Separates isFirst sep) (first : e.Spelled ts)
      (rest : Expression.Listed false es us) : Listed isFirst (e :: es) (sep ++ (ts ++ us))

end

/-- How long a binding lives: the word `Infinity`, or a number, which may be too large as well. -/
def Lifetime.SpelledDuration (duration : Float) (t : Token) : Prop :=
  t.kind = .identifier ∧ duration = Binary.infinity false ∨
    t.kind = .number ∧ readNumber? t.value = some duration

def LifetimeUnit.Spelled (unit : LifetimeUnit) (ts : List Token) : Prop :=
  match unit with
  | .lines => ts = []
  | .seconds => ∃ word : Token, word.kind = .identifier ∧ ts = [word]

lemma LifetimeUnit.Spelled.kind_eq {unit : LifetimeUnit} {ts : List Token} (h : unit.Spelled ts) :
    ∀ t ∈ ts, t.kind = .identifier := by
  cases unit with
  | lines =>
    obtain rfl : ts = [] := h
    simp
  | seconds =>
    obtain ⟨word, hword, rfl⟩ := h
    simpa using hword

inductive Lifetime.Spelled : Option Lifetime → List Token → Prop where
  | none : Spelled none []
  | some {lifetime : Lifetime} {opener t closer : Token} {us : List Token}
      (opens : opener.kind = .smaller) (duration : SpelledDuration lifetime.duration t)
      (unit : lifetime.unit.Spelled us) (closes : closer.kind = .greater) :
      Spelled (some lifetime) (opener :: t :: (us ++ [closer]))

inductive Parameter.Listed : Bool → List Parameter → List Token → Prop where
  | nil {isFirst : Bool} : Listed isFirst [] []
  | cons {isFirst : Bool} {p : Parameter} {ps : List Parameter} {sep ts us : List Token}
      (separates : Separates isFirst sep) (kind : p.identifier.kind = .identifier)
      (lifetime : Lifetime.Spelled p.lifetime ts) (rest : Parameter.Listed false ps us) :
      Listed isFirst (p :: ps) (sep ++ p.identifier :: (ts ++ us))

/-- The value of a declaration behind its equal sign. -/
inductive Expression.Initial : Option Expression → List Token → Prop where
  | none : Initial none []
  | some {value : Expression} {sign : Token} {ts : List Token} (kind : sign.kind = .equalSign)
      (behind : value.Spelled ts) : Initial (some value) (sign :: ts)

mutual

inductive Statement.Spelled : Statement → List Token → Prop where
  | expression {e : Expression} {stop : Token} {ts : List Token} (inner : e.Spelled ts)
      (stops : stop.kind.isTerminator) : Statement.Spelled (.expression e) (ts ++ [stop])
  | block {body : List Statement} {ts : List Token} (inner : Statement.Braced body ts) :
      Statement.Spelled (.block body) ts
  | variableDeclaration {first second name stop : Token} {modifiers : Modifiers}
      {lifetime : Option Lifetime} {value : Option Expression} {ts us : List Token}
      (first_kind : first.kind = .identifier) (second_kind : second.kind = .identifier)
      (name_kind : name.kind = .identifier) (lives : Lifetime.Spelled lifetime ts)
      (starts : Expression.Initial value us) (stops : stop.kind.isTerminator) :
      Statement.Spelled (.variableDeclaration name.value modifiers value lifetime)
        (first :: second :: name :: (ts ++ (us ++ [stop])))
  | functionDeclaration {word name opener closer arrow : Token} {parameters : List Parameter}
      {isAsync : Bool} {body : FunctionBody} {marks ts us : List Token}
      (marks_kind : ∀ t ∈ marks, t.kind = .identifier) (word_kind : word.kind = .identifier)
      (name_kind : name.kind = .identifier) (opens : opener.kind = .openParen)
      (inner : Parameter.Listed true parameters ts) (closes : closer.kind = .closeParen)
      (arrow_kind : arrow.kind = .arrow) (behind : FunctionBody.Spelled body us) :
      Statement.Spelled (.functionDeclaration name parameters isAsync body)
        (marks ++ word :: name :: opener :: (ts ++ closer :: arrow :: us))
  | returning {word stop : Token} {argument : Expression} {ts : List Token}
      (word_kind : word.kind = .identifier) (inner : argument.Spelled ts)
      (stops : stop.kind.isTerminator) :
      Statement.Spelled (.returning argument) (word :: (ts ++ [stop]))
  | conditional {branch : Conditional} {ts : List Token} (inner : Conditional.Spelled branch ts) :
      Statement.Spelled (.conditional branch) ts
  | when {test : Expression} {consequent : List Statement} {ts : List Token}
      (inner : Statement.Guarded test consequent ts) : Statement.Spelled (.when test consequent) ts

inductive FunctionBody.Spelled : FunctionBody → List Token → Prop where
  | block {body : List Statement} {ts : List Token} (inner : Statement.Braced body ts) :
      FunctionBody.Spelled (.block body) ts
  | expression {e : Expression} {stop : Token} {ts : List Token} (inner : e.Spelled ts)
      (stops : stop.kind.isTerminator) : FunctionBody.Spelled (.expression e) (ts ++ [stop])

inductive Conditional.Spelled : Conditional → List Token → Prop where
  | mk {test : Expression} {consequent : List Statement} {alternate : Alternate}
      {ts us : List Token} (guarded : Statement.Guarded test consequent ts)
      (otherwise : Alternate.Spelled alternate us) :
      Conditional.Spelled (.mk test consequent alternate) (ts ++ us)

inductive Alternate.Spelled : Alternate → List Token → Prop where
  | none : Alternate.Spelled .none []
  | conditional {word : Token} {branch : Conditional} {ts : List Token}
      (word_kind : word.kind = .identifier) (inner : Conditional.Spelled branch ts) :
      Alternate.Spelled (.conditional branch) (word :: ts)
  | block {word : Token} {body : List Statement} {ts : List Token}
      (word_kind : word.kind = .identifier) (inner : Statement.Braced body ts) :
      Alternate.Spelled (.block body) (word :: ts)

/-- A word, a test in parentheses and a block. -/
inductive Statement.Guarded : Expression → List Statement → List Token → Prop where
  | mk {word opener closer : Token} {test : Expression} {consequent : List Statement}
      {ts us : List Token} (word_kind : word.kind = .identifier)
      (opens : opener.kind = .openParen) (tests : test.Spelled ts)
      (closes : closer.kind = .closeParen) (inner : Statement.Braced consequent us) :
      Statement.Guarded test consequent (word :: opener :: (ts ++ closer :: us))

/-- Statements between curly brackets. -/
inductive Statement.Braced : List Statement → List Token → Prop where
  | mk {body : List Statement} {opener closer : Token} {ts : List Token}
      (opens : opener.kind = .openCurly) (inner : Statement.AllSpelled body ts)
      (closes : closer.kind = .closeCurly) : Statement.Braced body (opener :: (ts ++ [closer]))

inductive Statement.AllSpelled : List Statement → List Token → Prop where
  | nil : Statement.AllSpelled [] []
  | cons {s : Statement} {ss : List Statement} {ts us : List Token}
      (first : Statement.Spelled s ts) (rest : Statement.AllSpelled ss us) :
      Statement.AllSpelled (s :: ss) (ts ++ us)

end

end Exclaim
