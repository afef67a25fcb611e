import Exclaim.Proofs.Parse.Ends
import Exclaim.Proofs.Parse.Written
import Exclaim.Proofs.Source.Spelling
import Exclaim.Proofs.Tree.Nodes

/-! The trees that sources have. They are built from fewer kinds of nodes than there are, and the
tokens and numbers in them are those that a source can spell. -/
namespace Exclaim

/-- Whether an expression is one that sources have, whatever the expressions in it are. -/
def Expression.InLanguage : Expression → Prop
  | .unary operator _ =>
      (operator.kind, operator.value) ∈
        [(TokenKind.subtract, "-"), (.logicalNot, ";"), (.bitwiseNot, "~")]
  | .state operator _ =>
      operator.kind = .identifier ∧ operator.value ∈ Grammar.stateWords ∨
        operator.kind ∈ [TokenKind.plusPlus, .minusMinus] ∧ operator.value ∈ ["++", "--"]
  | .binary _ operator _ => (operatorPower? operator).isSome ∧ operator.operation = none
  | .number value => IsNumeral value
  | .symbol name => name ∉ Grammar.stateWords
  | .member _ property computed => computed ∨ property.isName
  | .assignment .. | .string _ | .call .. => True
  | .object _ | .array _ | .branching _ => False

/-- Whether a statement is one that sources have, whatever the nodes in it are. -/
def Statement.InLanguage : Statement → Prop
  | .variableDeclaration _ _ _ lifetime => ∀ l ∈ lifetime, l.Writable
  | .functionDeclaration identifier parameters _ _ =>
      identifier.kind = .identifier ∧ ∀ p ∈ parameters, p.Writable
  | .expression _ | .block _ | .returning _ | .conditional _ | .when .. => True
  | .classDeclaration | .delete | .reverse | .importing | .exporting | .branching _ | .endOfFile
  | .endOfBlock => False

def Node.InLanguage : Node → Prop
  | .statement s => s.InLanguage
  | .expression e => e.InLanguage

/-- Whether all of some nodes are ones that sources have. -/
def Regular (nodes : List Node) : Prop := ∀ node ∈ nodes, node.InLanguage

@[simp] lemma Node.inLanguage_statement {s : Statement} :
    (Node.statement s).InLanguage ↔ s.InLanguage := Iff.rfl

@[simp] lemma Node.inLanguage_expression {e : Expression} :
    (Node.expression e).InLanguage ↔ e.InLanguage := Iff.rfl

section Regular
variable {node : Node} {nodes nodes' : List Node}

@[simp] lemma regular_nil : Regular [] := by simp [Regular]

@[simp] lemma regular_cons : Regular (node :: nodes) ↔ node.InLanguage ∧ Regular nodes :=
  List.forall_mem_cons

@[simp] lemma regular_append : Regular (nodes ++ nodes') ↔ Regular nodes ∧ Regular nodes' :=
  List.forall_mem_append

end Regular

/-- All tokens are spelled as those of a source are. -/
def Cursor.Genuine (c : Cursor) : Prop := (∀ t ∈ c.body, t.Genuine) ∧ c.last.Genuine

namespace Cursor

lemma Genuine.tokenAt {c : Cursor} (h : c.Genuine) (index : Nat) : (c.tokenAt index).Genuine := by
  unfold Cursor.tokenAt
  cases ht : c.body[index]? with
  | none => exact h.2
  | some t => exact h.1 t (List.mem_of_getElem? ht)

lemma Genuine.next {c : Cursor} (h : c.Genuine) : c.next.Genuine := by
  rw [← tokenAt_layoutCount]
  exact h.tokenAt _

lemma genuine_ofTokens {tokens : List Token} (h : ∀ t ∈ tokens, t.Genuine) :
    (ofTokens tokens).Genuine := by
  unfold ofTokens
  cases hlast : tokens.getLast? with
  | none => exact ⟨by simp, Token.genuine_endOfFile 0 1⟩
  | some t =>
    dsimp only
    split
    · exact ⟨fun t ht => h t (List.dropLast_subset _ ht), h t (List.mem_of_getLast? hlast)⟩
    · exact ⟨h, Token.genuine_endOfFile _ _⟩

end Cursor

namespace Parse

/-- From every state with `P` the action gives a value with `Q`, or it fails, but never because of a
number. The tokens stay genuine. -/
def BuildsFrom (P : ParseState → Prop) {α : Type} (p : Parse α) (Q : α → Prop) : Prop :=
  Ends P p (fun a s => s.cursor.Genuine ∧ Q a) fun e _ => ∀ t, e ≠ .invalidNumber t

abbrev Builds {α : Type} (p : Parse α) (Q : α → Prop) : Prop :=
  BuildsFrom (fun s => s.cursor.Genuine) p Q

section Rules
variable {α β : Type} {P : ParseState → Prop} {Q : α → Prop} {S : β → Prop} {p : Parse α}
  {f : α → Parse β} {q : Parse β} {c : Cursor}

lemma BuildsFrom.bind (hp : BuildsFrom P p Q) (hf : ∀ a, Q a → Builds (f a) S) :
    BuildsFrom P (p >>= f) S := by
  refine Ends.bind hp fun a => .known (fun _ hs => hs.2) fun ha => ?_
  exact (hf a ha).strengthen fun _ hs => hs.1

lemma BuildsFrom.map {g : α → β} (hp : BuildsFrom P p Q) (hg : ∀ a, Q a → S (g a)) :
    BuildsFrom P (g <$> p) S := Ends.map hp fun a _ hs => ⟨hs.1, hg a hs.2⟩

lemma BuildsFrom.past (hp : BuildsFrom P p Q) (hq : Builds q S) :
    BuildsFrom P (Functor.discard p >>= fun _ => q) S := by
  have hdiscard : BuildsFrom P (Functor.discard p) fun _ => True := hp.map fun _ _ => trivial
  exact hdiscard.bind fun _ _ => hq

lemma Builds.at (h : Builds p Q) (hc : c.Genuine) : BuildsFrom (·.cursor = c) p Q :=
  Ends.strengthen h fun _ hs => hs ▸ hc

lemma builds_pure {a : α} (h : Q a) : Builds (pure a) Q := ends_pure fun _ hs => ⟨hs, h⟩

lemma builds_throw {e : ParseError} (h : ∀ t, e ≠ .invalidNumber t) : Builds (throw e) Q :=
  ends_throw fun _ _ => h

lemma builds_noOpening : Builds noOpening Q := ends_noOpening fun _ _ => by simp

lemma builds_cutOff : Builds cutOff Q := ends_cutOff fun _ _ => by simp

lemma builds_skipLayout : Builds skipLayout fun _ => True :=
  ends_skipLayout fun _ hs => ⟨hs, trivial⟩

lemma builds_note {level : LogLevel} {message : String} :
    Builds (note level message) fun _ => True :=
  fun _ hs => ⟨hs, trivial⟩

lemma builds_current_bind {f : Token → Parse β} (h : ∀ t, Builds (f t) S) :
    Builds (current >>= f) S :=
  ends_current_bind fun t => (h t).strengthen fun _ hs => hs.1

lemma builds_budget_bind {f : Nat → Parse β} (h : ∀ n, Builds (f n) S) :
    Builds (budget >>= f) S :=
  ends_budget_bind fun n => (h n).strengthen fun _ hs => hs.1

/-- An action that starts with the token in front of it, whichever that is. -/
lemma builds_facing {f : Cursor → Parse β}
    (h : ∀ c, c.Genuine → c.Facing → BuildsFrom (·.cursor = c) (f c) S) :
    Builds (skipLayout >>= fun _ => cursor >>= f) S := by
  have hskip : Ends (fun s => s.cursor.Genuine) skipLayout
      (fun _ s => s.cursor.Genuine ∧ s.cursor.Facing) fun e _ => ∀ t, e ≠ .invalidNumber t :=
    ends_skipLayout fun s hs => ⟨hs, s.cursor.facing_skipLayout⟩
  refine hskip.bind fun _ => ends_cursor_bind fun c => ?_
  refine .known (fun _ hs => (hs.2 ▸ hs.1 : c.Genuine ∧ c.Facing)) fun hc => ?_
  exact (h c hc.1 hc.2).strengthen fun _ hs => hs.2

lemma note_at {level : LogLevel} {message : String} (hq : BuildsFrom (·.cursor = c) q S) :
    BuildsFrom (·.cursor = c) (note level message >>= fun _ => q) S :=
  (ends_note fun _ _ hs => hs).bind fun _ => hq

lemma Expected.mismatch_ne_invalidNumber (expected : Expected) (found t : Token) :
    expected.mismatch found ≠ .invalidNumber t := by
  cases expected <;> simp [mismatch]

lemma builds_expect {kinds : List TokenKind} :
    Builds (expect kinds) fun t => t.Genuine ∧ t.kind ∈ kinds :=
  ends_take (.kinds kinds) (fun _ hs hm => ⟨hs, hs.next, List.contains_iff_mem.1 hm⟩)
    fun _ _ => Expected.mismatch_ne_invalidNumber _ _

lemma expect_at {kinds : List TokenKind} (hc : c.Genuine) :
    BuildsFrom (·.cursor = c) (expect kinds) fun t => t = c.next ∧ t.kind ∈ kinds := by
  refine ends_take (.kinds kinds) (fun s hs hm => ?_) fun _ _ =>
    Expected.mismatch_ne_invalidNumber _ _
  subst hs
  exact ⟨hc, rfl, List.contains_iff_mem.1 hm⟩

lemma builds_expectWord {words : List String} :
    Builds (expectWord words) fun t => t.kind = .identifier ∧ t.value ∈ words := by
  refine ends_take (.words words) (fun s hs hm => ⟨hs, ?_⟩) fun _ _ =>
    Expected.mismatch_ne_invalidNumber _ _
  simpa [Expected.isMet] using hm

lemma builds_check {kinds : List TokenKind} : Builds (check kinds) fun _ => True :=
  ends_test (.kinds kinds) fun _ _ hs => ⟨hs, trivial⟩

lemma builds_checkWord {words : List String} : Builds (checkWord words) fun _ => True :=
  ends_test (.words words) fun _ _ hs => ⟨hs, trivial⟩

end Rules

/-- A number token is read as the number it spells. -/
lemma readNumber?_genuine {t : Token} (h : t.Genuine) (hk : t.kind = .number) :
    ∃ value, readNumber? t.value = some value ∧ IsNumeral value :=
  ⟨_, readNumber?_digitRun (h.number hk), t.value, h.number hk, rfl⟩

section Expressions
variable {inner : Inner} {left : Expression} {power : Power} {c : Cursor}

def InnerBuilds (inner : Inner) : Prop := ∀ limit, Builds (inner limit) fun e => Regular e.nodes

/-- The words that ask for the history of a variable are never read as symbols. -/
lemma primary_at (hc : c.Genuine) (hf : c.Facing)
    (ho : Grammar.stock.opening? c.current = some (.primary, power)) :
    BuildsFrom (·.cursor = c) primary fun e => Regular e.nodes := by
  unfold primary
  refine (expect_at hc).bind fun t ht => ?_
  obtain ⟨rfl, hk⟩ := ht
  rw [hf.current_eq] at ho
  split
  · next hnumber =>
    obtain ⟨value, hread, hvalue⟩ := readNumber?_genuine hc.next hnumber
    simp only [hread]
    exact builds_pure (by simpa [Expression.nodes, Expression.InLanguage] using hvalue)
  · exact builds_pure (by simp [Expression.nodes, Expression.InLanguage])
  · next hnumber hstring =>
    have hword : c.next.kind = .identifier := by
      simp only [List.mem_cons, List.not_mem_nil, or_false] at hk
      exact (hk.resolve_left hnumber).resolve_left hstring
    have hname : c.next.value ∉ Grammar.stateWords := by
      intro hw
      rw [Grammar.opening?_stateWord hword hw] at ho
      exact absurd ho (by simp)
    exact builds_pure (by simpa [Expression.nodes, Expression.InLanguage] using hname)

lemma builds_grouping (h : InnerBuilds inner) :
    Builds (grouping inner) fun e => Regular e.nodes := by
  unfold grouping
  refine builds_expect.past ((h .lowest).bind fun e he => ?_)
  exact builds_expect.past (builds_pure he)

lemma builds_unary (h : InnerBuilds inner) :
    Builds (unary inner) fun e => Regular e.nodes := by
  unfold unary
  refine builds_expect.bind fun t ht => (h .unary).bind fun e he => builds_pure ?_
  rw [Expression.nodes, regular_cons]
  exact ⟨ht.1.unary_spelling ht.2, he⟩

lemma builds_reference {context : ShapeContext} {span : Span} {e : Expression}
    (he : Regular e.nodes) : Builds (reference context span e) fun r => Regular r.nodes := by
  unfold reference
  cases hr : Reference.ofExpression? e with
  | none => exact builds_throw (by simp)
  | some r =>
    refine builds_pure ?_
    rw [← r.nodes_toExpression, Reference.toExpression_of_ofExpression? hr]
    exact he

lemma builds_stateOperator :
    Builds stateOperator fun t => t.kind = .identifier ∧ t.value ∈ Grammar.stateWords ∨
      t.kind ∈ [TokenKind.plusPlus, .minusMinus] ∧ t.value ∈ ["++", "--"] := by
  unfold stateOperator
  refine builds_checkWord.bind fun b _ => ?_
  cases b with
  | true => exact builds_expectWord.weaken fun t _ ht => ⟨ht.1, .inl ht.2⟩
  | false =>
    exact builds_expect.weaken fun t _ ht => ⟨ht.1, .inr ⟨ht.2.2, ht.2.1.state_spelling ht.2.2⟩⟩

lemma builds_state (h : InnerBuilds inner) : Builds (state inner) fun e => Regular e.nodes := by
  unfold state
  refine builds_stateOperator.bind fun t ht => (h .unary).bind fun e he => ?_
  refine (builds_reference he).bind fun r hr => builds_pure ?_
  rw [Expression.nodes, regular_cons]
  exact ⟨ht, hr⟩

lemma opening_at {rule : OpeningRule} (h : InnerBuilds inner) (hc : c.Genuine) (hf : c.Facing)
    (ho : Grammar.stock.opening? c.current = some (rule, power)) :
    BuildsFrom (·.cursor = c) (opening inner rule) fun e => Regular e.nodes := by
  cases rule with
  | primary => exact primary_at hc hf ho
  | grouping => exact (builds_grouping h).at hc
  | unary => exact (builds_unary h).at hc
  | state => exact (builds_state h).at hc

lemma operation_eq_none {t : Token} (h : t.Genuine) (ho : (operatorPower? t).isSome) :
    t.operation = none := by
  cases hop : t.operation with
  | none => rfl
  | some kind =>
    have hnone : operatorPower? t = none := by
      unfold operatorPower?
      rw [Grammar.joining?_of_kind (h.operation kind hop).1 rfl]
      rfl
    rw [hnone] at ho
    exact absurd ho (by simp)

/-- The operator is the token in front of the cursor, for which the grammar found this rule. -/
lemma binary_at (h : InnerBuilds inner) (hleft : Regular left.nodes) (hc : c.Genuine)
    (hj : Grammar.stock.joining? c.current = some (.binary, power)) :
    BuildsFrom (·.cursor = c) (binary inner left power) fun e => Regular e.nodes := by
  have hadvance : BuildsFrom (·.cursor = c) (advance 1) fun t => t = c.current := by
    intro s hs
    subst hs
    exact ⟨hc, rfl⟩
  unfold binary
  refine hadvance.bind fun t ht => (h power).bind fun e he => builds_pure ?_
  subst ht
  have hpower : (operatorPower? c.current).isSome := by
    rw [operatorPower?_eq_some.2 hj]
    rfl
  simp only [Expression.nodes, regular_cons, regular_append]
  exact ⟨⟨hpower, operation_eq_none (hc.tokenAt _) hpower⟩, hleft, he⟩

/-- Every operator that combines is one between two operands. -/
lemma operatorPower?_combinedOperator (t : Token) {kind : TokenKind} (h : kind.combines) :
    (operatorPower? (combinedOperator t kind)).isSome := by
  cases kind <;> first | rfl | exact absurd h (by decide)

lemma builds_assignment (h : InnerBuilds inner) (hleft : Regular left.nodes) :
    Builds (assignment inner left) fun e => Regular e.nodes := by
  unfold assignment
  refine builds_current_bind fun t => (builds_reference hleft).bind fun target htarget => ?_
  refine builds_expect.bind fun t ht => (h .assignment).bind fun value hvalue => ?_
  cases ho : t.operation with
  | none =>
    refine builds_pure ?_
    simp only [Expression.nodes, regular_cons, regular_append]
    exact ⟨trivial, htarget, hvalue⟩
  | some kind =>
    refine builds_pure ?_
    simp only [Expression.nodes, regular_cons, regular_append, Reference.nodes_toExpression]
    have hcombines := (ht.1.operation kind ho).2
    exact ⟨trivial, htarget, ⟨operatorPower?_combinedOperator t hcombines, rfl⟩, htarget, hvalue⟩

lemma builds_member (h : InnerBuilds inner) (hleft : Regular left.nodes) :
    Builds (member inner left power) fun e => Regular e.nodes := by
  have hmember : ∀ (property : Expression) (computed : Bool), Regular property.nodes →
      (computed ∨ property.isName) → Regular (Expression.member left property computed).nodes := by
    intro property computed hproperty hname
    simp only [Expression.nodes, regular_cons, regular_append]
    exact ⟨hname, hleft, hproperty⟩
  unfold member
  refine builds_current_bind fun t => ?_
  split
  · refine builds_expect.bind fun dot _ => (h power).bind fun property hproperty => ?_
    split
    · exact builds_pure (hmember _ _ hproperty (.inr rfl))
    · exact builds_pure (hmember _ _ hproperty (.inr rfl))
    · exact builds_throw (by simp)
  · refine builds_expect.past ((h .lowest).bind fun property hproperty => ?_)
    exact builds_expect.past (builds_pure (hmember _ _ hproperty (.inl rfl)))

lemma builds_separator (isFirst : Bool) : Builds (separator isFirst) fun _ => True := by
  cases isFirst with
  | true => exact builds_pure trivial
  | false => exact BuildsFrom.map builds_expect fun _ _ => trivial

lemma builds_arguments (h : InnerBuilds inner) (n : Nat) (isFirst : Bool) :
    Builds (arguments inner n isFirst) fun es => Regular (Expression.allNodes es) := by
  induction n generalizing isFirst with
  | zero => exact builds_cutOff
  | succ n ih =>
    refine builds_skipLayout.bind fun _ _ => builds_current_bind fun t => ?_
    split
    · exact builds_pure regular_nil
    refine (builds_separator isFirst).bind fun _ _ => (h .lowest).bind fun e he => ?_
    refine (ih false).bind fun es hes => builds_pure ?_
    rw [Expression.allNodes, regular_append]
    exact ⟨he, hes⟩

lemma builds_call (h : InnerBuilds inner) (n : Nat) (hleft : Regular left.nodes) :
    Builds (call inner n left) fun e => Regular e.nodes := by
  unfold call
  refine builds_expect.past ((builds_arguments h n true).bind fun es hes => ?_)
  refine builds_expect.past (builds_pure ?_)
  simp only [Expression.nodes, regular_cons, regular_append]
  exact ⟨trivial, hleft, hes⟩

lemma joining_at {rule : JoiningRule} (h : InnerBuilds inner) (n : Nat) (hleft : Regular left.nodes)
    (hc : c.Genuine) (hj : Grammar.stock.joining? c.current = some (rule, power)) :
    BuildsFrom (·.cursor = c) (joining inner n left power rule) fun e => Regular e.nodes := by
  cases rule with
  | binary => exact binary_at h hleft hc hj
  | assignment => exact (builds_assignment h hleft).at hc
  | member => exact (builds_member h hleft).at hc
  | call => exact (builds_call h n hleft).at hc

lemma builds_climb (h : InnerBuilds inner) (limit : Power) (n : Nat) (hleft : Regular left.nodes) :
    Builds (climb .stock inner limit n left) fun e => Regular e.nodes := by
  induction n generalizing left with
  | zero => exact builds_cutOff
  | succ n ih =>
    refine builds_facing fun c hc _ => ?_
    cases hj : Grammar.stock.joining? c.current with
    | none => exact (builds_pure hleft).at hc
    | some found =>
      obtain ⟨rule, power⟩ := found
      dsimp only
      split
      · exact note_at ((joining_at h n hleft hc hj).bind fun e he => ih he)
      · exact (builds_pure hleft).at hc

lemma builds_expression (n : Nat) : InnerBuilds (expression .stock n) := by
  induction n with
  | zero => exact fun _ => builds_cutOff
  | succ n ih =>
    intro limit
    refine builds_facing fun c hc hf => ?_
    cases ho : Grammar.stock.opening? c.current with
    | none => exact builds_noOpening.at hc
    | some found =>
      exact note_at ((opening_at ih hc hf ho).bind fun e he => builds_climb ih limit n he)

lemma builds_parseExpression (limit : Power) :
    Builds (parseExpression .stock limit) fun e => Regular e.nodes :=
  builds_budget_bind fun n => builds_expression n limit

lemma builds_parseExpressionStatement :
    Builds (parseExpressionStatement .stock) fun e => Regular e.nodes := by
  unfold parseExpressionStatement
  refine (builds_parseExpression .lowest).bind fun e he => ?_
  exact builds_expect.past (builds_pure he)

end Expressions

section Statements
variable {p : Parse Statement}

lemma builds_duration : Builds duration fun d => d = Binary.infinity false ∨ IsNumeral d := by
  unfold duration
  refine builds_checkWord.bind fun b _ => ?_
  cases b with
  | true => exact builds_expectWord.past (builds_pure (.inl rfl))
  | false =>
    refine builds_expect.bind fun t ht => ?_
    have hnumber : t.kind = .number := List.mem_singleton.1 ht.2
    obtain ⟨value, hread, hvalue⟩ := readNumber?_genuine ht.1 hnumber
    simp only [hread]
    exact builds_pure (.inr hvalue)

lemma builds_lifetimeUnit : Builds lifetimeUnit fun _ => True := by
  unfold lifetimeUnit
  refine builds_checkWord.bind fun b _ => ?_
  cases b with
  | true => exact builds_expectWord.past (builds_pure trivial)
  | false => exact builds_pure trivial

lemma builds_lifetime? : Builds lifetime? fun lifetime => ∀ l ∈ lifetime, l.Writable := by
  unfold lifetime?
  refine builds_check.bind fun b _ => ?_
  cases b with
  | true =>
    refine builds_expect.past (builds_duration.bind fun d hd => ?_)
    refine builds_lifetimeUnit.bind fun unit _ => builds_expect.past (builds_pure ?_)
    rintro l ⟨⟩
    exact hd
  | false => exact builds_pure (by simp)

lemma builds_modifier : Builds modifier fun _ => True := by
  unfold modifier
  exact builds_expectWord.bind fun t _ => builds_pure trivial

lemma builds_initializer? :
    Builds (initializer? .stock) fun value => Regular (value.toList.flatMap Expression.nodes) := by
  unfold initializer?
  refine builds_check.bind fun b _ => ?_
  cases b with
  | true =>
    refine builds_expect.past ((builds_parseExpression .lowest).map fun e he => ?_)
    simpa using he
  | false => exact builds_pure (by simp)

/-- What reading a statement gives: an end marker, or a statement with nodes that sources have. -/
def IsRead (a : Statement) : Prop := a.isSentinel ∨ Regular a.nodes

lemma builds_variableDeclaration : Builds (variableDeclaration .stock) IsRead := by
  unfold variableDeclaration
  refine builds_modifier.bind fun canReassign _ => builds_modifier.bind fun canMutate _ => ?_
  refine builds_expect.bind fun identifier _ => builds_lifetime?.bind fun lifetime hl => ?_
  refine builds_initializer?.bind fun value hv => builds_expect.past (builds_pure (.inr ?_))
  rw [Statement.nodes, regular_cons]
  exact ⟨hl, hv⟩

lemma builds_parameters (n : Nat) (isFirst : Bool) :
    Builds (parameters n isFirst) fun ps => ∀ p ∈ ps, p.Writable := by
  induction n generalizing isFirst with
  | zero => exact builds_cutOff
  | succ n ih =>
    refine builds_skipLayout.bind fun _ _ => builds_current_bind fun t => ?_
    split
    · exact builds_pure (by simp)
    refine (builds_separator isFirst).bind fun _ _ => builds_expect.bind fun identifier hi => ?_
    refine builds_lifetime?.bind fun lifetime hl => (ih false).bind fun ps hps => builds_pure ?_
    exact List.forall_mem_cons.2 ⟨⟨List.mem_singleton.1 hi.2, hl⟩, hps⟩

/-- No end marker gets into a list of statements. -/
lemma builds_statements (h : Builds p IsRead) (n : Nat) :
    Builds (statements p n) fun ss => Regular (Statement.allNodes ss) := by
  induction n with
  | zero => exact builds_cutOff
  | succ n ih =>
    refine h.bind fun a ha => ?_
    by_cases hs : a.isSentinel
    · rw [if_pos hs]
      exact builds_pure regular_nil
    · rw [if_neg hs]
      refine ih.bind fun ss hss => builds_pure ?_
      rw [Statement.allNodes, regular_append]
      exact ⟨ha.resolve_left hs, hss⟩

lemma builds_block (h : Builds p IsRead) :
    Builds (block p) fun body => Regular (Statement.allNodes body) := by
  unfold block
  refine builds_expect.past (builds_budget_bind fun n => ?_)
  refine (builds_statements h n).bind fun body hbody => ?_
  exact builds_expect.past (builds_pure hbody)

lemma builds_asyncMark : Builds asyncMark fun _ => True := by
  unfold asyncMark
  refine builds_checkWord.bind fun b _ => ?_
  cases b with
  | true => exact builds_expectWord.past (builds_pure trivial)
  | false => exact builds_pure trivial

lemma builds_functionBody (h : Builds p IsRead) :
    Builds (functionBody .stock p) fun body => Regular body.nodes := by
  unfold functionBody
  refine builds_check.bind fun b _ => ?_
  cases b with
  | true => exact (builds_block h).map fun body hbody => hbody
  | false => exact builds_parseExpressionStatement.map fun e he => he

lemma builds_functionDeclaration (h : Builds p IsRead) :
    Builds (functionDeclaration .stock p) IsRead := by
  unfold functionDeclaration
  refine builds_asyncMark.bind fun isAsync _ => builds_expectWord.past ?_
  refine builds_expect.bind fun identifier hi => ?_
  refine builds_expect.past (builds_budget_bind fun n => ?_)
  refine (builds_parameters n true).bind fun params hparams => ?_
  refine builds_expect.past (builds_expect.past ?_)
  refine (builds_functionBody h).bind fun body hbody => builds_pure (.inr ?_)
  rw [Statement.nodes, regular_cons]
  exact ⟨⟨List.mem_singleton.1 hi.2, hparams⟩, hbody⟩

lemma builds_returning : Builds (returning .stock) IsRead := by
  unfold returning
  refine builds_expectWord.past ((builds_parseExpression .lowest).bind fun argument ha => ?_)
  refine builds_expect.past (builds_pure (.inr ?_))
  rw [Statement.nodes, regular_cons]
  exact ⟨trivial, ha⟩

lemma builds_guarded (h : Builds p IsRead) (word : String) :
    Builds (guarded .stock p word) fun found =>
      Regular found.1.nodes ∧ Regular (Statement.allNodes found.2) := by
  unfold guarded
  refine builds_expectWord.past (builds_expect.past ?_)
  refine (builds_parseExpression .lowest).bind fun test htest => ?_
  refine builds_expect.past ((builds_block h).bind fun body hbody => ?_)
  exact builds_pure ⟨htest, hbody⟩

lemma builds_alternate {q : Parse Conditional} (h : Builds p IsRead)
    (hq : Builds q fun branch => Regular branch.nodes) :
    Builds (alternate p q) fun alternate => Regular alternate.nodes := by
  unfold alternate
  refine builds_checkWord.bind fun b _ => ?_
  cases b with
  | false => exact builds_pure regular_nil
  | true =>
    refine builds_expectWord.past (builds_checkWord.bind fun b _ => ?_)
    cases b with
    | true => exact hq.map fun branch hbranch => hbranch
    | false => exact (builds_block h).map fun body hbody => hbody

lemma builds_conditional (h : Builds p IsRead) (n : Nat) :
    Builds (conditional .stock p n) fun branch => Regular branch.nodes := by
  induction n with
  | zero => exact builds_cutOff
  | succ n ih =>
    refine (builds_guarded h "if").bind fun found hfound => ?_
    refine (builds_alternate h ih).bind fun alternate halternate => builds_pure ?_
    rw [Conditional.nodes, regular_append, regular_append]
    exact ⟨hfound, halternate⟩

lemma builds_when (h : Builds p IsRead) : Builds (when .stock p) IsRead := by
  unfold when
  refine (builds_guarded h "when").bind fun found hfound => builds_pure (.inr ?_)
  rw [Statement.nodes, regular_cons, regular_append]
  exact ⟨trivial, hfound⟩

lemma builds_ruled (h : Builds p IsRead) (rule : StatementRule) :
    Builds (ruled .stock p rule) IsRead := by
  cases rule with
  | variableDeclaration => exact builds_variableDeclaration
  | functionDeclaration => exact builds_functionDeclaration h
  | returning => exact builds_returning
  | conditional =>
    refine builds_budget_bind fun n => (builds_conditional h n).bind fun branch hbranch => ?_
    exact builds_pure (.inr (by simpa [Statement.nodes, Statement.InLanguage] using hbranch))
  | when => exact builds_when h
  | block =>
    refine (builds_block h).bind fun body hbody => builds_pure (.inr ?_)
    simpa [Statement.nodes, Statement.InLanguage] using hbody
  | endOfFile => exact builds_expect.past (builds_pure (.inl rfl))

lemma builds_statement (n : Nat) : Builds (statement .stock n) IsRead := by
  induction n with
  | zero => exact builds_cutOff
  | succ n ih =>
    refine builds_skipLayout.bind fun _ _ => builds_current_bind fun t => ?_
    cases Grammar.stock.statement? t with
    | some rule => exact builds_ruled ih rule
    | none =>
      dsimp only
      split
      · exact builds_pure (.inl rfl)
      · refine builds_parseExpressionStatement.bind fun e he => builds_pure (.inr ?_)
        simpa [Statement.nodes, Statement.InLanguage] using he

lemma builds_parseStatement : Builds (parseStatement .stock) IsRead :=
  builds_budget_bind builds_statement

lemma builds_programBody (n : Nat) :
    Builds (programBody .stock n) fun program => Regular program.nodes := by
  induction n with
  | zero => exact builds_cutOff
  | succ n ih =>
    refine builds_parseStatement.bind fun a ha => ?_
    split
    · exact builds_pure regular_nil
    · exact builds_current_bind fun t => builds_throw (by simp)
    · next hfile hblock =>
      have hs : ¬ a.isSentinel := by cases a <;> simp_all [Statement.isSentinel]
      refine ih.bind fun program hprogram => builds_pure ?_
      rw [Block.nodes, Statement.allNodes, regular_append]
      exact ⟨ha.resolve_left hs, hprogram⟩

lemma builds_parseProgram : Builds (parseProgram .stock) fun program => Regular program.nodes := by
  unfold parseProgram
  refine builds_budget_bind fun n => (builds_programBody n).bind fun program hprogram => ?_
  exact builds_note.bind fun _ _ => builds_pure hprogram

end Statements

/-- Reading a source gives a program with nodes that sources have, or it fails, but never because of
a number. -/
lemma parseSource_cases (source : String) :
    (∃ e, parseSource source = .error (.scan e)) ∨
    (∃ program : Block, parseSource source = .ok program ∧ Regular program.nodes) ∨
    ∃ e, parseSource source = .error (.parse e) ∧ ∀ t, e ≠ .invalidNumber t := by
  unfold parseSource
  cases htokens : tokenize source with
  | error e => exact .inl ⟨e, rfl⟩
  | ok tokens =>
    have hgenuine : (ParseState.ofTokens tokens).cursor.Genuine :=
      Cursor.genuine_ofTokens (genuine_of_tokenize htokens)
    dsimp only [parseTokens]
    cases hrun : ((parseProgram .stock).run (.ofTokens tokens)).1 with
    | ok program =>
      exact .inr (.inl ⟨program, rfl, (builds_parseProgram.of_ok hgenuine hrun).2⟩)
    | error e => exact .inr (.inr ⟨e, rfl, builds_parseProgram.of_error hgenuine hrun⟩)

end Parse

/-- Every node of a program that a source spells is one that sources have, at whatever depth. -/
theorem parseSource_inLanguage {source : String} {program : Block}
    (h : parseSource source = .ok program) : ∀ node ∈ program.nodes, node.InLanguage := by
  obtain ⟨e, he⟩ | ⟨found, hfound, hregular⟩ | ⟨e, he, -⟩ := Parse.parseSource_cases source
  · exact absurd (h.symm.trans he) (by simp)
  · obtain rfl := Except.ok.inj (h.symm.trans hfound)
    exact hregular
  · exact absurd (h.symm.trans he) (by simp)

/-- A combined assignment stands for a binary operator whose token the source does not have. -/
theorem parseSource_inLanguage_combined :
    ∃ program, parseSource "x+=-y.z!" = .ok program ∧ program.nodes.length = 9 ∧
      ∀ node ∈ program.nodes, node.InLanguage := by
  have hread : (parseSource "x+=-y.z!").toOption.map (·.nodes.length) = some 9 := by
    decide +kernel
  cases h : parseSource "x+=-y.z!" with
  | error e => simp [h, Except.toOption] at hread
  | ok program =>
    have hlength : program.nodes.length = 9 := by simpa [h, Except.toOption] using hread
    exact ⟨program, rfl, hlength, parseSource_inLanguage h⟩

end Exclaim
