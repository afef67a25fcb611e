import Exclaim.Proofs.Parse.Takes
import Exclaim.Proofs.Tree.Nodes

/-! Brackets and punctuation of a program. They leave no trace in its tree, but the tree says how
many there are: every bracket is closed by its own kind, and every terminator, arrow and comma
belongs to a node that calls for it. -/
namespace Exclaim

/-- The closing brackets that are due behind one more token. A bracket that is not due closes
nothing. -/
def due (pending : List TokenKind) (t : Token) : Option (List TokenKind) :=
  match t.kind with
  | .openParen => some (.closeParen :: pending)
  | .openBracket => some (.closeBracket :: pending)
  | .openCurly => some (.closeCurly :: pending)
  | .closeParen | .closeBracket | .closeCurly =>
      if pending.head? = some t.kind then some pending.tail else none
  | _ => some pending

/-- Whether the brackets among some tokens are properly nested: each one that closes is due, and
none is due in the end. -/
def Nested (ts : List Token) : Prop := ts.foldlM due [] = some []

instance (ts : List Token) : Decidable (Nested ts) := inferInstanceAs (Decidable (_ = _))

/-- The tokens that are counted. -/
inductive Punctuation where
  | terminator
  | arrow
  | comma
  | colon
deriving DecidableEq, Repr

/-- Whether a token is of this sort. -/
def Punctuation.marks (mark : Punctuation) (t : Token) : Bool :=
  match mark with
  | terminator => t.kind.isTerminator
  | arrow => t.kind == .arrow
  | comma => t.kind == .comma
  | colon => t.kind == .colon

/-- A body that is an expression ends like a statement. -/
def FunctionBody.terminators : FunctionBody → Nat
  | .expression _ => 1
  | .block _ => 0

/-- How many tokens of a sort a node calls for, besides those of the nodes in it. Nothing calls for
a colon. -/
def Node.owes (mark : Punctuation) : Node → Nat
  | .expression (.call _ arguments) => if mark = .comma then arguments.length - 1 else 0
  | .expression _ => 0
  | .statement (.expression _) | .statement (.variableDeclaration ..) | .statement (.returning _) =>
      if mark = .terminator then 1 else 0
  | .statement (.functionDeclaration _ parameters _ body) =>
      match mark with
      | .terminator => body.terminators
      | .arrow => 1
      | .comma => parameters.length - 1
      | .colon => 0
  | .statement _ => 0

/-- How many tokens of a sort some nodes call for. -/
def owed (mark : Punctuation) (nodes : List Node) : Nat := (nodes.map (Node.owes mark)).sum

section Owed
variable {mark : Punctuation} {node : Node} {nodes nodes' : List Node}

@[simp] lemma owed_nil : owed mark [] = 0 := rfl

@[simp] lemma owed_cons : owed mark (node :: nodes) = node.owes mark + owed mark nodes := by
  simp [owed]

@[simp] lemma owed_append : owed mark (nodes ++ nodes') = owed mark nodes + owed mark nodes' := by
  simp [owed]

end Owed

mutual

/-- Expressions call for commas only. -/
lemma Expression.owed_nodes {mark : Punctuation} (h : mark ≠ .comma) :
    ∀ e : Expression, owed mark e.nodes = 0
  | .assignment target value => by
      simp [Expression.nodes, Node.owes, target.owed_nodes h, value.owed_nodes h]
  | .unary operator operand => by simp [Expression.nodes, Node.owes, operand.owed_nodes h]
  | .state operator argument => by simp [Expression.nodes, Node.owes, argument.owed_nodes h]
  | .binary left operator right => by
      simp [Expression.nodes, Node.owes, left.owed_nodes h, right.owed_nodes h]
  | .number value => rfl
  | .string value => rfl
  | .symbol name => rfl
  | .object properties => by
      simp [Expression.nodes, Node.owes, Property.owed_allNodes h properties]
  | .array elements => by simp [Expression.nodes, Node.owes, Expression.owed_allNodes h elements]
  | .member object property computed => by
      simp [Expression.nodes, Node.owes, object.owed_nodes h, property.owed_nodes h]
  | .call callee arguments => by
      simp [Expression.nodes, Node.owes, h, callee.owed_nodes h,
        Expression.owed_allNodes h arguments]
  | .branching branches => by
      simp [Expression.nodes, Node.owes, Expression.owed_allNodes h branches]

lemma Reference.owed_nodes {mark : Punctuation} (h : mark ≠ .comma) :
    ∀ r : Reference, owed mark r.nodes = 0
  | .symbol name => rfl
  | .member object property computed => by
      simp [Reference.nodes, Node.owes, object.owed_nodes h, property.owed_nodes h]

lemma Property.owed_nodes {mark : Punctuation} (h : mark ≠ .comma) :
    ∀ p : Property, owed mark p.nodes = 0
  | .mk key value shorthand computed => by
      simp [Property.nodes, key.owed_nodes h, value.owed_nodes h]

lemma Expression.owed_allNodes {mark : Punctuation} (h : mark ≠ .comma) :
    ∀ es : List Expression, owed mark (Expression.allNodes es) = 0
  | [] => rfl
  | e :: es => by simp [Expression.allNodes, e.owed_nodes h, Expression.owed_allNodes h es]

lemma Property.owed_allNodes {mark : Punctuation} (h : mark ≠ .comma) :
    ∀ ps : List Property, owed mark (Property.allNodes ps) = 0
  | [] => rfl
  | p :: ps => by simp [Property.allNodes, p.owed_nodes h, Property.owed_allNodes h ps]

end

/-- The brackets with the ones that close them. -/
def brackets : List (TokenKind × TokenKind) :=
  [(.openParen, .closeParen), (.openBracket, .closeBracket), (.openCurly, .closeCurly)]

/-- Whether tokens of a kind are brackets or counted. -/
def TokenKind.isAccounted (kind : TokenKind) : Bool :=
  brackets.any (fun (opener, closer) => kind == opener || kind == closer) || kind.isTerminator ||
    kind ∈ [arrow, comma, colon]

lemma due_of_not_isAccounted {t : Token} (h : t.kind.isAccounted = false)
    (pending : List TokenKind) : due pending t = some pending := by
  obtain ⟨kind, value, operation, span, line⟩ := t
  cases kind <;> first | rfl | exact absurd h Bool.noConfusion

lemma Punctuation.marks_of_not_isAccounted {t : Token} (h : t.kind.isAccounted = false)
    (mark : Punctuation) : mark.marks t = false := by
  obtain ⟨kind, value, operation, span, line⟩ := t
  cases kind <;> first | (cases mark <;> rfl) | exact absurd h Bool.noConfusion

/-- The brackets of some tokens are closed, and their punctuation is counted. Commas are counted
where no target is copied. -/
structure Accounts (count : Punctuation → Nat) (ts : List Token) : Prop where
  closed : ∀ pending, ts.foldlM due pending = some pending
  counted : ∀ mark, (mark = .comma → ∀ t ∈ ts, t.operation = none) →
    ts.countP mark.marks = count mark

namespace Accounts
variable {count count' : Punctuation → Nat} {ts us : List Token} {t opener closer : Token}

lemma nil : Accounts (fun _ => 0) [] := ⟨fun _ => rfl, fun _ _ => rfl⟩

lemma congr (h : Accounts count ts) (hc : ∀ mark, count mark = count' mark) :
    Accounts count' ts :=
  funext hc ▸ h

lemma append (h : Accounts count ts) (h' : Accounts count' us) :
    Accounts (fun mark => count mark + count' mark) (ts ++ us) := by
  constructor
  · intro pending
    rw [List.foldlM_append, h.closed]
    exact h'.closed pending
  · intro mark hplain
    rw [List.countP_append, h.counted mark fun hm t ht => hplain hm t (by simp [ht]),
      h'.counted mark fun hm t ht => hplain hm t (by simp [ht])]

lemma cons (ht : t.kind.isAccounted = false) (h : Accounts count ts) :
    Accounts count (t :: ts) := by
  constructor
  · intro pending
    rw [List.foldlM_cons, due_of_not_isAccounted ht]
    exact h.closed pending
  · intro mark hplain
    rw [List.countP_cons_of_neg (by simp [mark.marks_of_not_isAccounted ht])]
    exact h.counted mark fun hm t ht => hplain hm t (by simp [ht])

lemma enclose (hb : (opener.kind, closer.kind) ∈ brackets) (h : Accounts count ts) :
    Accounts count (opener :: (ts ++ [closer])) := by
  simp only [brackets, List.mem_cons, Prod.mk.injEq, List.not_mem_nil, or_false] at hb
  constructor
  · intro pending
    rcases hb with ⟨ho, hc⟩ | ⟨ho, hc⟩ | ⟨ho, hc⟩ <;>
      simp [List.foldlM_append, due, ho, hc, h.closed]
  · intro mark hplain
    have hts := h.counted mark fun hm t ht => hplain hm t (by simp [ht])
    rcases hb with ⟨ho, hc⟩ | ⟨ho, hc⟩ | ⟨ho, hc⟩ <;> cases mark <;>
      simpa [Punctuation.marks, TokenKind.isTerminator, ho, hc] using hts

lemma enclose_append (hb : (opener.kind, closer.kind) ∈ brackets) (h : Accounts count ts)
    (h' : Accounts count' us) :
    Accounts (fun mark => count mark + count' mark) (opener :: (ts ++ closer :: us)) := by
  simpa using (h.enclose hb).append h'

/-- One token that is counted. -/
lemma counts {mark : Punctuation} (hd : ∀ pending, due pending t = some pending)
    (hm : ∀ mark', mark'.marks t = decide (mark' = mark)) :
    Accounts (fun mark' => if mark' = mark then 1 else 0) [t] := by
  refine ⟨fun pending => by simp [hd], fun mark' _ => ?_⟩
  rw [List.countP_singleton, hm]
  simp

lemma arrow (h : t.kind = .arrow) : Accounts (fun mark => if mark = .arrow then 1 else 0) [t] :=
  counts (fun pending => by simp [due, h]) fun mark => by
    cases mark <;> simp [Punctuation.marks, TokenKind.isTerminator, h]

lemma comma (h : t.kind = .comma) : Accounts (fun mark => if mark = .comma then 1 else 0) [t] :=
  counts (fun pending => by simp [due, h]) fun mark => by
    cases mark <;> simp [Punctuation.marks, TokenKind.isTerminator, h]

lemma terminator (h : t.kind.isTerminator) :
    Accounts (fun mark => if mark = .terminator then 1 else 0) [t] := by
  obtain ⟨kind, value, operation, span, line⟩ := t
  refine counts (fun pending => ?_) fun mark => ?_
  · cases kind <;> first | rfl | exact absurd h Bool.noConfusion
  · cases mark <;> cases kind <;> first | rfl | exact absurd h Bool.noConfusion

lemma words (h : ∀ t ∈ ts, t.kind = .identifier) : Accounts (fun _ => 0) ts := by
  induction ts with
  | nil => exact nil
  | cons t ts ih =>
    exact (ih fun u hu => h u (by simp [hu])).cons (h t (by simp) ▸ rfl)

end Accounts

lemma Separates.accounts {isFirst : Bool} {ts : List Token} (h : Separates isFirst ts) :
    Accounts (fun mark => if mark = .comma ∧ !isFirst then 1 else 0) ts := by
  cases isFirst with
  | true =>
    obtain rfl : ts = [] := h
    exact Accounts.nil.congr fun mark => by simp
  | false =>
    obtain ⟨comma, hcomma, rfl⟩ := h
    exact (Accounts.comma hcomma).congr fun mark => by simp

/-- How many commas stand in a list. -/
def separators (isFirst : Bool) (length : Nat) : Nat := if isFirst then length - 1 else length

lemma separators_cons (isFirst : Bool) (n : Nat) :
    separators isFirst (n + 1) = (if !isFirst then 1 else 0) + separators false n := by
  cases isFirst <;> simp [separators, Nat.add_comm]

lemma not_isAccounted_of_mem {kinds : List TokenKind}
    (hall : ∀ kind ∈ kinds, kind.isAccounted = false) {t : Token} (h : t.kind ∈ kinds) :
    t.kind.isAccounted = false :=
  hall _ h

mutual

lemma Expression.Spelled.accounts {e : Expression} {ts : List Token} :
    e.Spelled ts → Accounts (owed · e.nodes) ts
  | .number kind _ | .string kind | .symbol kind => Accounts.nil.cons (kind ▸ rfl)
  | .grouping opens inner closes => inner.accounts.enclose (by simp [brackets, opens, closes])
  | .unary kind right =>
      (right.accounts.cons (not_isAccounted_of_mem (by decide) kind)).congr fun mark => by
        simp [Expression.nodes, Node.owes]
  | @Expression.Spelled.state operator _ _ kind right => by
      have hkind : operator.kind.isAccounted = false := by
        rcases kind with ⟨hk, -⟩ | hk | hk <;> exact hk ▸ rfl
      exact (right.accounts.cons hkind).congr fun mark => by
        simp [Expression.nodes, Node.owes, Reference.nodes_toExpression]
  | .binary before kind behind =>
      (before.accounts.append (behind.accounts.cons
        (not_isAccounted_of_mem (by decide) (kind_of_operatorPower? kind)))).congr fun mark => by
        simp [Expression.nodes, Node.owes]
  | .assignment before kind _ behind =>
      (before.accounts.append (behind.accounts.cons
        (not_isAccounted_of_mem (by decide) kind))).congr fun mark => by
        simp [Expression.nodes, Node.owes, Reference.nodes_toExpression]
  | @Expression.Spelled.combined _ sign _ _ _ _ before kind combines behind => by
      have h := before.accounts.append
        (behind.accounts.cons (not_isAccounted_of_mem (by decide) kind))
      refine ⟨h.closed, fun mark hplain => ?_⟩
      -- The copy of the target has commas of its own, but only commas.
      by_cases hm : mark = .comma
      · have hnone : sign.operation = none := hplain hm sign (by simp)
        rw [combines] at hnone
        exact absurd hnone (by simp)
      · rw [h.counted mark fun h => absurd h hm]
        simp [Expression.owed_nodes hm]
  | .property before kind behind =>
      (before.accounts.append (behind.accounts.cons (kind ▸ rfl))).congr fun mark => by
        simp [Expression.nodes, Node.owes]
  | .element before opens inner closes =>
      (before.accounts.append
        (inner.accounts.enclose (by simp [brackets, opens, closes]))).congr fun mark => by
        simp [Expression.nodes, Node.owes]
  | .call before opens inner closes =>
      (before.accounts.append
        (inner.accounts.enclose (by simp [brackets, opens, closes]))).congr fun mark => by
        simp only [Expression.nodes, owed_cons, owed_append, Node.owes, separators, if_true]
        omega

lemma Expression.Listed.accounts {isFirst : Bool} {es : List Expression} {ts : List Token} :
    Expression.Listed isFirst es ts →
      Accounts (fun mark => owed mark (Expression.allNodes es) +
        if mark = .comma then separators isFirst es.length else 0) ts
  | .nil => Accounts.nil.congr fun mark => by
      cases isFirst <;> simp [Expression.allNodes, separators]
  | .cons separates first rest =>
      (separates.accounts.append (first.accounts.append rest.accounts)).congr fun mark => by
        by_cases hm : mark = .comma <;>
          simp [Expression.allNodes, separators_cons, hm, Nat.add_assoc, Nat.add_left_comm]

end

lemma Lifetime.Spelled.accounts {lifetime : Option Lifetime} {ts : List Token}
    (h : Lifetime.Spelled lifetime ts) : Accounts (fun _ => 0) ts := by
  cases h with
  | none => exact .nil
  | @some lifetime opener t closer us opens duration unit closes =>
    have hunit : Accounts (fun _ => 0) us := Accounts.words unit.kind_eq
    have hcloser : Accounts (fun _ => 0) [closer] := Accounts.nil.cons (closes ▸ rfl)
    have ht : t.kind.isAccounted = false := by
      rcases duration with ⟨hk, -⟩ | ⟨hk, -⟩ <;> exact hk ▸ rfl
    exact ((hunit.append hcloser).cons ht).cons (opens ▸ rfl)

lemma Parameter.Listed.accounts {isFirst : Bool} {ps : List Parameter} {ts : List Token}
    (h : Parameter.Listed isFirst ps ts) :
    Accounts (fun mark => if mark = .comma then separators isFirst ps.length else 0) ts := by
  induction h with
  | @nil isFirst => exact Accounts.nil.congr fun mark => by cases isFirst <;> simp [separators]
  | cons separates kind lifetime rest ih =>
    refine (separates.accounts.append
      ((lifetime.accounts.append ih).cons (kind ▸ rfl))).congr fun mark => ?_
    by_cases hm : mark = .comma <;> simp [separators_cons, hm]

lemma Expression.Initial.accounts {value : Option Expression} {ts : List Token}
    (h : Expression.Initial value ts) :
    Accounts (owed · (value.toList.flatMap Expression.nodes)) ts := by
  cases h with
  | none => exact .nil
  | some kind behind =>
    exact (behind.accounts.cons (kind ▸ rfl)).congr fun mark => by simp

mutual

lemma Statement.Spelled.accounts {s : Statement} {ts : List Token} :
    s.Spelled ts → Accounts (owed · s.nodes) ts
  | .expression inner stops =>
      (inner.accounts.append (.terminator stops)).congr fun mark => by
        simp [Statement.nodes, Node.owes, Nat.add_comm]
  | .block inner => inner.accounts.congr fun mark => by simp [Statement.nodes, Node.owes]
  | .variableDeclaration first_kind second_kind name_kind lives starts stops =>
      ((((lives.accounts.append (starts.accounts.append (.terminator stops))).cons
        (name_kind ▸ rfl)).cons (second_kind ▸ rfl)).cons (first_kind ▸ rfl)).congr fun mark => by
        simp [Statement.nodes, Node.owes, Nat.add_comm]
  | .functionDeclaration marks_kind word_kind name_kind opens inner closes arrow_kind behind =>
      ((Accounts.words marks_kind).append
        (((inner.accounts.enclose_append (by simp [brackets, opens, closes])
          ((Accounts.arrow arrow_kind).append behind.accounts)).cons
          (name_kind ▸ rfl)).cons (word_kind ▸ rfl))).congr fun mark => by
        cases mark <;> simp [Statement.nodes, Node.owes, separators, Nat.add_comm]
  | .returning word_kind inner stops =>
      ((inner.accounts.append (.terminator stops)).cons (word_kind ▸ rfl)).congr fun mark => by
        simp [Statement.nodes, Node.owes, Nat.add_comm]
  | .conditional inner => inner.accounts.congr fun mark => by simp [Statement.nodes, Node.owes]
  | .when inner => inner.accounts.congr fun mark => by simp [Statement.nodes, Node.owes]

lemma FunctionBody.Spelled.accounts {body : FunctionBody} {ts : List Token} :
    body.Spelled ts → Accounts
      (fun mark => owed mark body.nodes + if mark = .terminator then body.terminators else 0) ts
  | .block inner => inner.accounts.congr fun mark => by
      simp [FunctionBody.nodes, FunctionBody.terminators]
  | .expression inner stops => inner.accounts.append (.terminator stops)

lemma Conditional.Spelled.accounts {c : Conditional} {ts : List Token} :
    c.Spelled ts → Accounts (owed · c.nodes) ts
  | .mk guarded otherwise => (guarded.accounts.append otherwise.accounts).congr fun mark => by
      simp [Conditional.nodes, Nat.add_assoc]

lemma Alternate.Spelled.accounts {a : Alternate} {ts : List Token} :
    a.Spelled ts → Accounts (owed · a.nodes) ts
  | .none => .nil
  | .conditional word_kind inner => inner.accounts.cons (word_kind ▸ rfl)
  | .block word_kind inner => inner.accounts.cons (word_kind ▸ rfl)

lemma Statement.Guarded.accounts {test : Expression} {consequent : List Statement}
    {ts : List Token} : Statement.Guarded test consequent ts →
      Accounts (owed · (test.nodes ++ Statement.allNodes consequent)) ts
  | .mk word_kind opens tests closes inner =>
      ((tests.accounts.enclose_append (by simp [brackets, opens, closes]) inner.accounts).cons
        (word_kind ▸ rfl)).congr fun mark => by simp

lemma Statement.Braced.accounts {body : List Statement} {ts : List Token} :
    Statement.Braced body ts → Accounts (owed · (Statement.allNodes body)) ts
  | .mk opens inner closes => inner.accounts.enclose (by simp [brackets, opens, closes])

lemma Statement.AllSpelled.accounts {body : List Statement} {ts : List Token} :
    Statement.AllSpelled body ts → Accounts (owed · (Statement.allNodes body)) ts
  | .nil => .nil
  | .cons first rest => (first.accounts.append rest.accounts).congr fun mark => by
      simp [Statement.allNodes]

end

/-- Layout is neither a bracket nor counted. -/
lemma Accounts.of_filter {count : Punctuation → Nat} {ts : List Token}
    (h : Accounts count (ts.filter (!·.kind.isIgnorable))) : Accounts count ts := by
  have hlayout : ∀ t : Token, t.kind.isIgnorable → t.kind.isAccounted = false := by
    rintro ⟨kind, value, operation, span, line⟩ hk
    cases kind <;> first | rfl | exact absurd hk Bool.noConfusion
  constructor
  · intro pending
    rw [← h.closed pending, List.foldlM_filter]
    congr! 3 with pending t
    split
    · rfl
    · exact due_of_not_isAccounted (hlayout t (by simp_all)) pending
  · intro mark hplain
    rw [← h.counted mark fun hm t ht => hplain hm t (List.mem_of_mem_filter ht),
      List.countP_filter]
    refine List.countP_congr fun t _ => ?_
    cases hk : t.kind.isIgnorable with
    | true => simp [mark.marks_of_not_isAccounted (hlayout t hk)]
    | false => simp

/-- Nothing calls for a colon. -/
lemma owed_colon (nodes : List Node) : owed .colon nodes = 0 := by
  refine List.sum_eq_zero fun n hn => ?_
  obtain ⟨node, -, rfl⟩ := List.mem_map.1 hn
  cases node with
  | expression e => cases e <;> simp [Node.owes]
  | statement s => cases s <;> simp [Node.owes]

/-- The tokens of a program are balanced: its brackets are properly nested, and its punctuation is
what its nodes call for. No colon stands in it. -/
theorem parseTokens_balanced {body : List Token} {last : Token} (hlast : last.kind = .endOfFile)
    (hbody : ∀ t ∈ body, t.kind ≠ .endOfFile) {program : Block}
    (h : parseTokens .stock (body ++ [last]) = .ok program) :
    Nested (body ++ [last]) ∧
      (body ++ [last]).countP (Punctuation.marks .terminator) = owed .terminator program.nodes ∧
      (body ++ [last]).countP (Punctuation.marks .arrow) = owed .arrow program.nodes ∧
      (∀ t ∈ body ++ [last], t.kind ≠ .colon) ∧
      ((∀ t ∈ body ++ [last], t.operation = none) →
        (body ++ [last]).countP (Punctuation.marks .comma) = owed .comma program.nodes) := by
  have hspelled : Accounts (owed · program.nodes) body :=
    (parseTokens_spelled hlast hbody h).accounts.of_filter
  have hall := hspelled.append (Accounts.nil.cons (t := last) (hlast ▸ rfl))
  refine ⟨hall.closed [], hall.counted _ (by simp), hall.counted _ (by simp), fun t ht hk => ?_,
    fun hplain => hall.counted _ fun _ => hplain⟩
  have hcolon := hall.counted .colon (by simp)
  simp only [owed_colon, Nat.add_zero, List.countP_eq_zero] at hcolon
  exact hcolon t ht (by simp [Punctuation.marks, hk])

/-- `function f(a, b) => { g(a, (b))! }` has three pairs of parentheses and two commas. -/
theorem parseTokens_balanced_call :
    let body : List Token := [.word "function", .word "f", .mark .openParen, .word "a",
      .mark .comma, .word "b", .mark .closeParen, .mark .arrow, .mark .openCurly, .word "g",
      .mark .openParen, .word "a", .mark .comma, .mark .openParen, .word "b", .mark .closeParen,
      .mark .closeParen, .mark .exclamation, .mark .closeCurly]
    ∃ program, parseTokens .stock (body ++ [.plain .endOfFile ""]) = .ok program ∧
      Nested (body ++ [.plain .endOfFile ""]) ∧ owed .terminator program.nodes = 1 ∧
      owed .arrow program.nodes = 1 ∧ owed .comma program.nodes = 2 := by
  intro body
  have hread : (parseTokens .stock (body ++ [.plain .endOfFile ""])).toOption.any fun _ => true := by
    decide +kernel +revert
  have hbody : ∀ t ∈ body, t.kind ≠ .endOfFile := by decide
  have hplain : ∀ t ∈ body ++ [.plain .endOfFile ""], t.operation = none := by decide
  obtain ⟨program, h, -⟩ := exists_ok_of_any hread
  obtain ⟨hnested, hterminators, harrows, -, hcommas⟩ := parseTokens_balanced rfl hbody h
  exact ⟨program, h, hnested, hterminators.symm.trans (by decide), harrows.symm.trans (by decide),
    (hcommas hplain).symm.trans (by decide)⟩

end Exclaim
