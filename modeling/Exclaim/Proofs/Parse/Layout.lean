import Exclaim.Proofs.Parse.Alike

/-! Layout never changes a parse: token sequences that agree in all tokens but layout are read
alike, with trees and errors that differ in places only. -/
namespace Exclaim
namespace Parse

variable {k n n' : Nat} {inner inner' : Inner} {left left' : Expression} {t t' : Token}

section Grammars
variable {Rule : Type}

lemma find?_congr (r : Registry Rule) (h : t.unplaced = t'.unplaced) :
    Registry.find? r t = Registry.find? r t' := by
  unfold Registry.find?
  rw [Token.kind_eq h, Token.value_eq h]

lemma statement?_congr (g : Grammar) (h : t.unplaced = t'.unplaced) :
    g.statement? t = g.statement? t' := by
  unfold Grammar.statement?
  rw [find?_congr _ h]

lemma opening?_congr (g : Grammar) (h : t.unplaced = t'.unplaced) :
    g.opening? t = g.opening? t' := by
  unfold Grammar.opening?
  rw [find?_congr _ h]

lemma joining?_congr (g : Grammar) (h : t.unplaced = t'.unplaced) :
    g.joining? t = g.joining? t' := by
  unfold Grammar.joining?
  rw [find?_congr _ h]

end Grammars

/-- Two parsers for inner expressions that go alike with fewer than `K` tokens ahead. On success
they use up at least one token, and without tokens they fail. -/
def InnerAlike (K : Nat) (inner inner' : Inner) : Prop :=
  ∀ k ≤ K, ∀ limit,
    Alike (Within k) (inner limit) (inner' limit) (Gives Expression.unplaced (k - 1))

lemma alike_primary : Alike (Within k) primary primary (Gives Expression.unplaced (k - 1)) := by
  unfold primary
  refine (alike_expect (by decide)).into fun t t' h => ?_
  rw [Token.kind_eq h, Token.value_eq h]
  cases t'.kind with
  | number =>
    cases readNumber? t'.value with
    | none => exact alike_throw (congrArg ParseError.invalidNumber h)
    | some value => exact .yield rfl
  | _ => exact .yield rfl

lemma alike_grouping (h : InnerAlike (k - 1) inner inner') :
    Alike (Within k) (grouping inner) (grouping inner') (Gives Expression.unplaced (k - 1)) := by
  unfold grouping
  refine (alike_expect (by decide)).past ?_
  refine (h _ (Nat.le_refl _) .lowest).into fun e e' he => ?_
  refine (alike_expect (by decide)).past ?_
  exact (Alike.yield he).gives_mono (by omega)

lemma alike_unary (h : InnerAlike (k - 1) inner inner') :
    Alike (Within k) (unary inner) (unary inner') (Gives Expression.unplaced (k - 1)) := by
  unfold unary
  refine (alike_expect (by decide)).into fun t t' ht => ?_
  refine (h _ (Nat.le_refl _) .unary).into fun e e' he => ?_
  refine (Alike.yield ?_).gives_mono (Nat.sub_le _ _)
  simp only [Expression.unplaced, ht, he]

lemma alike_reference {context : ShapeContext} {span span' : Span}
    (h : left.unplaced = left'.unplaced) :
    Alike (Within k) (reference context span left) (reference context span' left')
      (Gives Reference.unplaced k) := by
  unfold reference
  have ho := congrArg Reference.ofExpression? h
  rw [Reference.ofExpression?_unplaced, Reference.ofExpression?_unplaced] at ho
  cases hr : Reference.ofExpression? left with
  | none =>
    cases hr' : Reference.ofExpression? left' with
    | none => exact alike_throw (by simp [ParseError.unplaced, h])
    | some r' => simp [hr, hr'] at ho
  | some r =>
    cases hr' : Reference.ofExpression? left' with
    | none => simp [hr, hr'] at ho
    | some r' =>
      rw [hr, hr'] at ho
      exact .yield (Option.some.inj ho)

lemma alike_stateOperator :
    Alike (Within k) stateOperator stateOperator (Gives Token.unplaced (k - 1)) := by
  unfold stateOperator
  refine alike_checkWord.same fun b => ?_
  cases b with
  | true => exact alike_expectWord
  | false => exact alike_expect (by decide)

lemma alike_state (h : InnerAlike (k - 1) inner inner') :
    Alike (Within k) (state inner) (state inner') (Gives Expression.unplaced (k - 1)) := by
  unfold state
  refine alike_stateOperator.into fun t t' ht => ?_
  refine (h _ (Nat.le_refl _) .unary).into fun e e' he => ?_
  refine (alike_reference he).into fun r r' hr => ?_
  refine (Alike.yield ?_).gives_mono (Nat.sub_le _ _)
  simp only [Expression.unplaced, ht, hr]

lemma alike_opening (h : InnerAlike (k - 1) inner inner') (rule : OpeningRule) :
    Alike (Within k) (opening inner rule) (opening inner' rule)
      (Gives Expression.unplaced (k - 1)) := by
  cases rule with
  | primary => exact alike_primary
  | grouping => exact alike_grouping h
  | unary => exact alike_unary h
  | state => exact alike_state h

lemma alike_binary (h : InnerAlike k inner inner') (hleft : left.unplaced = left'.unplaced)
    (power : Power) :
    Alike (Abreast k) (binary inner left power) (binary inner' left' power)
      (Gives Expression.unplaced (k - 1)) := by
  unfold binary
  refine alike_advance.into fun t t' ht => ?_
  refine (h k (Nat.le_refl _) power).into fun e e' he => ?_
  exact .yield (by simp only [Expression.unplaced, hleft, ht, he])

lemma unplaced_combinedOperator (ht : t.unplaced = t'.unplaced) (operation : TokenKind) :
    (combinedOperator t operation).unplaced = (combinedOperator t' operation).unplaced := by
  simp [combinedOperator, Token.unplaced, Token.value_eq ht]

lemma alike_assignment (h : InnerAlike k inner inner') (hleft : left.unplaced = left'.unplaced) :
    Alike (Abreast k) (assignment inner left) (assignment inner' left')
      (Gives Expression.unplaced (k - 1)) := by
  unfold assignment
  refine alike_current_bind fun _ _ _ => Alike.abreast ?_
  refine (alike_reference hleft).into fun r r' hr => ?_
  refine (alike_expect (by decide)).into fun t t' ht => ?_
  refine (h _ (Nat.sub_le _ _) .assignment).into fun e e' he => ?_
  rw [Token.operation_eq ht]
  cases t'.operation with
  | none =>
    refine (Alike.yield ?_).gives_mono (Nat.sub_le _ _)
    simp only [Expression.unplaced, hr, he]
  | some operation =>
    refine (Alike.yield ?_).gives_mono (Nat.sub_le _ _)
    simp only [Expression.unplaced, Reference.toExpression_unplaced, hr, he,
      unplaced_combinedOperator ht]

lemma unplaced_eq_symbol {e : Expression} {name : String} (h : e.unplaced = .symbol name) :
    e = .symbol name := by
  cases e <;> simp_all [Expression.unplaced]

lemma unplaced_eq_number {e : Expression} {value : Float} (h : e.unplaced = .number value) :
    e = .number value := by
  cases e <;> simp_all [Expression.unplaced]

lemma alike_member (h : InnerAlike k inner inner') (hleft : left.unplaced = left'.unplaced)
    (power : Power) :
    Alike (Abreast k) (member inner left power) (member inner' left' power)
      (Gives Expression.unplaced (k - 1)) := by
  unfold member
  refine alike_current_bind fun t t' ht => Alike.abreast ?_
  rw [Token.kind_eq ht]
  by_cases hd : t'.kind = .dot
  · rw [if_pos hd, if_pos hd]
    refine (alike_expect (by decide)).into fun dot dot' _ => ?_
    refine (h _ (Nat.sub_le _ _) power).into fun e e' he => ?_
    have hm : (Expression.member left e false).unplaced =
        (Expression.member left' e' false).unplaced := by
      simp only [Expression.unplaced, hleft, he]
    split
    · next name =>
      obtain rfl := unplaced_eq_symbol he.symm
      exact (Alike.yield hm).gives_mono (Nat.sub_le _ _)
    · next value =>
      obtain rfl := unplaced_eq_number he.symm
      exact (Alike.yield hm).gives_mono (Nat.sub_le _ _)
    · next hs hn =>
      split
      · next name => exact absurd (unplaced_eq_symbol he) (hs _)
      · next value => exact absurd (unplaced_eq_number he) (hn _)
      · exact alike_throw (by simp [ParseError.unplaced, he])
  · rw [if_neg hd, if_neg hd]
    refine (alike_expect (by decide)).past ?_
    refine (h _ (Nat.sub_le _ _) .lowest).into fun e e' he => ?_
    refine (alike_expect (by decide)).past ?_
    refine (Alike.yield ?_).gives_mono (by omega)
    simp only [Expression.unplaced, hleft, he]

lemma InnerAlike.mono {j : Nat} (h : InnerAlike k inner inner') (hj : j ≤ k) :
    InnerAlike j inner inner' := fun i hi => h i (Nat.le_trans hi hj)

lemma alike_separator (isFirst : Bool) :
    Alike (Within k) (separator isFirst) (separator isFirst) fun _ _ => Within k := by
  cases isFirst with
  | true => exact alike_pure fun _ _ hc => hc
  | false =>
    exact (alike_expect (by decide)).discard.weaken fun _ _ _ _ hc => hc.mono (Nat.sub_le _ _)

/-- Each argument uses up a token, so a budget of as many rounds as there are tokens is enough. -/
lemma alike_arguments (h : InnerAlike k inner inner') (hn : k ≤ n) (hn' : k ≤ n') (isFirst : Bool) :
    Alike (Within k) (arguments inner n isFirst) (arguments inner' n' isFirst)
      (Gives Expression.unplacedList k) := by
  induction k generalizing n n' isFirst with
  | zero => exact alike_zero
  | succ k ih =>
    obtain ⟨n, rfl⟩ := Nat.exists_eq_add_one_of_ne_zero (Nat.ne_zero_of_lt hn)
    obtain ⟨n', rfl⟩ := Nat.exists_eq_add_one_of_ne_zero (Nat.ne_zero_of_lt hn')
    refine alike_skipLayout.bind fun _ _ => alike_current_bind fun t t' ht => Alike.abreast ?_
    rw [Token.kind_eq ht]
    by_cases hc : t'.kind = .closeParen
    · rw [if_pos hc, if_pos hc]
      exact .yield rfl
    · rw [if_neg hc, if_neg hc]
      refine (alike_separator isFirst).bind fun _ _ => ?_
      refine (h (k + 1) (Nat.le_refl _) .lowest).into fun e e' he => ?_
      refine (ih (h.mono (Nat.le_succ k)) (by omega) (by omega) false).into fun es es' hes => ?_
      refine (Alike.yield ?_).gives_mono (Nat.le_succ k)
      simp only [Expression.unplacedList, he, hes]

lemma alike_call (h : InnerAlike k inner inner') (hleft : left.unplaced = left'.unplaced)
    (hn : k ≤ n + 1) (hn' : k ≤ n' + 1) :
    Alike (Within k) (call inner n left) (call inner' n' left')
      (Gives Expression.unplaced (k - 1)) := by
  unfold call
  refine (alike_expect (by decide)).past ?_
  refine (alike_arguments (h.mono (Nat.sub_le _ _)) (by omega) (by omega) true).into
    fun es es' hes => ?_
  refine (alike_expect (by decide)).past ?_
  refine (Alike.yield ?_).gives_mono (by omega)
  simp only [Expression.unplaced, hleft, hes]

lemma alike_joining (h : InnerAlike k inner inner') (hleft : left.unplaced = left'.unplaced)
    (hn : k ≤ n + 1) (hn' : k ≤ n' + 1) (power : Power) (rule : JoiningRule) :
    Alike (Abreast k) (joining inner n left power rule) (joining inner' n' left' power rule)
      (Gives Expression.unplaced (k - 1)) := by
  cases rule with
  | binary => exact alike_binary h hleft power
  | assignment => exact alike_assignment h hleft
  | member => exact alike_member h hleft power
  | call => exact (alike_call h hleft hn hn').abreast

lemma alike_climb (g : Grammar) (h : InnerAlike k inner inner') (limit : Power)
    (hleft : left.unplaced = left'.unplaced) (hn : k ≤ n) (hn' : k ≤ n') :
    Alike (Within k) (climb g inner limit n left) (climb g inner' limit n' left')
      (Gives Expression.unplaced k) := by
  induction k generalizing n n' left left' with
  | zero => exact alike_zero
  | succ k ih =>
    obtain ⟨n, rfl⟩ := Nat.exists_eq_add_one_of_ne_zero (Nat.ne_zero_of_lt hn)
    obtain ⟨n', rfl⟩ := Nat.exists_eq_add_one_of_ne_zero (Nat.ne_zero_of_lt hn')
    refine alike_skipLayout.bind fun _ _ => alike_cursor_bind fun c c' hc => ?_
    rw [joining?_congr g hc.current]
    cases g.joining? c'.current with
    | none => exact (Alike.yield hleft).abreast
    | some found =>
      obtain ⟨rule, power⟩ := found
      by_cases hp : limit < power
      · simp only [if_pos hp]
        refine alike_note.bind fun _ _ => ?_
        refine (alike_joining h hleft (by omega) (by omega) power rule).into fun e e' he => ?_
        exact (ih (h.mono (Nat.le_succ k)) he (by omega) (by omega)).gives_mono (Nat.le_succ k)
      · simp only [if_neg hp]
        exact (Alike.yield hleft).abreast

/-- The error of a parse that finds no start of an expression. -/
lemma alike_noOpening {α : Type} {Q : α → α → Cursor → Cursor → Prop} :
    Alike (Abreast k) noOpening noOpening Q :=
  alike_cursor_bind fun c c' hc => alike_throw (by simp [ParseError.unplaced, hc.current])

/-- Expressions are read alike. Both budgets are enough: every nested call comes behind a token that
was used up. -/
lemma alike_expression (g : Grammar) (hn : k ≤ n) (hn' : k ≤ n') :
    InnerAlike k (expression g n) (expression g n') := by
  induction k generalizing n n' with
  | zero =>
    intro j hj limit
    obtain rfl : j = 0 := Nat.le_zero.1 hj
    exact alike_zero
  | succ k ih =>
    intro j hj limit
    obtain ⟨n, rfl⟩ := Nat.exists_eq_add_one_of_ne_zero (Nat.ne_zero_of_lt hn)
    obtain ⟨n', rfl⟩ := Nat.exists_eq_add_one_of_ne_zero (Nat.ne_zero_of_lt hn')
    have hin : InnerAlike (j - 1) (expression g n) (expression g n') :=
      (ih (by omega) (by omega)).mono (by omega)
    refine alike_skipLayout.bind fun _ _ => alike_cursor_bind fun c c' hc => ?_
    rw [opening?_congr g hc.current]
    cases g.opening? c'.current with
    | none => exact alike_noOpening
    | some found =>
      obtain ⟨rule, power⟩ := found
      refine alike_note.bind fun _ _ => ?_
      refine (alike_opening hin rule).abreast.into fun e e' he => ?_
      exact alike_climb g hin limit he (by omega) (by omega)

lemma alike_parseExpression (g : Grammar) (limit : Power) :
    Alike (Within k) (parseExpression g limit) (parseExpression g limit)
      (Gives Expression.unplaced (k - 1)) := by
  unfold parseExpression
  refine alike_budget_bind fun j n n' hj hn hn' => ?_
  exact (alike_expression g hn hn' j (Nat.le_refl _) limit).gives_mono (by omega)

lemma alike_parseExpressionStatement (g : Grammar) :
    Alike (Within k) (parseExpressionStatement g) (parseExpressionStatement g)
      (Gives Expression.unplaced (k - 1)) := by
  unfold parseExpressionStatement
  refine (alike_parseExpression g .lowest).into fun e e' he => ?_
  refine (alike_expect (by decide)).past ?_
  exact (Alike.yield he).gives_mono (Nat.sub_le _ _)

lemma alike_duration : Alike (Within k) duration duration (Gives id (k - 1)) := by
  unfold duration
  refine alike_checkWord.same fun b => ?_
  cases b with
  | true => exact alike_expectWord.past (.yield rfl)
  | false =>
    refine (alike_expect (by decide)).into fun t t' ht => ?_
    rw [Token.value_eq ht]
    cases readNumber? t'.value with
    | none => exact alike_throw (congrArg ParseError.invalidNumber ht)
    | some value => exact .yield rfl

lemma alike_lifetimeUnit : Alike (Within k) lifetimeUnit lifetimeUnit (Gives id k) := by
  unfold lifetimeUnit
  refine alike_checkWord.same fun b => ?_
  cases b with
  | true => exact alike_expectWord.past ((Alike.yield rfl).gives_mono (Nat.sub_le _ _))
  | false => exact .yield rfl

lemma alike_lifetime? : Alike (Within k) lifetime? lifetime? (Gives id k) := by
  unfold lifetime?
  refine alike_check.same fun b => ?_
  cases b with
  | false => exact .yield rfl
  | true =>
    refine (alike_expect (by decide)).past ?_
    refine alike_duration.same fun d => alike_lifetimeUnit.same fun u => ?_
    refine (alike_expect (by decide)).past ?_
    exact (Alike.yield rfl).gives_mono (by omega)

lemma alike_modifier : Alike (Within k) modifier modifier (Gives id (k - 1)) := by
  unfold modifier
  refine alike_expectWord.into fun t t' ht => ?_
  exact .yield (by rw [Token.value_eq ht])

lemma alike_initializer? (g : Grammar) :
    Alike (Within k) (initializer? g) (initializer? g)
      (Gives (Option.map Expression.unplaced) k) := by
  unfold initializer?
  refine alike_check.same fun b => ?_
  cases b with
  | false => exact .yield rfl
  | true =>
    refine (alike_expect (by decide)).past ?_
    refine (alike_parseExpression g .lowest).map fun e e' c c' he => ?_
    exact ⟨congrArg some he.1, he.2.mono (by omega)⟩

/-- What two parses of a statement give. All but the end markers use up a token; at the end of a
block both cursors stay before the bracket. -/
structure StatementsMatch (k : Nat) (a a' : Statement) (c c' : Cursor) : Prop where
  unplaced : a.unplaced = a'.unplaced
  within : Within k c c'
  progress : a.isSentinel = false → Within (k - 1) c c'
  facing : a = .endOfBlock → c.Facing ∧ c'.Facing

/-- The end of reading a statement that is no end marker. -/
lemma alike_conclude {j : Nat} {a a' : Statement} (h : a.unplaced = a'.unplaced) (hj : j ≤ k - 1)
    (ha : a.isSentinel = false) : Alike (Within j) (pure a) (pure a') (StatementsMatch k) := by
  refine alike_pure fun _ _ hc => ⟨h, hc.mono (by omega), fun _ => hc.mono hj, ?_⟩
  rintro rfl
  exact absurd ha (by decide)

lemma alike_variableDeclaration (g : Grammar) :
    Alike (Within k) (variableDeclaration g) (variableDeclaration g) (StatementsMatch k) := by
  unfold variableDeclaration
  refine alike_modifier.same fun r => alike_modifier.same fun m => ?_
  refine (alike_expect (by decide)).into fun t t' ht => ?_
  refine alike_lifetime?.same fun l => (alike_initializer? g).into fun v v' hv => ?_
  refine (alike_expect (by decide)).past (alike_conclude ?_ (by omega) rfl)
  simp only [Statement.unplaced, Token.value_eq ht, hv]

lemma alike_parameters (hn : k ≤ n) (hn' : k ≤ n') (isFirst : Bool) :
    Alike (Within k) (parameters n isFirst) (parameters n' isFirst)
      (Gives (List.map Parameter.unplaced) k) := by
  induction k generalizing n n' isFirst with
  | zero => exact alike_zero
  | succ k ih =>
    obtain ⟨n, rfl⟩ := Nat.exists_eq_add_one_of_ne_zero (Nat.ne_zero_of_lt hn)
    obtain ⟨n', rfl⟩ := Nat.exists_eq_add_one_of_ne_zero (Nat.ne_zero_of_lt hn')
    refine alike_skipLayout.bind fun _ _ => alike_current_bind fun t t' ht => Alike.abreast ?_
    rw [Token.kind_eq ht]
    by_cases hc : t'.kind = .closeParen
    · rw [if_pos hc, if_pos hc]
      exact .yield rfl
    · rw [if_neg hc, if_neg hc]
      refine (alike_separator isFirst).bind fun _ _ => ?_
      refine (alike_expect (by decide)).into fun i i' hi => alike_lifetime?.same fun l => ?_
      refine (ih (by omega) (by omega) false).into fun ps ps' hps => ?_
      refine (Alike.yield ?_).gives_mono (Nat.le_succ k)
      simp only [List.map_cons, Parameter.unplaced, hi, hps]

lemma StatementsMatch.mono {j : Nat} {a a' : Statement} {c c' : Cursor}
    (h : StatementsMatch j a a' c c') (hj : j ≤ k) : StatementsMatch k a a' c c' :=
  ⟨h.unplaced, h.within.mono hj, fun ha => (h.progress ha).mono (by omega), h.facing⟩

/-- Two parsers for statements that go alike with fewer than `K` tokens ahead. -/
def StatementAlike (K : Nat) (p p' : Parse Statement) : Prop :=
  ∀ k ≤ K, Alike (Within k) p p' (StatementsMatch k)

variable {p p' : Parse Statement}

lemma StatementAlike.mono {j : Nat} (h : StatementAlike k p p') (hj : j ≤ k) :
    StatementAlike j p p' := fun i hi => h i (Nat.le_trans hi hj)

lemma isSentinel_congr {a a' : Statement} (h : a.unplaced = a'.unplaced) :
    a.isSentinel = a'.isSentinel := by
  rw [← a.isSentinel_unplaced, h, a'.isSentinel_unplaced]

/-- Each statement but the end marker uses up a token. -/
lemma alike_statements (h : StatementAlike k p p') (hn : k ≤ n) (hn' : k ≤ n') :
    Alike (Within k) (statements p n) (statements p' n') (Gives Statement.unplacedList k) := by
  induction k generalizing n n' with
  | zero => exact alike_zero
  | succ k ih =>
    obtain ⟨n, rfl⟩ := Nat.exists_eq_add_one_of_ne_zero (Nat.ne_zero_of_lt hn)
    obtain ⟨n', rfl⟩ := Nat.exists_eq_add_one_of_ne_zero (Nat.ne_zero_of_lt hn')
    refine (h (k + 1) (Nat.le_refl _)).bind fun a a' => ?_
    refine .known (fun _ _ hm => hm.unplaced) fun ha => ?_
    rw [isSentinel_congr ha]
    by_cases hs : a'.isSentinel
    · rw [if_pos hs, if_pos hs]
      exact (Alike.yield rfl).strengthen fun _ _ hm => hm.within
    · rw [if_neg hs, if_neg hs]
      have hs' : a.isSentinel = false := by rw [isSentinel_congr ha, Bool.eq_false_iff.2 hs]
      refine Alike.strengthen ?_ fun _ _ hm => hm.progress hs'
      refine (ih (h.mono (Nat.le_succ k)) (by omega) (by omega)).into fun ss ss' hss => ?_
      refine (Alike.yield ?_).gives_mono (Nat.le_succ k)
      simp only [Statement.unplacedList, ha, hss]

/-- A block uses up its bracket before its statements are read. -/
lemma alike_block (h : StatementAlike (k - 1) p p') :
    Alike (Within k) (block p) (block p') (Gives Statement.unplacedList (k - 1)) := by
  unfold block
  refine (alike_expect (by decide)).past (alike_budget_bind fun j n n' hj hn hn' => ?_)
  refine (alike_statements (h.mono hj) hn hn').into fun ss ss' hss => ?_
  refine (alike_expect (by decide)).past ?_
  exact (Alike.yield hss).gives_mono (by omega)

lemma alike_asyncMark : Alike (Within k) asyncMark asyncMark (Gives id k) := by
  unfold asyncMark
  refine alike_checkWord.same fun b => ?_
  cases b with
  | true => exact alike_expectWord.past ((Alike.yield rfl).gives_mono (Nat.sub_le _ _))
  | false => exact .yield rfl

lemma alike_functionBody (g : Grammar) (h : StatementAlike (k - 1) p p') :
    Alike (Within k) (functionBody g p) (functionBody g p')
      (Gives FunctionBody.unplaced (k - 1)) := by
  unfold functionBody
  refine alike_check.same fun b => ?_
  cases b with
  | true =>
    refine (alike_block h).map fun ss ss' c c' hss => ⟨?_, hss.2⟩
    simp only [FunctionBody.unplaced, hss.1]
  | false =>
    refine (alike_parseExpressionStatement g).map fun e e' c c' he => ⟨?_, he.2⟩
    simp only [FunctionBody.unplaced, he.1]

lemma alike_functionDeclaration (g : Grammar) (h : StatementAlike (k - 1) p p') :
    Alike (Within k) (functionDeclaration g p) (functionDeclaration g p') (StatementsMatch k) := by
  unfold functionDeclaration
  refine alike_asyncMark.same fun b => ?_
  refine alike_expectWord.past ((alike_expect (by decide)).into fun t t' ht => ?_)
  refine (alike_expect (by decide)).past (alike_budget_bind fun j n n' hj hn hn' => ?_)
  refine (alike_parameters hn hn' true).into fun ps ps' hps => ?_
  refine (alike_expect (by decide)).past ((alike_expect (by decide)).past ?_)
  refine (alike_functionBody g (h.mono (by omega))).into fun body body' hbody => ?_
  refine alike_conclude ?_ (by omega) rfl
  simp only [Statement.unplaced, ht, hps, hbody]

lemma alike_returning (g : Grammar) :
    Alike (Within k) (returning g) (returning g) (StatementsMatch k) := by
  unfold returning
  refine alike_expectWord.past ((alike_parseExpression g .lowest).into fun e e' he => ?_)
  refine (alike_expect (by decide)).past (alike_conclude ?_ (by omega) rfl)
  simp only [Statement.unplaced, he]

lemma alike_guarded (g : Grammar) (h : StatementAlike (k - 1) p p') (word : String) :
    Alike (Within k) (guarded g p word) (guarded g p' word)
      (Gives (fun found => (found.1.unplaced, Statement.unplacedList found.2)) (k - 1)) := by
  unfold guarded
  refine alike_expectWord.past ((alike_expect (by decide)).past ?_)
  refine (alike_parseExpression g .lowest).into fun e e' he => ?_
  refine (alike_expect (by decide)).past ?_
  refine (alike_block (h.mono (by omega))).into fun ss ss' hss => ?_
  exact (Alike.yield (Prod.ext he hss)).gives_mono (by omega)

lemma alike_alternate {q q' : Parse Conditional} (h : StatementAlike (k - 1) p p')
    (hq : Alike (Within (k - 1)) q q' (Gives Conditional.unplaced (k - 1))) :
    Alike (Within k) (alternate p q) (alternate p' q') (Gives Alternate.unplaced k) := by
  unfold alternate
  refine alike_checkWord.same fun b => ?_
  cases b with
  | false => exact .yield rfl
  | true =>
    refine alike_expectWord.past (alike_checkWord.same fun b => ?_)
    cases b with
    | true =>
      refine hq.map fun a a' c c' ha => ⟨?_, ha.2.mono (Nat.sub_le _ _)⟩
      simp only [Alternate.unplaced, ha.1]
    | false =>
      refine (alike_block (h.mono (Nat.sub_le _ _))).map fun ss ss' c c' hss => ?_
      refine ⟨?_, hss.2.mono (by omega)⟩
      simp only [Alternate.unplaced, hss.1]

/-- Each test behind `else` uses up a token. -/
lemma alike_conditional (g : Grammar) (h : StatementAlike (k - 1) p p') (hn : k ≤ n)
    (hn' : k ≤ n') :
    Alike (Within k) (conditional g p n) (conditional g p' n')
      (Gives Conditional.unplaced (k - 1)) := by
  induction k generalizing n n' with
  | zero => exact alike_zero
  | succ k ih =>
    obtain ⟨n, rfl⟩ := Nat.exists_eq_add_one_of_ne_zero (Nat.ne_zero_of_lt hn)
    obtain ⟨n', rfl⟩ := Nat.exists_eq_add_one_of_ne_zero (Nat.ne_zero_of_lt hn')
    refine (alike_guarded g h "if").into fun ⟨e, ss⟩ ⟨e', ss'⟩ hg => ?_
    obtain ⟨he, hss⟩ := Prod.mk.inj hg
    have hnext : Alike (Within (k - 1)) (conditional g p n) (conditional g p' n')
        (Gives Conditional.unplaced (k - 1)) := by
      refine Alike.strengthen ?_ fun _ _ hc => hc.mono (Nat.sub_le k 1)
      exact ih (h.mono (Nat.sub_le k 1)) (by omega) (by omega)
    refine (alike_alternate (h.mono (Nat.sub_le k 1)) hnext).into fun a a' ha => .yield ?_
    simp only [Conditional.unplaced, he, hss, ha]

lemma alike_when (g : Grammar) (h : StatementAlike (k - 1) p p') :
    Alike (Within k) (when g p) (when g p') (StatementsMatch k) := by
  unfold when
  refine (alike_guarded g h "when").into fun ⟨e, ss⟩ ⟨e', ss'⟩ hg => ?_
  obtain ⟨he, hss⟩ := Prod.mk.inj hg
  refine alike_conclude ?_ (Nat.le_refl _) rfl
  simp only [Statement.unplaced, he, hss]

/-- The end of the file may be passed over and over, so it uses up nothing. -/
lemma alike_endOfFile : Alike (Within k) endOfFile endOfFile (StatementsMatch k) := by
  unfold endOfFile
  have htake : Alike (Within k) (expect [.endOfFile]) (expect [.endOfFile])
      (Gives Token.unplaced k) :=
    alike_take _ (fun _ _ hc => hc.1) fun _ _ hc _ => hc.pass_le
  exact htake.past (alike_pure fun _ _ hc => ⟨rfl, hc, nofun, nofun⟩)

lemma alike_ruled (g : Grammar) (h : StatementAlike (k - 1) p p') (rule : StatementRule) :
    Alike (Within k) (ruled g p rule) (ruled g p' rule) (StatementsMatch k) := by
  cases rule with
  | variableDeclaration => exact alike_variableDeclaration g
  | functionDeclaration => exact alike_functionDeclaration g h
  | returning => exact alike_returning g
  | conditional =>
    refine alike_budget_bind fun j n n' hj hn hn' => ?_
    refine (alike_conditional g (h.mono (by omega)) hn hn').into fun a a' ha => ?_
    exact alike_conclude (congrArg Statement.conditional ha) (by omega) rfl
  | when => exact alike_when g h
  | block =>
    refine (alike_block h).into fun ss ss' hss => ?_
    exact alike_conclude (congrArg Statement.block hss) (Nat.le_refl _) rfl
  | endOfFile => exact alike_endOfFile

/-- Statements are read alike, whatever the grammar. -/
lemma alike_statement (g : Grammar) (hn : k ≤ n) (hn' : k ≤ n') :
    StatementAlike k (statement g n) (statement g n') := by
  induction k generalizing n n' with
  | zero =>
    intro j hj
    obtain rfl : j = 0 := Nat.le_zero.1 hj
    exact alike_zero
  | succ k ih =>
    intro j hj
    obtain ⟨n, rfl⟩ := Nat.exists_eq_add_one_of_ne_zero (Nat.ne_zero_of_lt hn)
    obtain ⟨n', rfl⟩ := Nat.exists_eq_add_one_of_ne_zero (Nat.ne_zero_of_lt hn')
    have hin : StatementAlike (j - 1) (statement g n) (statement g n') :=
      (ih (by omega) (by omega)).mono (by omega)
    refine alike_skipLayout.bind fun _ _ => alike_current_bind fun t t' ht => ?_
    rw [statement?_congr g ht, Token.kind_eq ht]
    cases g.statement? t' with
    | some rule => exact (alike_ruled g hin rule).abreast
    | none =>
      by_cases hc : t'.kind = .closeCurly
      · simp only [if_pos hc]
        exact alike_pure fun _ _ h => ⟨rfl, h.1, nofun, fun _ => h.2⟩
      · simp only [if_neg hc]
        refine (alike_parseExpressionStatement g).abreast.into fun e e' he => ?_
        exact alike_conclude (congrArg Statement.expression he) (Nat.le_refl _) rfl

lemma alike_parseStatement (g : Grammar) :
    Alike (Within k) (parseStatement g) (parseStatement g) (StatementsMatch k) := by
  unfold parseStatement
  refine alike_budget_bind fun j n n' hj hn hn' => ?_
  exact (alike_statement g hn hn' j (Nat.le_refl _)).weaken fun _ _ _ _ h => h.mono hj

lemma unplaced_eq_endOfFile {a : Statement} (h : a.unplaced = .endOfFile) : a = .endOfFile := by
  cases a <;> simp_all [Statement.unplaced]

lemma unplaced_eq_endOfBlock {a : Statement} (h : a.unplaced = .endOfBlock) : a = .endOfBlock := by
  cases a <;> simp_all [Statement.unplaced]

/-- Programs are read alike: each statement uses up a token, and a bracket that closes nothing is
faced by both cursors. -/
lemma alike_programBody (g : Grammar) (hn : k ≤ n) (hn' : k ≤ n') :
    Alike (Within k) (programBody g n) (programBody g n') (Gives Statement.unplacedList k) := by
  induction k generalizing n n' with
  | zero => exact alike_zero
  | succ k ih =>
    obtain ⟨n, rfl⟩ := Nat.exists_eq_add_one_of_ne_zero (Nat.ne_zero_of_lt hn)
    obtain ⟨n', rfl⟩ := Nat.exists_eq_add_one_of_ne_zero (Nat.ne_zero_of_lt hn')
    refine (alike_parseStatement g).bind fun a a' => .known (fun _ _ hm => hm.unplaced) fun ha => ?_
    split
    · obtain rfl := unplaced_eq_endOfFile ha.symm
      exact (Alike.yield rfl).strengthen fun _ _ hm => hm.within
    · obtain rfl := unplaced_eq_endOfBlock ha.symm
      refine Alike.strengthen (P := Abreast (k + 1)) ?_ fun _ _ hm => ⟨hm.within, hm.facing rfl⟩
      exact alike_current_bind fun t t' ht => alike_throw (congrArg ParseError.strayCloseBrace ht)
    · next hf hb =>
      split
      · exact absurd (unplaced_eq_endOfFile ha) hf
      · exact absurd (unplaced_eq_endOfBlock ha) hb
      · have hs : a.isSentinel = false := by cases a <;> simp_all [Statement.isSentinel]
        refine Alike.strengthen ?_ fun _ _ hm => hm.progress hs
        refine (ih (by omega) (by omega)).into fun ss ss' hss => ?_
        refine (Alike.yield ?_).gives_mono (Nat.le_succ k)
        simp only [Statement.unplacedList, ha, hss]

lemma alike_parseProgram (g : Grammar) :
    Alike (Within k) (parseProgram g) (parseProgram g) (Gives Block.unplaced k) := by
  unfold parseProgram
  refine alike_budget_bind fun j n n' hj hn hn' => ?_
  refine (alike_programBody g hn hn').into fun ss ss' hss => alike_note.bind fun _ _ => ?_
  exact (Alike.yield hss).gives_mono hj

/-- Both parses start before the same tokens. -/
lemma aligned_ofTokens {body body' : List Token} {last last' : Token}
    (h : last.kind = .endOfFile) (h' : last'.kind = .endOfFile)
    (hagree : ((body ++ [last]).filter (!·.kind.isIgnorable)).map Token.unplaced =
      ((body' ++ [last']).filter (!·.kind.isIgnorable)).map Token.unplaced) :
    Aligned (Cursor.ofTokens (body ++ [last])) (Cursor.ofTokens (body' ++ [last'])) := by
  have hsig : ∀ t : Token, t.kind = .endOfFile → [t].filter (!·.kind.isIgnorable) = [t] := by
    intro t ht
    simp [ht, TokenKind.isIgnorable]
  simp only [List.filter_append, hsig _ h, hsig _ h', List.map_append, List.map_cons,
    List.map_nil] at hagree
  obtain ⟨hahead, hlast⟩ := List.append_inj' hagree rfl
  rw [Cursor.ofTokens_append h, Cursor.ofTokens_append h']
  exact ⟨hahead, (List.cons.inj hlast).1, by simp [Cursor.Ended, Cursor.size]⟩

end Parse

/-- Two token sequences that agree once layout and places are left out give programs that agree up
to places, or they give errors that do. Then the messages are the same too, unless the index of a
token is part of them. -/
theorem parseTokens_alike_of_layout {body body' : List Token} {last last' : Token}
    (h : last.kind = .endOfFile) (h' : last'.kind = .endOfFile)
    (hagree : ((body ++ [last]).filter (!·.kind.isIgnorable)).map Token.unplaced =
      ((body' ++ [last']).filter (!·.kind.isIgnorable)).map Token.unplaced) :
    (∃ program program', parseTokens .stock (body ++ [last]) = .ok program ∧
      parseTokens .stock (body' ++ [last']) = .ok program' ∧
      program.unplaced = program'.unplaced) ∨
    ∃ e e', parseTokens .stock (body ++ [last]) = .error e ∧
      parseTokens .stock (body' ++ [last']) = .error e' ∧ e.unplaced = e'.unplaced ∧
      ((∀ token index, e ≠ .noOpening token index) → e.message = e'.message) := by
  have hm := Parse.alike_parseProgram .stock (.ofTokens (body ++ [last]))
    (.ofTokens (body' ++ [last'])) ⟨Parse.aligned_ofTokens h h' hagree, Nat.lt_succ_self _⟩
  unfold parseTokens
  revert hm
  rcases (parseProgram .stock).run (.ofTokens (body ++ [last])) with ⟨e | program, s⟩ <;>
    rcases (parseProgram .stock).run (.ofTokens (body' ++ [last'])) with ⟨e' | program', s'⟩
  · intro he
    exact .inr ⟨e, e', rfl, rfl, he, ParseError.message_congr he⟩
  · exact False.elim
  · exact False.elim
  · exact fun hp => .inl ⟨program, program', rfl, rfl, hp.1⟩

/-- `return x+1!` on one line, and with a line break behind every token. -/
theorem parseTokens_alike_spread :
    let word : Token := .plain .identifier "return"
    let x : Token := .plain .identifier "x"
    let plus : Token := .plain .add "+"
    let one : Token := .plain .number "1"
    let stop : Token := .plain .exclamation "!"
    let last : Token := .plain .endOfFile ""
    let gap : Token := .plain .lineBreak "\n"
    let body := [word, .plain .whiteSpace "1", x, plus, one, stop]
    let body' := [word, gap, { x with line := 2 }, gap, { plus with line := 3 }, gap, one, gap,
      stop, gap]
    (∃ program program', parseTokens .stock (body ++ [last]) = .ok program ∧
      parseTokens .stock (body' ++ [last]) = .ok program' ∧
      program.unplaced = program'.unplaced) ∨
    ∃ e e', parseTokens .stock (body ++ [last]) = .error e ∧
      parseTokens .stock (body' ++ [last]) = .error e' ∧ e.unplaced = e'.unplaced ∧
      ((∀ token index, e ≠ .noOpening token index) → e.message = e'.message) :=
  parseTokens_alike_of_layout rfl rfl rfl

end Exclaim
