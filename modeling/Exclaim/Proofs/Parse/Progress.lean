import Exclaim.Proofs.Parse.Ends

/-! Parsing ends and moves on. Whatever the grammar and the tokens are, no nested call uses up its
budget, because each one passes a token that counts before it calls itself again. -/
namespace Exclaim

/-- `s'` comes after `s` in a parse: the tokens are the same, the cursor is not before the other
one, and no call was cut off in between. -/
structure ParseState.Leads (s s' : ParseState) : Prop where
  cursor : s.cursor.Leads s'.cursor
  overrun : s'.overrun = s.overrun

namespace Parse

/-- A state after `s₀` with fewer than `k` tokens ahead. -/
def Near (s₀ : ParseState) (k : Nat) (s : ParseState) : Prop :=
  s₀.Leads s ∧ s.cursor.ahead.length < k

/-- Starting with fewer than `k` tokens ahead, the action fails after `s₀` or leaves fewer than `j`
of them. -/
def Moves (s₀ : ParseState) {α : Type} (k : Nat) (p : Parse α) (j : Nat) : Prop :=
  Ends (Near s₀ k) p (fun _ => Near s₀ j) fun _ => s₀.Leads

section Rules
variable {α β : Type} {s₀ s : ParseState} {k j i n : Nat} {p : Parse α} {f : α → Parse β}
  {q : Parse β} {S : β → ParseState → Prop}

lemma Near.mono (h : Near s₀ k s) (hk : k ≤ j) : Near s₀ j s := ⟨h.1, Nat.lt_of_lt_of_le h.2 hk⟩

lemma Near.log (h : Near s₀ k s) (log : Array Record) : Near s₀ k { s with log } :=
  ⟨⟨h.1.cursor, h.1.overrun⟩, h.2⟩

lemma Near.moved (h : Near s₀ k s) {c : Cursor} (hc : s.cursor.Leads c) :
    Near s₀ k { s with cursor := c } :=
  ⟨⟨h.1.cursor.trans hc, h.1.overrun⟩, Nat.lt_of_le_of_lt hc.length_ahead_le h.2⟩

/-- Passing a token leaves fewer ahead, unless it is the end of the file. -/
lemma Near.pass (h : Near s₀ k s) (hk : s.cursor.next.kind ≠ .endOfFile) :
    Near s₀ (k - 1) { s with cursor := s.cursor.pass } := by
  have hmoved := h.moved s.cursor.leads_pass
  have hlt := s.cursor.length_ahead_pass_lt hk
  have hle := h.2
  refine ⟨hmoved.1, ?_⟩
  change s.cursor.pass.ahead.length < k - 1
  omega

lemma Moves.mono (h : Moves s₀ k p j) (hj : j ≤ i) : Moves s₀ k p i :=
  h.weaken fun _ _ hs => hs.mono hj

lemma Moves.of_le (h : Moves s₀ k p j) (hk : i ≤ k) : Moves s₀ i p j :=
  h.strengthen fun _ hs => hs.mono hk

lemma moves_pure (a : α) : Moves s₀ k (pure a) k := ends_pure fun _ hs => hs

lemma moves_throw (e : ParseError) : Moves s₀ k (throw e : Parse α) j :=
  ends_throw fun _ hs => hs.1

lemma moves_noOpening : Moves s₀ k (noOpening : Parse α) j := ends_noOpening fun _ hs => hs.1

lemma moves_zero : Moves s₀ 0 p j := fun _ hs => absurd hs.2 (Nat.not_lt_zero _)

lemma Moves.bind (hp : Moves s₀ k p j)
    (hf : ∀ a, Ends (Near s₀ j) (f a) S fun _ => s₀.Leads) :
    Ends (Near s₀ k) (p >>= f) S fun _ => s₀.Leads := Ends.bind hp hf

lemma Moves.map {g : α → β} (hp : Moves s₀ k p j) : Moves s₀ k (g <$> p) j :=
  Ends.map hp fun _ _ hs => hs

lemma Moves.past (hp : Moves s₀ k p j) (hq : Ends (Near s₀ j) q S fun _ => s₀.Leads) :
    Ends (Near s₀ k) (Functor.discard p >>= fun _ => q) S fun _ => s₀.Leads :=
  Ends.bind hp.discard fun _ => hq

lemma leads_of_near {P : ParseState → Prop} {Q : α → ParseState → Prop}
    (h : Ends P p Q fun _ => s₀.Leads) (hQ : ∀ a s, Q a s → Near s₀ k s) {s : ParseState}
    (hs : P s) : s₀.Leads (p.run s).2 := by
  cases hrun : (p.run s).1 with
  | error e => exact h.of_error hs hrun
  | ok a => exact (hQ a _ (h.of_ok hs hrun)).1

lemma moves_note {level : LogLevel} {message : String} : Moves s₀ k (note level message) k :=
  ends_note fun _ log hs => hs.log log

lemma moves_skipLayout : Moves s₀ k skipLayout k :=
  ends_skipLayout fun s hs => hs.moved s.cursor.leads_skipLayout

lemma moves_cursor_bind {f : Cursor → Parse β} (h : ∀ c, Moves s₀ k (f c) j) :
    Moves s₀ k (cursor >>= f) j :=
  ends_cursor_bind fun c => (h c).strengthen fun _ hs => hs.1

lemma moves_current_bind {f : Token → Parse β}
    (h : ∀ t, Ends (Near s₀ k) (f t) S fun _ => s₀.Leads) :
    Ends (Near s₀ k) (current >>= f) S fun _ => s₀.Leads :=
  ends_current_bind fun t => (h t).strengthen fun _ hs => hs.1

/-- A budget suffices for the tokens ahead. -/
lemma moves_budget_bind {f : Nat → Parse β}
    (h : ∀ i n, i ≤ k → i ≤ n → Ends (Near s₀ i) (f n) S fun _ => s₀.Leads) :
    Ends (Near s₀ k) (budget >>= f) S fun _ => s₀.Leads := by
  refine ends_budget_bind fun n s hs => ?_
  obtain ⟨hnear, hn⟩ := hs
  have hle := s.cursor.length_ahead_le
  exact h (s.cursor.ahead.length + 1) n hnear.2 (by omega) s ⟨hnear.1, Nat.lt_succ_self _⟩

lemma moves_advance : Moves s₀ k (advance 1) k := by
  intro s hs
  refine hs.moved ⟨rfl, rfl, ?_⟩
  change s.cursor.position ≤ ((s.cursor.position : Int) + 1).toNat
  omega

lemma moves_expect {kinds : List TokenKind} (h : .endOfFile ∉ kinds) :
    Moves s₀ k (expect kinds) (k - 1) := by
  refine ends_take (.kinds kinds) (fun s hs hm => hs.pass ?_) fun _ hs => hs.1
  intro hk
  have hmem := List.contains_iff_mem.1 hm
  rw [hk] at hmem
  exact h hmem

lemma moves_expectWord {words : List String} : Moves s₀ k (expectWord words) (k - 1) := by
  refine ends_take (.words words) (fun s hs hm => hs.pass ?_) fun _ hs => hs.1
  intro hk
  simp [Expected.isMet, hk] at hm

lemma moves_check {kinds : List TokenKind} : Moves s₀ k (check kinds) k :=
  ends_test (.kinds kinds) fun _ log hs => hs.log log

lemma moves_checkWord {words : List String} : Moves s₀ k (checkWord words) k :=
  ends_test (.words words) fun _ log hs => hs.log log

end Rules

section Expressions
variable {s₀ : ParseState} {k n : Nat} {inner : Inner} {left : Expression} {power : Power}

/-- With fewer than `K` tokens ahead a parser for inner expressions uses up at least one of them
when it succeeds. -/
def InnerMoves (s₀ : ParseState) (K : Nat) (inner : Inner) : Prop :=
  ∀ k ≤ K, ∀ limit, Moves s₀ k (inner limit) (k - 1)

lemma moves_primary : Moves s₀ k primary (k - 1) := by
  unfold primary
  refine (moves_expect (by decide)).bind fun t => ?_
  cases t.kind with
  | number =>
    cases readNumber? t.value with
    | none => exact moves_throw _
    | some value => exact moves_pure _
  | _ => exact moves_pure _

lemma moves_grouping (h : InnerMoves s₀ (k - 1) inner) : Moves s₀ k (grouping inner) (k - 1) := by
  unfold grouping
  refine (moves_expect (by decide)).past ?_
  refine (h _ (Nat.le_refl _) .lowest).bind fun e => ?_
  exact (moves_expect (by decide)).past ((moves_pure e).mono (by omega))

lemma moves_unary (h : InnerMoves s₀ (k - 1) inner) : Moves s₀ k (unary inner) (k - 1) := by
  unfold unary
  refine (moves_expect (by decide)).bind fun t => ?_
  exact (h _ (Nat.le_refl _) .unary).bind fun e => (moves_pure _).mono (by omega)

lemma moves_reference (context : ShapeContext) (span : Span) (e : Expression) :
    Moves s₀ k (reference context span e) k := by
  unfold reference
  cases Reference.ofExpression? e with
  | none => exact moves_throw _
  | some r => exact moves_pure r

lemma moves_stateOperator : Moves s₀ k stateOperator (k - 1) := by
  unfold stateOperator
  refine moves_checkWord.bind fun b => ?_
  cases b with
  | true => exact moves_expectWord
  | false => exact moves_expect (by decide)

lemma moves_state (h : InnerMoves s₀ (k - 1) inner) : Moves s₀ k (state inner) (k - 1) := by
  unfold state
  refine moves_stateOperator.bind fun t => ?_
  refine (h _ (Nat.le_refl _) .unary).bind fun e => ?_
  exact (moves_reference _ _ _).bind fun r => (moves_pure _).mono (by omega)

lemma moves_opening (h : InnerMoves s₀ (k - 1) inner) (rule : OpeningRule) :
    Moves s₀ k (opening inner rule) (k - 1) := by
  cases rule with
  | primary => exact moves_primary
  | grouping => exact moves_grouping h
  | unary => exact moves_unary h
  | state => exact moves_state h

/-- The operator may be any token, even the end of the file, but no operand follows that one. -/
lemma moves_binary (h : InnerMoves s₀ k inner) : Moves s₀ k (binary inner left power) (k - 1) := by
  unfold binary
  refine moves_advance.bind fun t => ?_
  exact (h k (Nat.le_refl _) power).bind fun e => moves_pure _

lemma moves_assignment (h : InnerMoves s₀ k inner) :
    Moves s₀ k (assignment inner left) (k - 1) := by
  unfold assignment
  refine moves_current_bind fun t => (moves_reference _ _ _).bind fun target => ?_
  refine (moves_expect (by decide)).bind fun t => ?_
  refine (h _ (by omega) .assignment).bind fun value => ?_
  cases t.operation with
  | none => exact (moves_pure _).mono (by omega)
  | some operation => exact (moves_pure _).mono (by omega)

lemma moves_member (h : InnerMoves s₀ k inner) : Moves s₀ k (member inner left power) (k - 1) := by
  unfold member
  refine moves_current_bind fun t => ?_
  split
  · refine (moves_expect (by decide)).bind fun dot => ?_
    refine (h _ (by omega) power).bind fun property => ?_
    split
    · exact (moves_pure _).mono (by omega)
    · exact (moves_pure _).mono (by omega)
    · exact moves_throw _
  · refine (moves_expect (by decide)).past ?_
    refine (h _ (by omega) .lowest).bind fun property => ?_
    exact (moves_expect (by decide)).past ((moves_pure _).mono (by omega))

lemma moves_separator (isFirst : Bool) : Moves s₀ k (separator isFirst) k := by
  cases isFirst with
  | true => exact moves_pure ()
  | false =>
    have hcomma : Moves s₀ k (expect [.comma]) (k - 1) := moves_expect (by decide)
    exact hcomma.map.mono (Nat.sub_le k 1)

/-- Each argument uses up a token. -/
lemma moves_arguments (h : InnerMoves s₀ k inner) (hn : k ≤ n) (isFirst : Bool) :
    Moves s₀ k (arguments inner n isFirst) k := by
  induction k generalizing n isFirst with
  | zero => exact moves_zero
  | succ k ih =>
    obtain ⟨n, rfl⟩ := Nat.exists_eq_add_one_of_ne_zero (Nat.ne_zero_of_lt hn)
    refine moves_skipLayout.bind fun _ => moves_current_bind fun t => ?_
    split
    · exact moves_pure []
    refine (moves_separator isFirst).bind fun _ => ?_
    refine (h _ (Nat.le_refl _) .lowest).bind fun e => ?_
    have hrest := ih (fun j hj => h j (Nat.le_succ_of_le hj)) (Nat.le_of_succ_le_succ hn) false
    exact hrest.bind fun es => (moves_pure _).mono (Nat.le_succ k)

lemma moves_call (h : InnerMoves s₀ k inner) (hn : k ≤ n + 1) :
    Moves s₀ k (call inner n left) (k - 1) := by
  unfold call
  refine (moves_expect (by decide)).past ?_
  have hin : InnerMoves s₀ (k - 1) inner := fun j hj => h j (by omega)
  refine (moves_arguments hin (by omega) true).bind fun args => ?_
  exact (moves_expect (by decide)).past ((moves_pure _).mono (by omega))

lemma moves_joining (h : InnerMoves s₀ k inner) (hn : k ≤ n + 1) (rule : JoiningRule) :
    Moves s₀ k (joining inner n left power rule) (k - 1) := by
  cases rule with
  | binary => exact moves_binary h
  | assignment => exact moves_assignment h
  | member => exact moves_member h
  | call => exact moves_call h hn

/-- Each operator uses up a token. -/
lemma moves_climb (g : Grammar) (h : InnerMoves s₀ k inner) (limit : Power) (hn : k ≤ n) :
    Moves s₀ k (climb g inner limit n left) k := by
  induction k generalizing n left with
  | zero => exact moves_zero
  | succ k ih =>
    obtain ⟨n, rfl⟩ := Nat.exists_eq_add_one_of_ne_zero (Nat.ne_zero_of_lt hn)
    refine moves_skipLayout.bind fun _ => moves_cursor_bind fun c => ?_
    cases g.joining? c.current with
    | none => exact moves_pure left
    | some found =>
      obtain ⟨rule, power⟩ := found
      dsimp only
      split
      · refine moves_note.bind fun _ => (moves_joining h (by omega) rule).bind fun next => ?_
        have hin : InnerMoves s₀ k inner := fun j hj => h j (Nat.le_succ_of_le hj)
        exact (ih hin (by omega)).mono (Nat.le_succ k)
      · exact moves_pure left

/-- An expression uses up a token before its inner expressions are read. -/
lemma moves_expression (g : Grammar) (hn : k ≤ n) : InnerMoves s₀ k (expression g n) := by
  induction k generalizing n with
  | zero =>
    intro j hj limit
    obtain rfl : j = 0 := Nat.le_zero.1 hj
    exact moves_zero
  | succ k ih =>
    intro j hj limit
    obtain ⟨n, rfl⟩ := Nat.exists_eq_add_one_of_ne_zero (Nat.ne_zero_of_lt hn)
    -- The opening passes a token, so the inner budget still covers what is ahead behind it.
    have hin : InnerMoves s₀ (j - 1) (expression g n) := fun i hi => ih (by omega) i (by omega)
    refine moves_skipLayout.bind fun _ => moves_cursor_bind fun c => ?_
    cases g.opening? c.current with
    | none => exact moves_noOpening
    | some found =>
      refine moves_note.bind fun _ => (moves_opening hin found.1).bind fun left => ?_
      exact moves_climb g hin limit (by omega)

lemma moves_parseExpression (g : Grammar) (limit : Power) :
    Moves s₀ k (parseExpression g limit) (k - 1) := by
  unfold parseExpression
  refine moves_budget_bind fun j n hj hn => ?_
  exact (moves_expression g hn j (Nat.le_refl _) limit).mono (by omega)

lemma moves_parseExpressionStatement (g : Grammar) :
    Moves s₀ k (parseExpressionStatement g) (k - 1) := by
  unfold parseExpressionStatement
  refine (moves_parseExpression g .lowest).bind fun e => ?_
  exact (moves_expect (by decide)).past ((moves_pure e).mono (by omega))

end Expressions

section Statements
variable {s₀ : ParseState} {k n : Nat} {p : Parse Statement}

lemma moves_duration : Moves s₀ k duration (k - 1) := by
  unfold duration
  refine moves_checkWord.bind fun b => ?_
  cases b with
  | true => exact moves_expectWord.past (moves_pure _)
  | false =>
    refine (moves_expect (by decide)).bind fun t => ?_
    cases readNumber? t.value with
    | none => exact moves_throw _
    | some value => exact moves_pure value

lemma moves_lifetimeUnit : Moves s₀ k lifetimeUnit k := by
  unfold lifetimeUnit
  refine moves_checkWord.bind fun b => ?_
  cases b with
  | true => exact moves_expectWord.past ((moves_pure _).mono (Nat.sub_le k 1))
  | false => exact moves_pure _

lemma moves_lifetime? : Moves s₀ k lifetime? k := by
  unfold lifetime?
  refine moves_check.bind fun b => ?_
  cases b with
  | true =>
    refine (moves_expect (by decide)).past (moves_duration.bind fun d => ?_)
    refine moves_lifetimeUnit.bind fun unit => ?_
    exact (moves_expect (by decide)).past ((moves_pure _).mono (by omega))
  | false => exact moves_pure _

lemma moves_modifier : Moves s₀ k modifier (k - 1) := by
  unfold modifier
  exact moves_expectWord.bind fun t => moves_pure _

lemma moves_initializer? (g : Grammar) : Moves s₀ k (initializer? g) k := by
  unfold initializer?
  refine moves_check.bind fun b => ?_
  cases b with
  | true =>
    refine (moves_expect (by decide)).past ?_
    exact (moves_parseExpression g .lowest).map.mono (by omega)
  | false => exact moves_pure _

/-- Each parameter uses up a token. -/
lemma moves_parameters (hn : k ≤ n) (isFirst : Bool) : Moves s₀ k (parameters n isFirst) k := by
  induction k generalizing n isFirst with
  | zero => exact moves_zero
  | succ k ih =>
    obtain ⟨n, rfl⟩ := Nat.exists_eq_add_one_of_ne_zero (Nat.ne_zero_of_lt hn)
    refine moves_skipLayout.bind fun _ => moves_current_bind fun t => ?_
    split
    · exact moves_pure []
    refine (moves_separator isFirst).bind fun _ => ?_
    refine (moves_expect (by decide)).bind fun identifier => ?_
    refine moves_lifetime?.bind fun lifetime => ?_
    exact (ih (by omega) false).bind fun ps => (moves_pure _).mono (Nat.le_succ k)

/-- What the result of reading a statement says about how far the cursor moved: behind a token that
counts, unless the statement only marks an end, and behind any token if it marks the end of the
file. -/
structure Passed (s₀ : ParseState) (k : Nat) (a : Statement) (s : ParseState) : Prop where
  near : Near s₀ k s
  progress : a.isSentinel = false → Near s₀ (k - 1) s
  beyond : a = .endOfFile → s₀.cursor.position < s.cursor.position

/-- Starting with fewer than `k` tokens ahead, the action fails after `s₀` or passes what its result
says. -/
def Concludes (s₀ : ParseState) (k : Nat) (p : Parse Statement) : Prop :=
  Ends (Near s₀ k) p (Passed s₀ k) fun _ => s₀.Leads

/-- A parser for statements does so with up to `K` tokens ahead. -/
def StatementMoves (s₀ : ParseState) (K : Nat) (p : Parse Statement) : Prop :=
  ∀ k ≤ K, Concludes s₀ k p

lemma StatementMoves.mono {j : Nat} (h : StatementMoves s₀ k p) (hj : j ≤ k) :
    StatementMoves s₀ j p := fun i hi => h i (Nat.le_trans hi hj)

lemma moves_conclude {a : Statement} {j : Nat} (hj : j ≤ k - 1) (ha : a.isSentinel = false) :
    Ends (Near s₀ j) (pure a : Parse Statement) (Passed s₀ k) fun _ => s₀.Leads := by
  refine ends_pure fun s hs => ?_
  have hnear : Near s₀ (k - 1) s := hs.mono hj
  refine ⟨hnear.mono (Nat.sub_le k 1), fun _ => hnear, ?_⟩
  rintro rfl
  exact absurd ha (by decide)

lemma concludes_variableDeclaration (g : Grammar) :
    Concludes s₀ k (variableDeclaration g) := by
  unfold variableDeclaration
  refine moves_modifier.bind fun canReassign => moves_modifier.bind fun canMutate => ?_
  refine (moves_expect (by decide)).bind fun identifier => ?_
  refine moves_lifetime?.bind fun lifetime => (moves_initializer? g).bind fun value => ?_
  exact (moves_expect (by decide)).past (moves_conclude (by omega) rfl)

/-- Each statement but an end marker uses up a token. -/
lemma moves_statements (h : StatementMoves s₀ k p) (hn : k ≤ n) :
    Moves s₀ k (statements p n) k := by
  induction k generalizing n with
  | zero => exact moves_zero
  | succ k ih =>
    obtain ⟨n, rfl⟩ := Nat.exists_eq_add_one_of_ne_zero (Nat.ne_zero_of_lt hn)
    refine Ends.bind (h (k + 1) (Nat.le_refl _)) fun a => ?_
    by_cases ha : a.isSentinel
    · rw [if_pos ha]
      exact ends_pure fun _ hs => hs.near
    · rw [if_neg ha]
      refine Ends.strengthen ?_ fun _ hs => hs.progress (Bool.eq_false_iff.2 ha)
      have hrest := ih (h.mono (Nat.le_succ k)) (Nat.le_of_succ_le_succ hn)
      exact hrest.bind fun ss => (moves_pure _).mono (Nat.le_succ k)

/-- A block uses up its bracket before its statements are read. -/
lemma moves_block (h : StatementMoves s₀ (k - 1) p) : Moves s₀ k (block p) (k - 1) := by
  unfold block
  refine (moves_expect (by decide)).past (moves_budget_bind fun j n hj hn => ?_)
  refine (moves_statements (h.mono hj) hn).bind fun body => ?_
  exact (moves_expect (by decide)).past ((moves_pure body).mono (by omega))

lemma moves_asyncMark : Moves s₀ k asyncMark k := by
  unfold asyncMark
  refine moves_checkWord.bind fun b => ?_
  cases b with
  | true => exact moves_expectWord.past ((moves_pure _).mono (Nat.sub_le k 1))
  | false => exact moves_pure _

lemma moves_functionBody (g : Grammar) (h : StatementMoves s₀ (k - 1) p) :
    Moves s₀ k (functionBody g p) (k - 1) := by
  unfold functionBody
  refine moves_check.bind fun b => ?_
  cases b with
  | true => exact (moves_block h).map
  | false => exact (moves_parseExpressionStatement g).map

lemma concludes_functionDeclaration (g : Grammar) (h : StatementMoves s₀ (k - 1) p) :
    Concludes s₀ k (functionDeclaration g p) := by
  unfold functionDeclaration
  refine moves_asyncMark.bind fun isAsync => moves_expectWord.past ?_
  refine (moves_expect (by decide)).bind fun identifier => ?_
  refine (moves_expect (by decide)).past (moves_budget_bind fun j n hj hn => ?_)
  refine (moves_parameters hn true).bind fun params => ?_
  refine (moves_expect (by decide)).past ((moves_expect (by decide)).past ?_)
  refine (moves_functionBody g (h.mono (by omega))).bind fun body => ?_
  exact moves_conclude (by omega) rfl

lemma concludes_returning (g : Grammar) :
    Concludes s₀ k (returning g) := by
  unfold returning
  refine moves_expectWord.past ((moves_parseExpression g .lowest).bind fun argument => ?_)
  exact (moves_expect (by decide)).past (moves_conclude (by omega) rfl)

lemma moves_guarded (g : Grammar) (h : StatementMoves s₀ (k - 1) p) (word : String) :
    Moves s₀ k (guarded g p word) (k - 1) := by
  unfold guarded
  refine moves_expectWord.past ((moves_expect (by decide)).past ?_)
  refine (moves_parseExpression g .lowest).bind fun test => ?_
  refine (moves_expect (by decide)).past ?_
  exact (moves_block (h.mono (by omega))).bind fun body => (moves_pure _).mono (by omega)

lemma moves_alternate {q : Parse Conditional} (h : StatementMoves s₀ (k - 1) p)
    (hq : Moves s₀ (k - 1) q (k - 1)) : Moves s₀ k (alternate p q) k := by
  unfold alternate
  refine moves_checkWord.bind fun b => ?_
  cases b with
  | false => exact moves_pure _
  | true =>
    refine moves_expectWord.past (moves_checkWord.bind fun b => ?_)
    cases b with
    | true => exact hq.map.mono (Nat.sub_le k 1)
    | false => exact (moves_block (h.mono (Nat.sub_le _ _))).map.mono (by omega)

/-- Each test behind `else` uses up a token. -/
lemma moves_conditional (g : Grammar) (h : StatementMoves s₀ (k - 1) p) (hn : k ≤ n) :
    Moves s₀ k (conditional g p n) (k - 1) := by
  -- The budget falls by one at each `else`, and so does the bound on the tokens ahead.
  induction k generalizing n with
  | zero => exact moves_zero
  | succ k ih =>
    obtain ⟨n, rfl⟩ := Nat.exists_eq_add_one_of_ne_zero (Nat.ne_zero_of_lt hn)
    refine (moves_guarded g h "if").bind fun found => ?_
    have hnext : Moves s₀ (k - 1) (conditional g p n) (k - 1) :=
      (ih (h.mono (Nat.sub_le k 1)) (by omega)).of_le (Nat.sub_le k 1)
    exact (moves_alternate (h.mono (Nat.sub_le k 1)) hnext).bind fun alternate => moves_pure _

lemma concludes_when (g : Grammar) (h : StatementMoves s₀ (k - 1) p) :
    Concludes s₀ k (when g p) := by
  unfold when
  refine (moves_guarded g h "when").bind fun found => ?_
  exact moves_conclude (Nat.le_refl _) rfl

/-- The end of the file may be passed over and over, so it uses up nothing, but the cursor moves. -/
lemma concludes_endOfFile : Concludes s₀ k endOfFile := by
  have htake : Ends (Near s₀ k) (expect [.endOfFile])
      (fun _ s => Near s₀ k s ∧ s₀.cursor.position < s.cursor.position) fun _ => s₀.Leads := by
    refine ends_take (.kinds [.endOfFile]) (fun s hs _ => ?_) fun _ hs => hs.1
    refine ⟨hs.moved s.cursor.leads_pass, ?_⟩
    have hle := hs.1.cursor.position
    simp only [Cursor.pass]
    omega
  unfold endOfFile
  refine htake.discard.bind fun _ => ?_
  exact ends_pure fun s hs => ⟨hs.1, by simp [Statement.isSentinel], fun _ => hs.2⟩

lemma concludes_ruled (g : Grammar) (h : StatementMoves s₀ (k - 1) p) (rule : StatementRule) :
    Concludes s₀ k (ruled g p rule) := by
  cases rule with
  | variableDeclaration => exact concludes_variableDeclaration g
  | functionDeclaration => exact concludes_functionDeclaration g h
  | returning => exact concludes_returning g
  | conditional =>
    refine moves_budget_bind fun j n hj hn => ?_
    refine (moves_conditional g (h.mono (by omega)) hn).bind fun branch => ?_
    exact moves_conclude (by omega) rfl
  | when => exact concludes_when g h
  | block => exact (moves_block h).bind fun body => moves_conclude (Nat.le_refl _) rfl
  | endOfFile => exact concludes_endOfFile

/-- A statement uses up a token before the statements in it are read. -/
lemma concludes_statement (g : Grammar) (hn : k ≤ n) : StatementMoves s₀ k (statement g n) := by
  induction k generalizing n with
  | zero =>
    intro j hj s hs
    obtain rfl : j = 0 := Nat.le_zero.1 hj
    exact absurd hs.2 (Nat.not_lt_zero _)
  | succ k ih =>
    intro j hj
    obtain ⟨n, rfl⟩ := Nat.exists_eq_add_one_of_ne_zero (Nat.ne_zero_of_lt hn)
    have hin : StatementMoves s₀ (j - 1) (statement g n) := (ih (by omega)).mono (by omega)
    refine moves_skipLayout.bind fun _ => moves_current_bind fun t => ?_
    cases g.statement? t with
    | some rule => exact concludes_ruled g hin rule
    | none =>
      dsimp only
      split
      · exact ends_pure fun s hs => ⟨hs, by simp [Statement.isSentinel], by simp⟩
      · refine (moves_parseExpressionStatement g).bind fun e => ?_
        exact moves_conclude (Nat.le_refl _) rfl

lemma concludes_parseStatement (g : Grammar) : StatementMoves s₀ k (parseStatement g) := by
  intro j _
  unfold parseStatement
  refine moves_budget_bind fun i n hi hn => ?_
  refine (concludes_statement g hn i (Nat.le_refl _)).weaken fun a s hs => ?_
  exact ⟨hs.near.mono hi, fun ha => (hs.progress ha).mono (by omega), hs.beyond⟩

/-- Each statement of a program uses up a token. -/
lemma moves_programBody (g : Grammar) (hn : k ≤ n) : Moves s₀ k (programBody g n) k := by
  induction k generalizing n with
  | zero => exact moves_zero
  | succ k ih =>
    obtain ⟨n, rfl⟩ := Nat.exists_eq_add_one_of_ne_zero (Nat.ne_zero_of_lt hn)
    refine Ends.bind (concludes_parseStatement g (k + 1) (Nat.le_refl _)) fun a => ?_
    split
    · exact ends_pure fun _ hs => hs.near
    · refine Ends.strengthen ?_ fun _ hs => hs.near
      exact moves_current_bind fun t => moves_throw _
    · next hfile hblock =>
      have ha : a.isSentinel = false := by cases a <;> simp_all [Statement.isSentinel]
      refine Ends.strengthen ?_ fun _ hs => hs.progress ha
      exact (ih (by omega)).bind fun body => (moves_pure _).mono (Nat.le_succ k)

lemma moves_parseProgram (g : Grammar) : Moves s₀ k (parseProgram g) k := by
  unfold parseProgram
  refine moves_budget_bind fun j n hj hn => ?_
  exact (moves_programBody g hn).bind fun body => moves_note.bind fun _ => (moves_pure _).mono hj

end Statements
end Parse

/-- Reading an expression, a statement, a block or a program comes to its end without a call that
is cut off, whatever the grammar, the tokens and the place among them. The tokens stay the same and
the cursor never moves back. It has moved on behind an expression, and behind every statement but
the end of a block. -/
theorem parse_progress (g : Grammar) (s : ParseState) :
    (∀ limit, s.Leads ((parseExpression g limit).run s).2 ∧
      ∀ e, ((parseExpression g limit).run s).1 = .ok e →
        s.cursor.position < ((parseExpression g limit).run s).2.cursor.position) ∧
    (s.Leads ((parseStatement g).run s).2 ∧
      ∀ a, ((parseStatement g).run s).1 = .ok a → a ≠ .endOfBlock →
        s.cursor.position < ((parseStatement g).run s).2.cursor.position) ∧
    s.Leads ((parseBlock g).run s).2 ∧ s.Leads ((parseProgram g).run s).2 := by
  have hstart : Parse.Near s (s.cursor.ahead.length + 1) s :=
    ⟨⟨.refl s.cursor, rfl⟩, Nat.lt_succ_self _⟩
  have hstatements : ∀ k, Parse.StatementMoves s k (parseStatement g) := fun _ =>
    Parse.concludes_parseStatement g
  refine ⟨fun limit => ?_, ?_, ?_, ?_⟩
  · have hmoves (k : Nat) : Parse.Moves s k (parseExpression g limit) (k - 1) :=
      Parse.moves_parseExpression g limit
    refine ⟨Parse.leads_of_near (hmoves _) (fun _ _ hs => hs) hstart, fun e he => ?_⟩
    have hnear := (hmoves _).of_ok hstart he
    exact hnear.1.cursor.position_lt hnear.2
  · have hstatement (k : Nat) := hstatements k k (Nat.le_refl k)
    refine ⟨Parse.leads_of_near (hstatement _) (fun _ _ hs => hs.near) hstart, fun a ha hne => ?_⟩
    have hpassed := (hstatement _).of_ok hstart ha
    by_cases hfile : a = .endOfFile
    · exact hpassed.beyond hfile
    · have hplain : a.isSentinel = false := by cases a <;> simp_all [Statement.isSentinel]
      have hnear := hpassed.progress hplain
      exact hnear.1.cursor.position_lt hnear.2
  · exact Parse.leads_of_near (Parse.moves_block (hstatements _)) (fun _ _ hs => hs) hstart
  · exact Parse.leads_of_near (Parse.moves_parseProgram g) (fun _ _ hs => hs) hstart

example (g : Grammar) (limit : Power) (s : ParseState) :
    ((Parse.expression g 0 limit).run s).2.overrun = true := rfl

/-- The end of the file as an operator: behind a text it is met again and again, and yet the parse
fails at the missing operand. With a tighter limit only the text is read. -/
theorem parse_progress_endOfFile :
    let text : Token := { kind := .string, value := "a", span := default, line := 1 }
    let g : Grammar := Grammar.empty.addOpening { kind := .string, rule := .primary }
      |>.addJoining { kind := .endOfFile, power := .additive, rule := .binary }
    let s : ParseState := .ofTokens [text, .endOfFile 3 1]
    (∃ e, ((parseExpression g .lowest).run s).1 = .error e) ∧
    s.Leads ((parseExpression g .lowest).run s).2 ∧
    ∃ e, ((parseExpression g .additive).run s).1 = .ok e ∧
      s.cursor.position < ((parseExpression g .additive).run s).2.cursor.position := by
  intro text g s
  have hfails : ((parseExpression g .lowest).run s).1.toOption.isSome = false := by
    decide +kernel +revert
  have hreads : ((parseExpression g .additive).run s).1.toOption.isSome := by
    decide +kernel +revert
  obtain ⟨hexpression, -⟩ := parse_progress g s
  refine ⟨?_, (hexpression .lowest).1, ?_⟩
  · cases h : ((parseExpression g .lowest).run s).1 with
    | error e => exact ⟨e, rfl⟩
    | ok e => simp [h, Except.toOption] at hfails
  · cases h : ((parseExpression g .additive).run s).1 with
    | error e => simp [h, Except.toOption] at hreads
    | ok e => exact ⟨e, rfl, (hexpression .additive).2 e h⟩

end Exclaim
