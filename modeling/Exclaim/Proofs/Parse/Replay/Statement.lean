import Exclaim.Proofs.Parse.Replay.Expression

/-! Statements are repeated. Only a conditional looks at the token behind its own last one, for an
`else`. -/
namespace Exclaim.Parse

variable {T : Course} {F : Cursor → Prop} {k n n' : Nat} {g g' : Grammar} {elseless : Prop}
  {p p' : Parse Statement}

lemma replays_parseExpressionStatement (hg : Agrees T g g') :
    Replays T F k (fun _ => 1) (fun _ => True) (parseExpressionStatement g)
      (parseExpressionStatement g') := by
  unfold parseExpressionStatement
  refine (replays_parseExpression hg .lowest).next (fun e => ?_) fun _ _ => Nat.one_pos
  exact (replays_expect (by decide)).close (Nat.le_refl 1)

lemma replays_duration : Replays T F k (fun _ => 1) (fun _ => True) duration duration := by
  unfold duration
  refine replays_test_bind (.words ["Infinity"]) ?_ ?_ (fun _ => Nat.le_refl 1)
    fun _ _ => .inl Nat.one_pos
  · exact replays_expectWord.close (Nat.le_refl 1)
  · refine (replays_expect (by decide)).last (fun t => ?_) fun _ _ _ _ _ _ => trivial
    cases readNumber? t.value with
    | none => exact replays_throw fun _ => rfl
    | some value => exact replays_pure rfl

lemma replays_lifetimeUnit :
    Replays T F k (fun _ => 0) (fun _ => False) lifetimeUnit lifetimeUnit := by
  unfold lifetimeUnit
  refine replays_test_bind (.words ["s"]) ?_ (replays_pure rfl) (fun _ => Nat.zero_le 1)
    fun _ => False.elim
  exact replays_expectWord.close (Nat.le_refl 1)

lemma replays_lifetime? : Replays T F k (fun _ => 0) (fun _ => False) lifetime? lifetime? := by
  unfold lifetime?
  refine replays_test_bind (.kinds [.smaller]) ?_ (replays_pure rfl) (fun _ => Nat.zero_le 1)
    fun _ => False.elim
  refine (replays_expect (by decide)).past ?_ fun _ => False.elim
  refine replays_duration.next (fun d => ?_) fun _ => False.elim
  refine replays_lifetimeUnit.next (fun unit => ?_) fun _ => False.elim
  exact (replays_expect (by decide)).close (Nat.le_refl 1)

lemma replays_modifier : Replays T F k (fun _ => 1) (fun _ => True) modifier modifier := by
  unfold modifier
  exact replays_expectWord.yield (fun _ => Nat.le_refl 1) fun _ => id

lemma replays_initializer? (hg : Agrees T g g') :
    Replays T F k (fun _ => 0) (fun _ => False) (initializer? g) (initializer? g') := by
  unfold initializer?
  refine replays_test_bind (.kinds [.equalSign]) ?_ (replays_pure rfl) (fun _ => Nat.zero_le 1)
    fun _ => False.elim
  refine (replays_expect (by decide)).past ?_ fun _ => False.elim
  exact (replays_parseExpression hg .lowest).map fun _ => False.elim

/-- Each parameter uses up a token. -/
lemma replays_parameters (hn : k ≤ n) (hn' : k ≤ n') (isFirst : Bool) :
    Replays T F k (fun _ => 0) (fun _ => False) (parameters n isFirst)
      (parameters n' isFirst) := by
  induction k generalizing n n' isFirst F with
  | zero => exact replays_zero
  | succ k ih =>
    obtain ⟨n, rfl⟩ := Nat.exists_eq_add_one_of_ne_zero (Nat.ne_zero_of_lt hn)
    obtain ⟨n', rfl⟩ := Nat.exists_eq_add_one_of_ne_zero (Nat.ne_zero_of_lt hn')
    refine replays_skipLayout_bind (replays_current_bind (fun t => ?_) fun _ => False.elim)
    by_cases hc : t.kind = .closeParen
    · rw [if_pos hc, if_pos hc]
      exact replays_pure rfl
    · rw [if_neg hc, if_neg hc]
      refine (replays_separator isFirst).next (fun _ => ?_) fun _ => False.elim
      refine (replays_expect (by decide)).next (fun identifier => ?_) fun _ => False.elim
      refine replays_lifetime?.next (fun lifetime => ?_) fun _ => False.elim
      have hrest := ih (F := Anywhere) (Nat.le_of_succ_le_succ hn) (Nat.le_of_succ_le_succ hn')
        false
      exact hrest.yield (fun _ => Nat.le_refl 0) fun _ => id

/-- How many tokens a statement has at least. -/
def width (a : Statement) : Nat := if a.isSentinel then 0 else 1

/-- What a statement looks at: an end marker at the next token, others only for an `else`. -/
def Settled (elseless : Prop) (a : Statement) : Prop := a.isSentinel = false ∧ elseless

lemma isSentinel_eq_false {a : Statement} (hfile : a ≠ .endOfFile) (hblock : a ≠ .endOfBlock) :
    a.isSentinel = false := by
  cases a with
  | endOfFile => exact absurd rfl hfile
  | endOfBlock => exact absurd rfl hblock
  | _ => rfl

lemma width_of_not_isSentinel {a : Statement} (h : a.isSentinel = false) : width a = 1 := by
  rw [width, h]
  rfl

lemma Settled.width_pos (a : Statement) (h : Settled elseless a) : 0 < width a := by
  rw [width_of_not_isSentinel h.1]
  exact Nat.one_pos

/-- Two parsers for statements, of which the second one repeats the first one with fewer than `K`
tokens ahead, and also at the fork if no `else` comes there. -/
def StatementReplays (T : Course) (K : Nat) (elseless : Prop) (p p' : Parse Statement) : Prop :=
  ∀ k ≤ K, Replays T Anywhere k width (Settled elseless) p p'

lemma StatementReplays.mono {j : Nat} (h : StatementReplays T k elseless p p') (hj : j ≤ k) :
    StatementReplays T j elseless p p' := fun i hi => h i (Nat.le_trans hi hj)

lemma width_le (a : Statement) : width a ≤ 1 := by
  unfold width
  split <;> decide

lemma replays_variableDeclaration (hg : Agrees T g g') :
    Replays T F k width (Settled elseless) (variableDeclaration g) (variableDeclaration g') := by
  unfold variableDeclaration
  refine replays_modifier.next (fun canReassign => ?_) Settled.width_pos
  refine replays_modifier.next (fun canMutate => ?_) Settled.width_pos
  refine (replays_expect (by decide)).next (fun identifier => ?_) Settled.width_pos
  refine replays_lifetime?.next (fun lifetime => ?_) Settled.width_pos
  refine (replays_initializer? hg).next (fun value => ?_) Settled.width_pos
  exact (replays_expect (by decide)).close (width_le _)

/-- Each statement but an end marker uses up a token, and the end marker looks at the next one. -/
lemma replays_statements (h : StatementReplays T k elseless p p') (hn : k ≤ n) (hn' : k ≤ n') :
    Replays T Anywhere k (fun _ => 0) (fun _ => False) (statements p n) (statements p' n') := by
  induction k generalizing n n' with
  | zero => exact replays_zero
  | succ k ih =>
    obtain ⟨n, rfl⟩ := Nat.exists_eq_add_one_of_ne_zero (Nat.ne_zero_of_lt hn)
    obtain ⟨n', rfl⟩ := Nat.exists_eq_add_one_of_ne_zero (Nat.ne_zero_of_lt hn')
    refine (h (k + 1) (Nat.le_refl _)).next (fun a => ?_) fun _ => False.elim
    by_cases ha : a.isSentinel
    · rw [if_pos ha, if_pos ha]
      exact replays_pure rfl
    · rw [if_neg ha, if_neg ha, width, if_neg ha]
      have hrest := ih (h.mono (Nat.le_succ k)) (Nat.le_of_succ_le_succ hn)
        (Nat.le_of_succ_le_succ hn')
      exact hrest.yield (fun _ => Nat.le_refl 0) fun _ => id

lemma replays_block (h : StatementReplays T (k - 1) elseless p p') :
    Replays T F k (fun _ => 1) (fun _ => True) (block p) (block p') := by
  unfold block
  refine (replays_expect (by decide)).past ?_ fun _ _ => Nat.one_pos
  refine replays_budget_bind fun j m m' hj hm hm' => ?_
  refine (replays_statements (h.mono hj) hm hm').next (fun body => ?_) fun _ _ => Nat.one_pos
  exact (replays_expect (by decide)).close (Nat.le_refl 1)

lemma replays_asyncMark : Replays T F k (fun _ => 0) (fun _ => False) asyncMark asyncMark := by
  unfold asyncMark
  refine replays_test_bind (.words ["async"]) ?_ (replays_pure rfl) (fun _ => Nat.zero_le 1)
    fun _ => False.elim
  exact replays_expectWord.close (Nat.le_refl 1)

lemma replays_functionBody (hg : Agrees T g g') (h : StatementReplays T (k - 1) elseless p p') :
    Replays T F k (fun _ => 1) (fun _ => True) (functionBody g p) (functionBody g' p') := by
  unfold functionBody
  refine replays_test_bind (.kinds [.openCurly]) ?_ ?_ (fun _ => Nat.le_refl 1)
    fun _ _ => .inl Nat.one_pos
  · exact (replays_block h).map fun _ => id
  · exact (replays_parseExpressionStatement hg).map fun _ => id

lemma replays_functionDeclaration (hg : Agrees T g g')
    (h : StatementReplays T (k - 1) elseless p p') :
    Replays T F k width (Settled elseless) (functionDeclaration g p)
      (functionDeclaration g' p') := by
  unfold functionDeclaration
  refine replays_asyncMark.next (fun isAsync => ?_) Settled.width_pos
  refine replays_expectWord.past ?_ Settled.width_pos
  refine (replays_expect (by decide)).next (fun identifier => ?_) Settled.width_pos
  refine (replays_expect (by decide)).past ?_ Settled.width_pos
  refine replays_budget_bind fun j m m' hj hm hm' => ?_
  refine (replays_parameters hm hm' true).next (fun params => ?_) Settled.width_pos
  refine (replays_expect (by decide)).past ?_ Settled.width_pos
  refine (replays_expect (by decide)).past ?_ Settled.width_pos
  exact (replays_functionBody hg (h.mono (by omega))).yield (fun _ => width_le _) fun _ _ => trivial

lemma replays_returning (hg : Agrees T g g') :
    Replays T F k width (Settled elseless) (returning g) (returning g') := by
  unfold returning
  refine replays_expectWord.past ?_ Settled.width_pos
  refine (replays_parseExpression hg .lowest).next (fun argument => ?_) Settled.width_pos
  exact (replays_expect (by decide)).close (width_le _)

lemma replays_guarded (hg : Agrees T g g') (h : StatementReplays T (k - 1) elseless p p')
    (word : String) :
    Replays T F k (fun _ => 1) (fun _ => True) (guarded g p word) (guarded g' p' word) := by
  unfold guarded
  refine replays_expectWord.past ?_ fun _ _ => Nat.one_pos
  refine (replays_expect (by decide)).past ?_ fun _ _ => Nat.one_pos
  refine (replays_parseExpression hg .lowest).next (fun test => ?_) fun _ _ => Nat.one_pos
  refine (replays_expect (by decide)).past ?_ fun _ _ => Nat.one_pos
  exact (replays_block (h.mono (by omega))).yield (fun _ => Nat.le_refl 1) fun _ => id

/-- At a fork without `else` there is no alternative. -/
lemma replays_alternate {q q' : Parse Conditional} (he : elseless → T.Misses (.words ["else"]))
    (h : StatementReplays T (k - 1) elseless p p')
    (hq : Replays T Anywhere (k - 1) (fun _ => 1) (fun _ => elseless) q q') :
    Replays T F k (fun _ => 0) (fun _ => elseless) (alternate p q) (alternate p' q') := by
  unfold alternate
  refine replays_test_bind (.words ["else"]) ?_ (replays_pure rfl) (fun _ => Nat.zero_le 1)
    fun _ hb => .inr (he hb)
  refine replays_expectWord.past ?_ fun _ _ => Nat.one_pos
  refine replays_test_bind (.words ["if"]) ?_ ?_ (fun _ => Nat.le_refl 1)
    fun _ _ => .inl Nat.one_pos
  · exact hq.map fun _ => id
  · exact (replays_block (h.mono (by omega))).map fun _ _ => trivial

lemma replays_conditional (hg : Agrees T g g') (he : elseless → T.Misses (.words ["else"]))
    (h : StatementReplays T (k - 1) elseless p p') (hn : k ≤ n) (hn' : k ≤ n') :
    Replays T Anywhere k (fun _ => 1) (fun _ => elseless) (conditional g p n)
      (conditional g' p' n') := by
  -- The budgets fall by one at each `else`, and so does the bound on the tokens ahead.
  induction k generalizing n n' with
  | zero => exact replays_zero
  | succ k ih =>
    obtain ⟨n, rfl⟩ := Nat.exists_eq_add_one_of_ne_zero (Nat.ne_zero_of_lt hn)
    obtain ⟨n', rfl⟩ := Nat.exists_eq_add_one_of_ne_zero (Nat.ne_zero_of_lt hn')
    have hnext := ih (h.mono (Nat.sub_le k 1)) (Nat.le_of_succ_le_succ hn)
      (Nat.le_of_succ_le_succ hn')
    refine (replays_guarded hg h "if").last (fun found => ?_) fun _ _ _ _ _ _ => trivial
    have halternate := replays_alternate (F := Anywhere) he (h.mono (Nat.sub_le k 1))
      (hnext.of_le (Nat.sub_le k 1))
    exact halternate.yield (fun _ => Nat.le_refl 0) fun _ => id

lemma replays_when (hg : Agrees T g g') (h : StatementReplays T (k - 1) elseless p p') :
    Replays T F k width (Settled elseless) (when g p) (when g' p') := by
  unfold when
  exact (replays_guarded hg h "when").yield (fun _ => width_le _) fun _ _ => trivial

lemma replays_endOfFile : Replays T F k width (Settled elseless) endOfFile endOfFile := by
  unfold endOfFile
  have htake : Replays T F k (fun _ => 0) (fun _ => False) (expect [.endOfFile])
      (expect [.endOfFile]) :=
    replays_take (.kinds [.endOfFile]) (fun c _ => c.leads_pass.length_ahead_le) fun _ => False.elim
  have hdiscard : Replays T F k (fun _ => 0) (fun _ => False) (discard (expect [.endOfFile]))
      (discard (expect [.endOfFile])) := htake.map fun _ => id
  exact hdiscard.yield (fun _ => Nat.le_refl 0) fun _ h => absurd h.1 (by decide)

lemma replays_ruled (hg : Agrees T g g') (he : elseless → T.Misses (.words ["else"]))
    (h : StatementReplays T (k - 1) elseless p p') (rule : StatementRule) :
    Replays T F k width (Settled elseless) (ruled g p rule) (ruled g' p' rule) := by
  cases rule with
  | variableDeclaration => exact replays_variableDeclaration hg
  | functionDeclaration => exact replays_functionDeclaration hg h
  | returning => exact replays_returning hg
  | conditional =>
    refine replays_budget_bind fun j m m' hj hm hm' => ?_
    exact (replays_conditional hg he (h.mono (by omega)) hm hm').yield (fun _ => width_le _)
      fun _ hs => hs.2
  | when => exact replays_when hg h
  | block => exact (replays_block h).yield (fun _ => width_le _) fun _ _ => trivial
  | endOfFile => exact replays_endOfFile

/-- How a statement is read whose first token and rule are known. -/
def started (g : Grammar) (p : Parse Statement) (t : Token) : Option StatementRule → Parse Statement
  | some rule => ruled g p rule
  | none =>
      if t.kind = .closeCurly then return .endOfBlock
      else return .expression (← parseExpressionStatement g)

lemma run_statement (g : Grammar) (n : Nat) (s : ParseState) :
    (statement g (n + 1)).run s =
      (started g (statement g n) s.cursor.next (g.statement? s.cursor.next)).run
        { s with cursor := s.cursor.skipLayout } := by
  rw [← current_skipLayout]
  unfold started
  change ((match g.statement? s.cursor.skipLayout.current with
    | some rule => ruled g (statement g n) rule
    | none => _ : Parse Statement).run { s with cursor := s.cursor.skipLayout }) = _
  cases g.statement? s.cursor.skipLayout.current <;> rfl

lemma replays_started (hg : Agrees T g g') (he : elseless → T.Misses (.words ["else"]))
    (h : StatementReplays T (k - 1) elseless p p') (t : Token) (rule : Option StatementRule) :
    Replays T F k width (Settled elseless) (started g p t rule) (started g' p' t rule) := by
  cases rule with
  | some rule => exact replays_ruled hg he h rule
  | none =>
    unfold started
    by_cases hc : t.kind = .closeCurly
    · simp only [if_pos hc]
      exact replays_pure rfl
    · simp only [if_neg hc]
      exact (replays_parseExpressionStatement hg).yield (fun _ => width_le _) fun _ _ => trivial

lemma replays_statement (hg : Agrees T g g') (he : elseless → T.Misses (.words ["else"]))
    (hn : k ≤ n) (hn' : k ≤ n') :
    StatementReplays T k elseless (statement g n) (statement g' n') := by
  induction k generalizing n n' with
  | zero =>
    intro j hj
    obtain rfl : j = 0 := Nat.le_zero.1 hj
    exact replays_zero
  | succ k ih =>
    intro j hj
    obtain ⟨n, rfl⟩ := Nat.exists_eq_add_one_of_ne_zero (Nat.ne_zero_of_lt hn)
    obtain ⟨n', rfl⟩ := Nat.exists_eq_add_one_of_ne_zero (Nat.ne_zero_of_lt hn')
    have hin : StatementReplays T (j - 1) elseless (statement g n) (statement g' n') :=
      (ih (by omega) (by omega)).mono (by omega)
    have hstep (t : Token) (rule : Option StatementRule) :
        Replays T Anywhere j width (Settled elseless) (started g (statement g n) t rule)
          (started g' (statement g' n') t rule) := replays_started hg he hin t rule
    constructor
    · intro s s₁ a hk hr
      rw [run_statement] at hr
      have hlen := (hstep _ _).shrinks _ s₁ a (by simpa using hk) hr
      simpa using hlen
    · intro s s' hk _ _ hb
      rw [run_statement, run_statement]
      by_cases hin : T.border ≤ s.cursor.ahead.length
      · rw [hb.next_eq hin, ← hg.statement? _ hb.knows_next]
        exact (hstep _ _).follows _ _ (by simpa using hk) trivial trivial hb.skipLayout
      · exact (hstep _ _).follows_outside Settled.width_pos (by simpa using hk) (by simpa using hin)

lemma replays_parseStatement (hg : Agrees T g g') (he : elseless → T.Misses (.words ["else"])) :
    Replays T F k width (Settled elseless) (parseStatement g) (parseStatement g') :=
  replays_budget_bind fun j _ _ _ hn hn' => replays_statement hg he hn hn' j (Nat.le_refl j)

end Exclaim.Parse
