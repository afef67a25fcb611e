import Exclaim.Proofs.Parse.Replay.Basic
import Exclaim.Proofs.Parse.Written

/-! Expressions are repeated. An expression ends with a look at the next token, which must not go on
with it. -/
namespace Exclaim.Parse

variable {T : Course} {F : Cursor → Prop} {k n n' : Nat} {quiet : Prop} {inner inner' : Inner}
  {left : Expression}

/-- Two parsers for inner expressions, of which the second one repeats the first one with fewer than
`K` tokens ahead, and also at the fork if it is quiet. -/
def InnerReplays (T : Course) (K : Nat) (quiet : Prop) (inner inner' : Inner) : Prop :=
  ∀ k ≤ K, ∀ limit, Replays T Anywhere k (fun _ => 1) (fun _ => quiet) (inner limit) (inner' limit)

lemma InnerReplays.mono {j : Nat} (h : InnerReplays T k quiet inner inner') (hj : j ≤ k) :
    InnerReplays T j quiet inner inner' := fun i hi => h i (Nat.le_trans hi hj)

/-- The lookups of two grammars agree on the tokens that both cursors may have next. -/
structure Agrees (T : Course) (g g' : Grammar) : Prop where
  statement? : ∀ t, T.Knows t → g.statement? t = g'.statement? t
  opening? : ∀ t, T.Knows t → g.opening? t = g'.opening? t
  joining? : ∀ t, T.Knows t → g.joining? t = g'.joining? t

lemma agrees_refl (T : Course) (g : Grammar) : Agrees T g g :=
  ⟨fun _ _ => rfl, fun _ _ => rfl, fun _ _ => rfl⟩

lemma replays_primary : Replays T F k (fun _ => 1) (fun _ => True) primary primary := by
  unfold primary
  refine (replays_expect (by decide)).last (fun t => ?_) fun _ _ _ _ _ _ => trivial
  cases t.kind with
  | number =>
    cases readNumber? t.value with
    | none => exact replays_throw fun _ => rfl
    | some value => exact replays_pure rfl
  | _ => exact replays_pure rfl

lemma replays_grouping (h : InnerReplays T (k - 1) quiet inner inner') :
    Replays T F k (fun _ => 1) (fun _ => True) (grouping inner) (grouping inner') := by
  unfold grouping
  refine (replays_expect (by decide)).past ?_ fun _ _ => Nat.one_pos
  refine (h _ (Nat.le_refl _) .lowest).next (fun e => ?_) fun _ _ => Nat.one_pos
  exact (replays_expect (by decide)).close (Nat.le_refl 1)

lemma replays_unary (h : InnerReplays T (k - 1) quiet inner inner') :
    Replays T F k (fun _ => 1) (fun _ => quiet) (unary inner) (unary inner') := by
  unfold unary
  refine (replays_expect (by decide)).next (fun operator => ?_) fun _ _ => Nat.one_pos
  exact (h _ (Nat.le_refl _) .unary).yield (fun _ => Nat.le_refl 1) fun _ => id

lemma replays_reference {context : ShapeContext} {span : Span} {still : Reference → Prop}
    {e : Expression} :
    Replays T F k (fun _ => 0) still (reference context span e) (reference context span e) := by
  unfold reference
  cases Reference.ofExpression? e with
  | none => exact replays_throw fun _ => rfl
  | some r => exact replays_pure rfl

lemma replays_stateOperator :
    Replays T F k (fun _ => 1) (fun _ => True) stateOperator stateOperator := by
  unfold stateOperator
  refine replays_test_bind (.words Grammar.stateWords) replays_expectWord
    (replays_expect (by decide)) (fun _ => Nat.le_refl 1) fun _ _ => .inl Nat.one_pos

lemma replays_state (h : InnerReplays T (k - 1) quiet inner inner') :
    Replays T F k (fun _ => 1) (fun _ => quiet) (state inner) (state inner') := by
  unfold state
  refine replays_stateOperator.next (fun operator => ?_) fun _ _ => Nat.one_pos
  refine (h _ (Nat.le_refl _) .unary).last (fun argument => ?_) fun _ _ _ _ _ hq => hq
  exact replays_reference.last (fun r => replays_pure rfl) fun _ _ _ _ _ hq => hq

lemma replays_opening (h : InnerReplays T (k - 1) quiet inner inner') (rule : OpeningRule) :
    Replays T F k (fun _ => 1) (fun _ => quiet) (opening inner rule) (opening inner' rule) := by
  cases rule with
  | primary => exact replays_primary.weaken (fun _ => Nat.le_refl 1) fun _ _ => trivial
  | grouping => exact (replays_grouping h).weaken (fun _ => Nat.le_refl 1) fun _ _ => trivial
  | unary => exact replays_unary h
  | state => exact replays_state h

lemma replays_binary (h : InnerReplays T k quiet inner inner') (power : Power) :
    Replays T Cursor.Facing k (fun _ => 1) (fun _ => quiet) (binary inner left power)
      (binary inner' left power) := by
  unfold binary
  refine replays_advance.next (fun operator => ?_) fun _ _ => Nat.one_pos
  exact (h k (Nat.le_refl k) power).yield (fun _ => Nat.le_refl 1) fun _ => id

lemma replays_assignment (h : InnerReplays T k quiet inner inner') :
    Replays T Cursor.Facing k (fun _ => 1) (fun _ => quiet) (assignment inner left)
      (assignment inner' left) := by
  unfold assignment
  refine replays_current_bind (fun t => ?_) fun _ _ => Nat.one_pos
  have hreference : Replays T Cursor.Facing k (fun _ => 0) (fun _ => False)
      (reference .assignmentTarget t.span left) (reference .assignmentTarget t.span left) :=
    replays_reference
  refine hreference.next (fun target => ?_) fun _ _ => Nat.one_pos
  refine (replays_expect (by decide)).next (fun t => ?_) fun _ _ => Nat.one_pos
  refine (h _ (Nat.sub_le k 1) .assignment).last (fun value => ?_) fun _ _ _ _ _ hq => hq
  cases t.operation with
  | none => exact replays_pure rfl
  | some operation => exact replays_pure rfl

/-- Behind a dot only a name is not refused, so only there it matters what the property looks at. -/
lemma replays_member {still : Expression → Prop} {power : Power}
    (h : InnerReplays T k quiet inner inner')
    (hp : Replays T Anywhere (k - 1) (fun _ => 1) still (inner power) (inner' power))
    {firm : Prop} (hname : ∀ e : Expression, e.isName → firm → still e) :
    Replays T Cursor.Facing k (fun _ => 1) (fun _ => firm) (member inner left power)
      (member inner' left power) := by
  unfold member
  refine replays_current_bind (fun t => ?_) fun _ _ => Nat.one_pos
  by_cases hd : t.kind = .dot
  · rw [if_pos hd, if_pos hd]
    refine (replays_expect (by decide)).next (fun dot => ?_) fun _ _ => Nat.one_pos
    refine hp.last (fun e => ?_) fun e _ _ _ hr hf => ?_
    · cases e with
      | symbol name => exact replays_pure rfl
      | number value => exact replays_pure rfl
      | _ => exact replays_throw fun _ => rfl
    · cases e with
      | symbol name => exact hname _ rfl hf
      | number value => exact hname _ rfl hf
      | _ => cases hr
  · rw [if_neg hd, if_neg hd]
    refine (replays_expect (by decide)).past ?_ fun _ _ => Nat.one_pos
    refine (h _ (Nat.sub_le k 1) .lowest).next (fun e => ?_) fun _ _ => Nat.one_pos
    exact (replays_expect (by decide)).close (Nat.le_refl 1)

lemma replays_separator (isFirst : Bool) :
    Replays T F k (fun _ => 0) (fun _ => True) (separator isFirst) (separator isFirst) := by
  cases isFirst with
  | true => exact replays_pure rfl
  | false =>
    refine Replays.weaken ?_ (fun _ => Nat.zero_le 1) fun _ => id
    exact (replays_expect (by decide)).map fun _ => id

/-- Each argument uses up a token, so a budget of as many rounds as there are tokens is enough. -/
lemma replays_arguments (h : InnerReplays T k quiet inner inner') (hn : k ≤ n) (hn' : k ≤ n')
    (isFirst : Bool) :
    Replays T F k (fun _ => 0) (fun _ => False) (arguments inner n isFirst)
      (arguments inner' n' isFirst) := by
  induction k generalizing n n' isFirst F with
  | zero => exact replays_zero
  | succ k ih =>
    obtain ⟨n, rfl⟩ := Nat.exists_eq_add_one_of_ne_zero (Nat.ne_zero_of_lt hn)
    obtain ⟨n', rfl⟩ := Nat.exists_eq_add_one_of_ne_zero (Nat.ne_zero_of_lt hn')
    refine replays_skipLayout_bind (replays_current_bind (fun t => ?_) fun _ => False.elim)
    by_cases hc : t.kind = .closeParen
    · rw [if_pos hc, if_pos hc]
      exact replays_pure rfl
    · rw [if_neg hc, if_neg hc]
      refine (replays_separator isFirst).next (fun _ => ?_) fun _ => False.elim
      refine (h (k + 1) (Nat.le_refl _) .lowest).next (fun e => ?_) fun _ => False.elim
      have hrest := ih (F := Anywhere) (h.mono (Nat.le_succ k)) (Nat.le_of_succ_le_succ hn)
        (Nat.le_of_succ_le_succ hn') false
      exact hrest.yield (fun _ => Nat.le_refl 0) fun _ => id

lemma replays_call (h : InnerReplays T k quiet inner inner') (hn : k ≤ n + 1) (hn' : k ≤ n' + 1) :
    Replays T F k (fun _ => 1) (fun _ => True) (call inner n left) (call inner' n' left) := by
  unfold call
  refine (replays_expect (by decide)).past ?_ fun _ _ => Nat.one_pos
  refine (replays_arguments (h.mono (Nat.sub_le k 1)) (by omega) (by omega) true).next
    (fun es => ?_) fun _ _ => Nat.one_pos
  exact (replays_expect (by decide)).close (Nat.le_refl 1)

lemma replays_joining (h : InnerReplays T k quiet inner inner') (hn : k ≤ n + 1)
    (hn' : k ≤ n' + 1) (power : Power) (rule : JoiningRule) :
    Replays T Cursor.Facing k (fun _ => 1) (fun _ => quiet) (joining inner n left power rule)
      (joining inner' n' left power rule) := by
  cases rule with
  | binary => exact replays_binary h power
  | assignment => exact replays_assignment h
  | member => exact replays_member h (h _ (Nat.sub_le k 1) power) fun _ _ hq => hq
  | call => exact (replays_call h hn hn').weaken (fun _ => Nat.le_refl 1) fun _ _ => trivial

section Runs
variable {g : Grammar} {s : ParseState} {power limit : Power}

lemma current_skipLayout (c : Cursor) : c.skipLayout.current = c.next := by
  rw [c.facing_skipLayout.current_eq]
  exact next_congr c.ahead_skipLayout rfl

/-- An expression goes on with what binds tighter than the limit, or it stops. -/
lemma joins_or_stops (g : Grammar) (limit : Power) (t : Token) :
    (∃ rule power, g.joining? t = some (rule, power) ∧ limit < power) ∨
      ∀ rule power, g.joining? t = some (rule, power) → ¬ limit < power := by
  by_cases h : ∃ rule power, g.joining? t = some (rule, power) ∧ limit < power
  · exact .inl h
  · exact .inr fun rule power hj hp => h ⟨rule, power, hj, hp⟩

lemma run_climb_stop
    (h : ∀ rule power, g.joining? s.cursor.next = some (rule, power) → ¬ limit < power) :
    (climb g inner limit (n + 1) left).run s =
      (.ok left, { s with cursor := s.cursor.skipLayout }) := by
  rw [climb, run_skipLayout_bind, run_cursor_bind, current_skipLayout]
  cases hj : g.joining? s.cursor.next with
  | none => rfl
  | some found =>
    obtain ⟨rule, power⟩ := found
    simp only [if_neg (h rule power hj)]
    rfl

/-- What binds tighter than the limit is joined, and where that ends does not depend on the
limit. -/
lemma run_climb_step {rule : JoiningRule} (hj : g.joining? s.cursor.next = some (rule, power)) :
    ∃ log, ∀ inner limit n left, limit < power →
      (climb g inner limit (n + 1) left).run s =
        (joining inner n left power rule >>= climb g inner limit n).run
          { s with cursor := s.cursor.skipLayout, log } := by
  apply Exists.intro
  intro inner limit n left hp
  rw [climb, run_skipLayout_bind, run_cursor_bind, current_skipLayout, hj]
  simp only [if_pos hp]
  rfl

lemma run_expression_none (h : g.opening? s.cursor.next = none) :
    (expression g (n + 1) limit).run s =
      (.error (.noOpening s.cursor.next s.cursor.skipLayout.position),
        { s with cursor := s.cursor.skipLayout }) := by
  rw [expression, run_skipLayout_bind, run_cursor_bind, current_skipLayout, h]
  change (Except.error (ParseError.noOpening s.cursor.skipLayout.current _), _) = _
  rw [current_skipLayout]

lemma run_expression_some {rule : OpeningRule}
    (h : g.opening? s.cursor.next = some (rule, power)) :
    ∃ log, ∀ n limit, (expression g (n + 1) limit).run s =
      (opening (expression g n) rule >>= climb g (expression g n) limit n).run
        { s with cursor := s.cursor.skipLayout, log } := by
  apply Exists.intro
  intro n limit
  rw [expression, run_skipLayout_bind, run_cursor_bind, current_skipLayout, h]
  rfl

end Runs

section Grammars
variable {g g' : Grammar}

/-- An expression that may go on looks at the next token. Where it does not go on, it stays as it
is, and where it does, it uses up that token. -/
lemma replays_climb (hg : Agrees T g g') (h : InnerReplays T k (T.Quiet g g') inner inner')
    (limit : Power) (hn : k ≤ n) (hn' : k ≤ n') :
    Replays T F k (fun _ => 0) (fun _ => T.Quiet g g') (climb g inner limit n left)
      (climb g' inner' limit n' left) := by
  induction k generalizing n n' left F with
  | zero => exact replays_zero
  | succ k ih =>
    obtain ⟨n, rfl⟩ := Nat.exists_eq_add_one_of_ne_zero (Nat.ne_zero_of_lt hn)
    obtain ⟨n', rfl⟩ := Nat.exists_eq_add_one_of_ne_zero (Nat.ne_zero_of_lt hn')
    have hstep (power : Power) (rule : JoiningRule) :
        Replays T Cursor.Facing (k + 1) (fun _ => 1) (fun _ => T.Quiet g g')
          (joining inner n left power rule >>= climb g inner limit n)
          (joining inner' n' left power rule >>= climb g' inner' limit n') := by
      have hjoin : Replays T Cursor.Facing (k + 1) (fun _ => 1) (fun _ => T.Quiet g g')
          (joining inner n left power rule) (joining inner' n' left power rule) :=
        replays_joining h hn hn' power rule
      refine hjoin.last (fun e => ?_) fun _ _ _ _ _ hq => hq
      exact ih (h.mono (Nat.le_succ k)) (by omega) (by omega)
    constructor
    · intro s s₁ e hk hr
      rcases joins_or_stops g limit s.cursor.next with ⟨rule, power, hj, hp⟩ | hstop
      · obtain ⟨log, hrun⟩ := run_climb_step hj
        rw [hrun _ _ _ _ hp] at hr
        have hlen := (hstep power rule).shrinks _ s₁ e (by simpa using hk) hr
        simp only [Cursor.ahead_skipLayout] at hlen
        exact Nat.le_of_succ_le hlen
      · rw [run_climb_stop hstop] at hr
        cases hr
        simp
    · intro s s' hk hF hF' hb
      rcases joins_or_stops g limit s.cursor.next with ⟨rule, power, hj, hp⟩ | hstop
      · obtain ⟨log, hrun⟩ := run_climb_step hj
        rw [hrun _ _ _ _ hp]
        by_cases hin : T.border ≤ s.cursor.ahead.length
        · have hj' : g'.joining? s'.cursor.next = some (rule, power) := by
            rw [hb.next_eq hin, ← hg.joining? _ hb.knows_next, hj]
          obtain ⟨log', hrun'⟩ := run_climb_step hj'
          rw [hrun' _ _ _ _ hp]
          exact (hstep power rule).follows _ _ (by simpa using hk) s.cursor.facing_skipLayout
            s'.cursor.facing_skipLayout hb.skipLayout
        · exact (hstep power rule).follows_outside (fun _ _ => Nat.one_pos) (by simpa using hk)
            (by simpa using hin)
      · rw [run_climb_stop hstop]
        intro hc
        have hstop' : ∀ rule power, g'.joining? s'.cursor.next = some (rule, power) →
            ¬ limit < power := by
          intro rule power hj
          by_cases hin : T.border ≤ s.cursor.ahead.length
          · rw [hb.next_eq hin, ← hg.joining? _ hb.knows_next] at hj
            exact hstop rule power hj
          · rcases hc with hc | ⟨-, hq⟩
            · exact absurd (by simpa using hc) hin
            · rw [(hb.quiet hq hin).2] at hj
              cases hj
        exact ⟨_, run_climb_stop hstop', hb.skipLayout⟩

/-- An expression is repeated if its parts behind the first token are, because it uses up that
token. -/
lemma replays_expression_succ (hg : Agrees T g g') {limit : Power} {still : Expression → Prop}
    (h : ∀ rule, Replays T Anywhere k (fun _ => 1) still
      (opening (expression g n) rule >>= climb g (expression g n) limit n)
      (opening (expression g' n') rule >>= climb g' (expression g' n') limit n')) :
    Replays T F k (fun _ => 1) still (expression g (n + 1) limit)
      (expression g' (n' + 1) limit) := by
  constructor
  · intro s s₁ e hk hr
    cases ho : g.opening? s.cursor.next with
    | none =>
      rw [run_expression_none ho] at hr
      cases hr
    | some found =>
      obtain ⟨log, hrun⟩ := run_expression_some ho
      rw [hrun] at hr
      have hlen := (h found.1).shrinks _ s₁ e (by simpa using hk) hr
      simpa using hlen
  · intro s s' hk _ _ hb
    cases ho : g.opening? s.cursor.next with
    | none =>
      rw [run_expression_none ho]
      rintro m known rfl
      have hin : (Course.level m known).border ≤ s.cursor.ahead.length := Nat.zero_le _
      have ho' : g'.opening? s'.cursor.next = none := by
        rw [hb.next_eq hin, ← hg.opening? _ hb.knows_next, ho]
      refine ⟨{ s' with cursor := s'.cursor.skipLayout }, ?_⟩
      rw [run_expression_none ho', hb.next_eq hin, hb.position_eq]
      rfl
    | some found =>
      obtain ⟨log, hrun⟩ := run_expression_some ho
      rw [hrun]
      by_cases hin : T.border ≤ s.cursor.ahead.length
      · have ho' : g'.opening? s'.cursor.next = some found := by
          rw [hb.next_eq hin, ← hg.opening? _ hb.knows_next, ho]
        obtain ⟨log', hrun'⟩ := run_expression_some ho'
        rw [hrun']
        exact (h found.1).follows _ _ (by simpa using hk) trivial trivial hb.skipLayout
      · exact (h found.1).follows_outside (fun _ _ => Nat.one_pos) (by simpa using hk)
          (by simpa using hin)

lemma replays_expression (hg : Agrees T g g') (hn : k ≤ n) (hn' : k ≤ n') :
    InnerReplays T k (T.Quiet g g') (expression g n) (expression g' n') := by
  induction k generalizing n n' with
  | zero =>
    intro j hj limit
    obtain rfl : j = 0 := Nat.le_zero.1 hj
    exact replays_zero
  | succ k ih =>
    intro j hj limit
    obtain ⟨n, rfl⟩ := Nat.exists_eq_add_one_of_ne_zero (Nat.ne_zero_of_lt hn)
    obtain ⟨n', rfl⟩ := Nat.exists_eq_add_one_of_ne_zero (Nat.ne_zero_of_lt hn')
    have hin : InnerReplays T (j - 1) (T.Quiet g g') (expression g n) (expression g' n') :=
      (ih (by omega) (by omega)).mono (by omega)
    refine replays_expression_succ hg fun rule => ?_
    refine (replays_opening hin rule).last (fun e => ?_) fun _ _ _ _ _ hq => hq
    exact replays_climb hg hin limit (by omega) (by omega)

lemma replays_parseExpression (hg : Agrees T g g') (limit : Power) :
    Replays T F k (fun _ => 1) (fun _ => T.Quiet g g') (parseExpression g limit)
      (parseExpression g' limit) :=
  replays_budget_bind fun j _ _ _ hn hn' => replays_expression hg hn hn' j (Nat.le_refl j) limit

end Grammars
end Exclaim.Parse
