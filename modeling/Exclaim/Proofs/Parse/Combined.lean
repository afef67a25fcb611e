import Mathlib
import Exclaim.Proofs.Parse.Layout
import Exclaim.Proofs.Parse.Progress
import Exclaim.Proofs.Parse.ReadBack
import Exclaim.Proofs.Parse.Replay.Access

/-! A combined assignment is read as the assignment that it stands for: `t op= e` as
`t = t op (e)`. -/
namespace Exclaim

open Parse

/-- The tokens that are no layout. -/
def significant (tokens : List Token) : List Token := tokens.filter (!·.kind.isIgnorable)

/-- The same tokens, up to layout and places. -/
def SameTokens (ts us : List Token) : Prop :=
  (significant ts).map Token.unplaced = (significant us).map Token.unplaced

/-- A combined assignment, spelled as its operator with an `=`. -/
def Token.combined (operation : TokenKind) : Token :=
  { Token.plain .combinedAssignment (operation.spelling?.getD "" ++ "=") with
    operation := some operation }

/-- Before the end of the file, an expression takes all of the tokens `ts` and nothing of `rest`
behind them. -/
structure Takes (limit : Power) (ts rest : List Token) (last : Token) (e : Expression) : Prop where
  last_kind : last.kind = .endOfFile
  run : ∃ s, (parseExpression .stock limit).run (.ofTokens (ts ++ rest ++ [last])) = (.ok e, s) ∧
    s.cursor.ahead = significant rest

/-- What follows a statement: first a token that ends it, and at last the end of the file. -/
structure Closing (rest : List Token) (last : Token) : Prop where
  first : firstKind (significant rest) ∈ terminators
  last_kind : last.kind = .endOfFile

namespace Parse

variable {ts us rest : List Token} {last : Token} {e v : Expression} {limit limit' : Power}
  {n : Nat} {s s₁ : ParseState} {Q : Cursor → Prop}

lemma significant_append : significant (ts ++ us) = significant ts ++ significant us :=
  List.filter_append _ _

lemma significant_cons {t : Token} (h : t.kind.isIgnorable = false) :
    significant (t :: ts) = t :: significant ts := by
  simp [significant, h]

lemma leads_expression (hn : s.cursor.ahead.length < n)
    (h : (expression .stock n limit).run s = (.ok e, s₁)) : s.cursor.Leads s₁.cursor := by
  have hstart : Near s n s := ⟨⟨.refl s.cursor, rfl⟩, hn⟩
  have hmoves : InnerMoves s n (expression .stock n) := moves_expression .stock (Nat.le_refl n)
  have hleads := leads_of_near (hmoves n (Nat.le_refl n) limit) (fun _ _ hs => hs) hstart
  rw [h] at hleads
  exact hleads.cursor

lemma leads_parseExpression (h : (parseExpression .stock limit).run s = (.ok e, s₁)) :
    s.cursor.Leads s₁.cursor := by
  unfold parseExpression at h
  rw [run_budget_bind] at h
  have hlen := s.cursor.length_ahead_le
  exact leads_expression (by omega) h

lemma ahead_ofTokens (hlast : last.kind = .endOfFile) :
    (ParseState.ofTokens (ts ++ [last])).cursor.ahead = significant ts := by
  rw [ParseState.ofTokens, Cursor.ofTokens_append hlast]
  rfl

lemma takes_of_run (hlast : last.kind = .endOfFile)
    (hvalue : ((parseExpression .stock limit).run (.ofTokens (ts ++ rest ++ [last]))).1 = .ok e)
    (hahead : ((parseExpression .stock limit).run
      (.ofTokens (ts ++ rest ++ [last]))).2.cursor.ahead = significant rest) :
    Takes limit ts rest last e :=
  ⟨hlast, _, Prod.ext hvalue rfl, hahead⟩

lemma takes_of_reads (hlast : last.kind = .endOfFile)
    (h : Reads (Ahead (significant ts ++ significant rest)) (parseExpression .stock limit) e
      (Ahead (significant rest))) : Takes limit ts rest last e := by
  have hahead : (ParseState.ofTokens (ts ++ rest ++ [last])).cursor.ahead =
      significant ts ++ significant rest := by
    rw [ahead_ofTokens hlast, significant_append]
  obtain ⟨s, hrun, -, hs⟩ := h (.ofTokens (ts ++ rest ++ [last])) hahead
  exact ⟨hlast, s, hrun, hs⟩

/-- What a taken expression says about the parser for inner expressions. -/
lemma run_of_takes (h : Takes limit ts rest last e) :
    ∃ n s s₁, s.cursor.ahead = significant ts ++ significant rest ∧ s.cursor.ahead.length ≤ n ∧
      (expression .stock (n + 1) limit).run s = (.ok e, s₁) ∧
      s₁.cursor.ahead = significant rest ∧ s.cursor.Leads s₁.cursor := by
  obtain ⟨hlast, s₁, hrun, hrest⟩ := h
  have hleads := leads_parseExpression hrun
  unfold parseExpression at hrun
  rw [run_budget_bind] at hrun
  have hlen := (ParseState.ofTokens (ts ++ rest ++ [last])).cursor.length_ahead_le
  refine ⟨_, _, s₁, ?_, ?_, hrun, hrest, hleads⟩
  · rw [ahead_ofTokens hlast, significant_append]
  · omega

section Limits
variable {inner : Inner} {left : Expression}

/-- A lower limit changes nothing where the expression ends before what cannot go on. -/
lemma run_climb_lower (hle : ¬ limit < limit')
    (h : (climb .stock inner limit n left).run s = (.ok e, s₁))
    (hnext : Grammar.stock.joining? s₁.cursor.next = none) :
    (climb .stock inner limit' n left).run s = (.ok e, s₁) := by
  induction n generalizing left s with
  | zero => cases h
  | succ n ih =>
    rcases joins_or_stops .stock limit s.cursor.next with ⟨rule, power, hj, hp⟩ | hstop
    · obtain ⟨log, hstep⟩ := run_climb_step hj
      have hp' : limit' < power := by
        change ¬ limit.rank < limit'.rank at hle
        change limit.rank < power.rank at hp
        change limit'.rank < power.rank
        omega
      rw [hstep _ _ _ _ hp] at h
      rw [hstep _ _ _ _ hp', run_bind]
      obtain ⟨next, s₂, hjoin, hrest⟩ := run_bind_ok h
      rw [hjoin]
      exact ih hrest
    · rw [run_climb_stop hstop] at h
      cases h
      refine run_climb_stop fun rule power hj => ?_
      rw [next_congr s.cursor.ahead_skipLayout rfl, hj] at hnext
      cases hnext

lemma run_expression_lower (hle : ¬ limit < limit')
    (h : (expression .stock n limit).run s = (.ok e, s₁))
    (hnext : Grammar.stock.joining? s₁.cursor.next = none) :
    (expression .stock n limit').run s = (.ok e, s₁) := by
  cases n with
  | zero => cases h
  | succ n =>
    cases ho : Grammar.stock.opening? s.cursor.next with
    | none =>
      rw [run_expression_none ho] at h
      cases h
    | some found =>
      obtain ⟨log, hstep⟩ := run_expression_some ho
      rw [hstep] at h ⊢
      obtain ⟨left, s₂, hopen, hrest⟩ := run_bind_ok h
      rw [run_bind, hopen]
      exact run_climb_lower hle hrest hnext

end Limits

lemma significant_terminator {stop : Token} (h : stop.kind ∈ terminators) :
    significant (stop :: rest) = stop :: significant rest := by
  simp only [terminators, List.mem_cons, List.not_mem_nil, or_false] at h
  rcases h with h | h | h <;> exact significant_cons (by rw [h]; rfl)

lemma significant_parenthesized :
    significant (parenthesized ts) = parenthesized (significant ts) := by
  simp [parenthesized, significant, TokenKind.isIgnorable]

/-- What is taken before the end of a statement is read before anything else that does not go on
with it, with the same limit or a lower one. -/
lemma reads_of_takes {stop : Token} (hstop : stop.kind ∈ terminators)
    (h : Takes limit ts [stop] last e) (hle : ¬ limit < limit') (hrest : Halts rest)
    (hne : rest ≠ []) (hn : (significant ts ++ rest).length < n) :
    Reads (Ahead (significant ts ++ rest)) (expression .stock n limit') e (Ahead rest) := by
  obtain ⟨m, s, s₁, hahead, hm, hrun, hend, hleads⟩ := run_of_takes h
  rw [significant_terminator hstop] at hahead hend
  have hnext : Grammar.stock.joining? s₁.cursor.next = none := by
    rw [Cursor.next_of_ahead_cons hend]
    exact joining?_terminator hstop
  have hlower := run_expression_lower hle hrun hnext
  intro s' (hs' : s'.cursor.ahead = _)
  have hlong : s'.cursor.ahead.length < n := by rwa [hs']
  obtain ⟨far, hshorter, hfar, hb⟩ := Beside.exists_fork hleads (hend ▸ hahead) hs'
    (by simp [hs', hne]) (by rw [hend]; exact List.length_pos_iff.2 hne)
  have hquiet : (Course.fork s₁.cursor far hshorter).Quiet .stock .stock := by
    refine ⟨hnext, ?_⟩
    obtain ⟨t, us, rfl⟩ := List.exists_cons_of_ne_nil hne
    rw [Cursor.next_of_ahead_cons hfar]
    exact hrest t rfl
  have hreplays := replays_expression (agrees_refl (.fork s₁.cursor far hshorter) .stock)
    (Nat.succ_le_succ hm) (Nat.lt_of_le_of_lt hb.length_le hlong) (s.cursor.ahead.length + 1)
    (Nat.le_refl _) limit'
  have hfollows := hreplays.follows s s' (Nat.lt_succ_self _) trivial trivial hb
  rw [hlower] at hfollows
  obtain ⟨s₁', hrun', hb₁⟩ := hfollows (.inr ⟨Nat.le_refl _, hquiet⟩)
  exact ⟨s₁', hrun', leads_expression hlong hrun', hb₁.ahead_far.trans hfar⟩

/-- What is taken on its own and is no operation is read before anything, which it then goes on
with. -/
lemma reads_target (h : Takes .lowest ts [] last e) (he : e.isOperation = false)
    (hlimit : limit < .access) (hn : (significant ts ++ rest).length ≤ n)
    (hc : ∀ j, rest.length < j → Reads (Ahead rest) (climb .stock (expression .stock n) limit j e)
      v Q) :
    Reads (Ahead (significant ts ++ rest)) (expression .stock (n + 1) limit) v Q := by
  obtain ⟨m, s, s₁, hahead, hm, hrun, hend, hleads⟩ := run_of_takes h
  have hne : significant ts ≠ [] := by
    intro hnil
    rw [hnil] at hahead
    have hclosed : Grammar.stock.opening? s.cursor.next = none := by
      rw [Cursor.next_of_ahead_nil hahead]
      exact Grammar.opening?_of_kind s.cursor.last_kind (by decide) rfl
    rw [run_expression_none hclosed] at hrun
    cases hrun
  intro s' (hs' : s'.cursor.ahead = _)
  have hlong : s'.cursor.ahead.length ≤ n := by rwa [hs']
  obtain ⟨far, hshorter, hfar, hb⟩ := Beside.exists_fork hleads (hend ▸ hahead) hs'
    (by simp [hs', hne]) (by rw [hend]; exact Nat.zero_le _)
  obtain ⟨j, s₂, hgoes, hb₂, hj⟩ := run_expression_fork hlimit hb hm hlong hrun rfl he
  obtain ⟨s₃, hrun₃, -, hq⟩ := hc j (hfar ▸ hj) s₂ (hb₂.ahead_far.trans hfar)
  have hrun' := hgoes.trans hrun₃
  exact ⟨s₃, hrun', leads_expression (Nat.lt_succ_of_le hlong) hrun', hq⟩

section Sides
variable {target : Reference} {value right : Expression} {t e : List Token} {o stop last' : Token}
  {power : Power}

/-- What an assignment makes of its target and of the value that is read. -/
def assigned (o : Token) (target : Reference) (right : Expression) : Expression :=
  match o.operation with
  | some operation =>
      .assignment target (.binary target.toExpression (combinedOperator o operation) right)
  | none => .assignment target right

/-- An assignment of any kind, before what does not go on with it. -/
lemma reads_assigned (ht : Takes .lowest t [] last target.toExpression)
    (ho : o.kind = .combinedAssignment ∨ o.kind = .equalSign) (hrest : Halts rest)
    (hn : (significant t ++ o :: (us ++ rest)).length < n)
    (hv : ∀ m, (us ++ rest).length < m →
      Reads (Ahead (us ++ rest)) (expression .stock m .assignment) right (Ahead rest)) :
    Reads (Ahead (significant t ++ o :: (us ++ rest))) (expression .stock n .lowest)
      (assigned o target right) (Ahead rest) := by
  obtain ⟨n, rfl⟩ := Nat.exists_eq_add_one_of_ne_zero (Nat.ne_zero_of_lt hn)
  have hjoins : Grammar.stock.joining? o = some (.assignment, .assignment) := by
    rcases ho with ho | ho <;> exact Grammar.joining?_of_kind ho rfl
  have hplace := Reference.isOperation_of_ofExpression? target.ofExpression?_toExpression
  refine reads_target ht hplace (by decide) (Nat.le_of_lt_succ hn) fun j hj => ?_
  obtain ⟨j, rfl⟩ := Nat.exists_eq_add_one_of_ne_zero (Nat.ne_zero_of_lt hj)
  rw [List.length_cons] at hj
  rw [List.length_append, List.length_cons] at hn
  refine reads_climb_step hjoins (by decide) ?_ (reads_climb_end hrest.stops (by omega))
  refine reads_current_bind ((reads_reference _ _ target).bind ?_)
  refine Reads.before ((reads_expect (by simpa using ho)).bind ((hv n (by omega)).bind ?_))
  unfold assigned
  cases o.operation with
  | some operation => exact .pure _
  | none => exact .pure _

/-- An operator between the target and the value in parentheses. -/
lemma reads_operated (ht : Takes .lowest t [] last target.toExpression)
    (hstop : stop.kind ∈ terminators) (he : Takes .assignment e [stop] last' value)
    (ho : Grammar.stock.joining? o = some (.binary, power)) (hp : .assignment < power)
    (hrest : Halts rest)
    (hn : (significant t ++ o :: (parenthesized (significant e) ++ rest)).length < n) :
    Reads (Ahead (significant t ++ o :: (parenthesized (significant e) ++ rest)))
      (expression .stock n .assignment) (.binary target.toExpression o value) (Ahead rest) := by
  obtain ⟨n, rfl⟩ := Nat.exists_eq_add_one_of_ne_zero (Nat.ne_zero_of_lt hn)
  have hplace := Reference.isOperation_of_ofExpression? target.ofExpression?_toExpression
  refine reads_target ht hplace (by decide) (Nat.le_of_lt_succ hn) fun j hj => ?_
  obtain ⟨j, rfl⟩ := Nat.exists_eq_add_one_of_ne_zero (Nat.ne_zero_of_lt hj)
  simp only [parenthesized, List.length_append, List.length_cons] at hj hn
  refine reads_climb_step ho hp ?_ (reads_climb_end hrest.stops (by omega))
  obtain ⟨n, rfl⟩ := Nat.exists_eq_add_one_of_ne_zero (n := n) (by omega)
  have hvalue : Reads (Ahead (significant e ++ .mark .closeParen :: rest))
      (expression .stock n .lowest) value (Ahead (.mark .closeParen :: rest)) :=
    reads_of_takes hstop he (by decide) (halts_cons rfl) (List.cons_ne_nil _ _)
      (by rw [List.length_append, List.length_cons]; omega)
  refine reads_pass.bind (Reads.bind ?_ (.pure _))
  exact reads_parenthesized hvalue (reads_climb_end hrest.stops (by omega))

end Sides

/-- Layout and places do not matter to what is taken. -/
lemma takes_of_sameTokens (h : Takes limit ts rest last e) (hsame : SameTokens us ts) :
    ∃ e', Takes limit us rest last e' ∧ e'.unplaced = e.unplaced := by
  obtain ⟨hlast, s, hrun, hs⟩ := h
  have hagree : ((ts ++ rest ++ [last]).filter (!·.kind.isIgnorable)).map Token.unplaced =
      ((us ++ rest ++ [last]).filter (!·.kind.isIgnorable)).map Token.unplaced := by
    simp only [List.filter_append, List.map_append]
    rw [show (ts.filter _).map _ = _ from hsame.symm]
    rfl
  have hm := alike_parseExpression .stock limit (.ofTokens (ts ++ rest ++ [last]))
    (.ofTokens (us ++ rest ++ [last])) ⟨aligned_ofTokens hlast hlast hagree, Nat.lt_succ_self _⟩
  rw [hrun] at hm
  rcases hrun' : (parseExpression .stock limit).run (.ofTokens (us ++ rest ++ [last])) with
    ⟨_ | e', s'⟩
  · rw [hrun'] at hm
    exact hm.elim
  · rw [hrun'] at hm
    refine ⟨e', ⟨hlast, s', hrun', ?_⟩, hm.1.symm⟩
    -- The cursors have equally many tokens ahead, so the second one stands before `rest` too.
    obtain ⟨used, -, hused⟩ := (leads_parseExpression hrun').passed
    rw [ahead_ofTokens hlast, significant_append] at hused
    have hlen : (significant rest).length = s'.cursor.ahead.length := by
      rw [← hs]
      exact hm.2.1.length_eq
    exact (List.append_inj' hused hlen).2.symm

lemma halts_closing (h : Closing rest last) :
    Halts (significant rest) ∧ significant rest ≠ [] := by
  have hfirst := h.first
  cases hs : significant rest with
  | nil =>
    rw [hs] at hfirst
    exact absurd hfirst (by decide)
  | cons stop more =>
    rw [hs] at hfirst
    exact ⟨halts_cons (joining?_terminator hfirst), List.cons_ne_nil _ _⟩

section Combined
variable {target : Reference} {value : Expression} {t e : List Token} {stop lastT lastE : Token}
  {operation : TokenKind}

lemma takes_combined (ht : Takes .lowest t [] lastT target.toExpression)
    (hstop : stop.kind ∈ terminators) (he : Takes .assignment e [stop] lastE value)
    (hclose : Closing rest last) :
    Takes .lowest (t ++ .combined operation :: e) rest last
      (.assignment target (.binary target.toExpression
        (combinedOperator (.combined operation) operation) value)) := by
  obtain ⟨hhalts, hne⟩ := halts_closing hclose
  refine takes_of_reads hclose.last_kind (reads_parseExpression fun n hn => ?_)
  rw [significant_append, significant_cons rfl, List.append_assoc, List.cons_append] at hn ⊢
  refine reads_assigned ht (.inl rfl) hhalts hn fun m hm => ?_
  exact reads_of_takes hstop he (by decide) hhalts hne hm

/-- An operator that combines binds tighter than an assignment. -/
lemma joining?_combines (hop : operation.combines) :
    ∃ power, Grammar.stock.joining? (.mark operation) = some (.binary, power) ∧
      .assignment < power := by
  cases operation <;> first | exact ⟨_, rfl, by decide⟩ | exact absurd hop (by decide)

lemma takes_spelled_out (hop : operation.combines)
    (ht : Takes .lowest t [] lastT target.toExpression)
    (hstop : stop.kind ∈ terminators) (he : Takes .assignment e [stop] lastE value)
    (hclose : Closing rest last) :
    Takes .lowest (t ++ .mark .equalSign :: (t ++ .mark operation :: parenthesized e)) rest last
      (.assignment target (.binary target.toExpression (.mark operation) value)) := by
  obtain ⟨hhalts, -⟩ := halts_closing hclose
  obtain ⟨power, hjoins, hpower⟩ := joining?_combines hop
  have hkind : operation.isIgnorable = false :=
    isIgnorable_of_operatorPower? (by rw [operatorPower?_eq_some.2 hjoins]; rfl)
  refine takes_of_reads hclose.last_kind (reads_parseExpression fun n hn => ?_)
  rw [significant_append, significant_cons rfl, significant_append, significant_cons hkind,
    significant_parenthesized, List.append_assoc, List.cons_append] at hn ⊢
  refine reads_assigned ht (.inr rfl) hhalts hn fun m hm => ?_
  rw [List.append_assoc, List.cons_append] at hm ⊢
  exact reads_operated ht hstop he hjoins hpower hhalts hm

end Combined

/-- The operator of a combined assignment is the operator that was combined. -/
lemma unplaced_combinedOperator_combined (operation : TokenKind) :
    (combinedOperator (.combined operation) operation).unplaced =
      (Token.mark operation).unplaced := by
  cases operation <;> rfl

end Parse

/-- A combined assignment is what it stands for. The tokens `t` are read on their own as a target,
and `e` before the end of a statement as a value. Then `t op= e` and `t = t op (e)` are read as the
same tree, up to places, whatever the layout. -/
theorem parseExpression_combined {t e first second rest rest' : List Token}
    {lastT lastE last last' stop : Token} {target : Reference} {value : Expression}
    {operation : TokenKind} (hop : operation.combines)
    (ht : Takes .lowest t [] lastT target.toExpression) (hstop : stop.kind ∈ terminators)
    (he : Takes .assignment e [stop] lastE value)
    (hfirst : SameTokens first (t ++ .combined operation :: e))
    (hsecond : SameTokens second
      (t ++ .mark .equalSign :: (t ++ .mark operation :: parenthesized e)))
    (hclose : Closing rest last) (hclose' : Closing rest' last') :
    ∃ a a', Takes .lowest first rest last a ∧ Takes .lowest second rest' last' a' ∧
      a.unplaced = a'.unplaced := by
  obtain ⟨a, ha, hau⟩ := takes_of_sameTokens (takes_combined ht hstop he hclose) hfirst
  obtain ⟨a', ha', hau'⟩ := takes_of_sameTokens (takes_spelled_out hop ht hstop he hclose') hsecond
  refine ⟨a, a', ha, ha', ?_⟩
  rw [hau, hau']
  simp only [Expression.unplaced, unplaced_combinedOperator_combined]

/-- `a.b *= x - y!` on one line, and `a.b = a.b * (x - y)!` on the next. -/
theorem parseExpression_combined_product :
    let word (name : String) (line : Nat) : Token := { Token.word name with line }
    let mark (kind : TokenKind) (line : Nat) : Token := { Token.mark kind with line }
    let t (line : Nat) := [word "a" line, mark .dot line, word "b" line]
    let e (line : Nat) := [word "x" line, mark .subtract line, word "y" line]
    let gap : Token := .plain .whiteSpace "1"
    let last : Token := .mark .endOfFile
    let first := t 1 ++ [gap, { Token.combined .multiply with line := 1 }, gap] ++ e 1
    let second := t 2 ++ [gap, mark .equalSign 2, gap] ++ t 2 ++ [gap, mark .multiply 2, gap] ++
      [mark .openParen 2] ++ e 2 ++ [mark .closeParen 2]
    ∃ a a', Takes .lowest first [mark .exclamation 1] last a ∧
      Takes .lowest second [mark .exclamation 2] last a' ∧ a.unplaced = a'.unplaced := by
  intro word mark t e gap last first second
  have ht : Takes .lowest (t 0) [] last
      (Reference.member (.symbol "a") (.symbol "b") false).toExpression :=
    takes_of_run rfl (by cbv) (by cbv)
  have he : Takes .assignment (e 0) [mark .exclamation 0] last
      (.binary (.symbol "x") (.mark .subtract) (.symbol "y")) :=
    takes_of_run rfl (by cbv) (by cbv)
  have hfirst : SameTokens first (t 0 ++ .combined .multiply :: e 0) := rfl
  have hsecond : SameTokens second
      (t 0 ++ .mark .equalSign :: (t 0 ++ .mark .multiply :: parenthesized (e 0))) := rfl
  have hclose (line : Nat) : Closing [mark .exclamation line] last := ⟨.head _, rfl⟩
  exact parseExpression_combined rfl ht (.head _) he hfirst hsecond (hclose 1) (hclose 2)

end Exclaim
