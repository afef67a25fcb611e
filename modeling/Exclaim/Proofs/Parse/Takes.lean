import Exclaim.Proofs.Parse.Concatenation
import Exclaim.Proofs.Parse.Spelled

/-! What a parse gives is spelled by the tokens that it uses up. `Takes p R` says that whenever the
action `p` succeeds, the tokens between its two cursors are related by `R` to its value. -/
namespace Exclaim
namespace Parse

section Rules
variable {α β : Type} {p : Parse α} {f : α → Parse β} {q : Parse β} {R : α → List Token → Prop}
  {S : β → List Token → Prop} {s : ParseState}

/-- From this state, a success of the action uses up tokens that are related to its value, unless an
end of the file stands among the other tokens. -/
def TakesAt (s : ParseState) (p : Parse α) (R : α → List Token → Prop) : Prop :=
  (∀ t ∈ s.cursor.ahead, t.kind ≠ .endOfFile) → ∀ a s₁, p.run s = (.ok a, s₁) →
    ∃ ts, s.cursor.ahead = ts ++ s₁.cursor.ahead ∧ R a ts

def Takes (p : Parse α) (R : α → List Token → Prop) : Prop := ∀ s, TakesAt s p R

lemma TakesAt.bind (hp : TakesAt s p R)
    (hf : ∀ a ts, R a ts → Takes (f a) fun b us => S b (ts ++ us)) : TakesAt s (p >>= f) S := by
  intro hs b s₂ hr
  rw [run_bind] at hr
  rcases hrun : p.run s with ⟨e | a, s₁⟩
  · rw [hrun] at hr
    cases hr
  rw [hrun] at hr
  obtain ⟨ts, hts, ha⟩ := hp hs a s₁ hrun
  rw [hts] at hs ⊢
  obtain ⟨us, hus, hb⟩ := hf a ts ha s₁ (fun t ht => hs t (List.mem_append_right ts ht)) b s₂ hr
  exact ⟨ts ++ us, by rw [hus, List.append_assoc], hb⟩

lemma Takes.bind (hp : Takes p R)
    (hf : ∀ a ts, R a ts → Takes (f a) fun b us => S b (ts ++ us)) : Takes (p >>= f) S :=
  fun s => (hp s).bind hf

lemma TakesAt.weaken {R' : α → List Token → Prop} (h : TakesAt s p R)
    (hR : ∀ a ts, R a ts → R' a ts) : TakesAt s p R' := by
  intro hs a s₁ hr
  obtain ⟨ts, hts, ha⟩ := h hs a s₁ hr
  exact ⟨ts, hts, hR a ts ha⟩

lemma takes_pure {a : α} (h : R a []) : Takes (pure a) R := by
  intro s hs b s₁ hr
  cases hr
  exact ⟨[], rfl, h⟩

lemma takes_throw {e : ParseError} : Takes (throw e) R := fun _ _ _ _ hr => by cases hr

lemma takes_cutOff : Takes cutOff R := fun _ _ _ _ hr => by cases hr

lemma Takes.map {g : α → β} (hp : Takes p R) (hg : ∀ a ts, R a ts → S (g a) ts) :
    Takes (g <$> p) S := by
  rw [map_eq_pure_bind]
  exact hp.bind fun a ts ha => takes_pure (by simpa using hg a ts ha)

/-- A state with the same tokens ahead will do. -/
lemma takesAt_of_run {s' : ParseState} {p' : Parse α} (h : TakesAt s' p' R)
    (hahead : s'.cursor.ahead = s.cursor.ahead) (hrun : p.run s = p'.run s') : TakesAt s p R := by
  intro hs a s₁ hr
  rw [← hahead] at hs ⊢
  exact h hs a s₁ (hrun ▸ hr)

lemma takes_skipLayout_bind (h : Takes q S) : Takes (skipLayout >>= fun _ => q) S := fun s =>
  takesAt_of_run (h _) s.cursor.ahead_skipLayout (run_skipLayout_bind _ s)

lemma takes_current_bind {f : Token → Parse β} (h : ∀ t, Takes (f t) S) :
    Takes (current >>= f) S := fun s =>
  takesAt_of_run (h s.cursor.current s) rfl (run_bind _ _ s)

lemma takes_budget_bind {f : Nat → Parse β} (h : ∀ n, Takes (f n) S) :
    Takes (budget >>= f) S := fun s => takesAt_of_run (h _ s) rfl (run_budget_bind f s)

lemma takes_test_bind (expected : Expected) {f : Bool → Parse β} (h : ∀ b, Takes (f b) S) :
    Takes ((return (← expectWith expected .probe).1) >>= f) S := by
  intro s
  obtain ⟨log, hrun⟩ := run_test expected s
  exact takesAt_of_run (h _ { s with log }) rfl (by rw [run_bind, hrun])

lemma takes_check_bind {kinds : List TokenKind} {f : Bool → Parse β} (h : ∀ b, Takes (f b) S) :
    Takes (check kinds >>= f) S := takes_test_bind (.kinds kinds) h

lemma takes_checkWord_bind {words : List String} {f : Bool → Parse β} (h : ∀ b, Takes (f b) S) :
    Takes (checkWord words >>= f) S := takes_test_bind (.words words) h

/-- A next token other than the end of the file is the first one ahead. -/
lemma ahead_eq_cons_pass {c : Cursor} (h : c.next.kind ≠ .endOfFile) :
    c.ahead = [c.next] ++ c.pass.ahead := by
  rw [c.ahead_pass]
  cases hc : c.ahead with
  | nil =>
    rw [Cursor.next_of_ahead_nil hc] at h
    exact absurd c.last_kind h
  | cons t ts => rw [Cursor.next_of_ahead_cons hc, List.tail_cons, List.singleton_append]

/-- Without an end of the file among the tokens ahead, it comes next when none of them is left. -/
lemma ahead_eq_nil {c : Cursor} (hc : ∀ t ∈ c.ahead, t.kind ≠ .endOfFile)
    (h : c.next.kind = .endOfFile) : c.ahead = [] := by
  cases ha : c.ahead with
  | nil => rfl
  | cons t ts =>
    rw [Cursor.next_of_ahead_cons ha] at h
    exact absurd h (hc t (by simp [ha]))

lemma takes_take (expected : Expected) {R : Token → List Token → Prop}
    (hmet : ∀ c : Cursor, (∀ t ∈ c.ahead, t.kind ≠ .endOfFile) → expected.isMet c.next →
      ∃ ts, c.ahead = ts ++ c.pass.ahead ∧ R c.next ts) :
    Takes (return (← expectWith expected {}).2) R := by
  intro s hs t s₁ hr
  rw [run_take] at hr
  by_cases hm : expected.isMet s.cursor.next
  · rw [if_pos hm] at hr
    cases hr
    exact hmet s.cursor hs hm
  · rw [if_neg hm] at hr
    cases hr

lemma takes_expect {kinds : List TokenKind} (h : .endOfFile ∉ kinds) :
    Takes (expect kinds) fun t ts => t.kind ∈ kinds ∧ ts = [t] := by
  refine takes_take (.kinds kinds) fun c _ hm => ?_
  have hk : c.next.kind ∈ kinds := List.contains_iff_mem.1 hm
  exact ⟨[c.next], ahead_eq_cons_pass fun he => h (he ▸ hk), hk, rfl⟩

lemma takes_expectWord {words : List String} :
    Takes (expectWord words) fun t ts => (t.kind = .identifier ∧ t.value ∈ words) ∧ ts = [t] := by
  refine takes_take (.words words) fun c _ hm => ?_
  have hk : c.next.kind = .identifier ∧ c.next.value ∈ words := by
    simpa [Expected.isMet] using hm
  exact ⟨[c.next], ahead_eq_cons_pass (by simp [hk.1]), hk, rfl⟩

lemma takes_expect_endOfFile : Takes (expect [.endOfFile]) fun _ ts => ts = [] := by
  refine takes_take (.kinds [.endOfFile]) fun c hc hm => ⟨[], ?_, rfl⟩
  have hk : c.next.kind = .endOfFile := List.mem_singleton.1 (List.contains_iff_mem.1 hm)
  rw [c.ahead_pass, ahead_eq_nil hc hk]
  rfl

lemma takes_expect_bind {kinds : List TokenKind} {f : Token → Parse β} (h : .endOfFile ∉ kinds)
    (hf : ∀ t : Token, t.kind ∈ kinds → Takes (f t) fun b ts => S b (t :: ts)) :
    Takes (expect kinds >>= f) S := by
  refine (takes_expect h).bind fun t ts ht => ?_
  obtain ⟨hk, rfl⟩ := ht
  exact hf t hk

lemma takes_expect_past {kinds : List TokenKind} (h : .endOfFile ∉ kinds)
    (hq : ∀ t : Token, t.kind ∈ kinds → Takes q fun b ts => S b (t :: ts)) :
    Takes (discard (expect kinds) >>= fun _ => q) S := by
  have hdiscard : Takes (discard (expect kinds))
      fun _ ts => ∃ t : Token, t.kind ∈ kinds ∧ ts = [t] :=
    (takes_expect h).map fun t ts ht => ⟨t, ht⟩
  refine hdiscard.bind fun _ ts ht => ?_
  obtain ⟨t, hk, rfl⟩ := ht
  exact hq t hk

lemma takes_expectWord_bind {words : List String} {f : Token → Parse β}
    (hf : ∀ t : Token, t.kind = .identifier → Takes (f t) fun b ts => S b (t :: ts)) :
    Takes (expectWord words >>= f) S := by
  refine takes_expectWord.bind fun t ts ht => ?_
  obtain ⟨hk, rfl⟩ := ht
  exact hf t hk.1

lemma takes_expectWord_past {words : List String}
    (hq : ∀ t : Token, t.kind = .identifier → Takes q fun b ts => S b (t :: ts)) :
    Takes (discard (expectWord words) >>= fun _ => q) S := by
  have hdiscard : Takes (discard (expectWord words))
      fun _ ts => ∃ t : Token, t.kind = .identifier ∧ ts = [t] :=
    takes_expectWord.map fun t ts ht => ⟨t, ht.1.1, ht.2⟩
  refine hdiscard.bind fun _ ts ht => ?_
  obtain ⟨t, hk, rfl⟩ := ht
  exact hq t hk

end Rules

section Expressions
variable {inner : Inner} {left : Expression} {power : Power} {s : ParseState}

def InnerTakes (inner : Inner) : Prop := ∀ limit, Takes (inner limit) Expression.Spelled

/-- The expression that goes on from `left` is spelled by the tokens of both. -/
def Extends (left e : Expression) (us : List Token) : Prop :=
  ∀ ts, left.Spelled ts → e.Spelled (ts ++ us)

lemma takes_primary : Takes primary Expression.Spelled := by
  unfold primary
  refine takes_expect_bind (by decide) fun t ht => ?_
  split
  · next hnumber =>
    split
    · next value hread => exact takes_pure (.number hnumber hread)
    · exact takes_throw
  · next hstring => exact takes_pure (.string hstring)
  · next hnumber hstring =>
    simp only [List.mem_cons, List.not_mem_nil, or_false] at ht
    exact takes_pure (.symbol ((ht.resolve_left hnumber).resolve_left hstring))

lemma takes_grouping (h : InnerTakes inner) : Takes (grouping inner) Expression.Spelled := by
  unfold grouping
  refine takes_expect_past (by decide) fun opener hopen => ?_
  refine (h .lowest).bind fun e ts he => takes_expect_past (by decide) fun closer hclose => ?_
  refine takes_pure ?_
  exact .grouping (List.mem_singleton.1 hopen) he (List.mem_singleton.1 hclose)

lemma takes_unary (h : InnerTakes inner) : Takes (unary inner) Expression.Spelled := by
  unfold unary
  refine takes_expect_bind (by decide) fun operator hk => (h .unary).bind fun e ts he => ?_
  exact takes_pure (by simpa using .unary hk he)

lemma takes_reference {context : ShapeContext} {span : Span} {e : Expression} :
    Takes (reference context span e) fun r ts => r.toExpression = e ∧ ts = [] := by
  unfold reference
  cases hr : Reference.ofExpression? e with
  | none => exact takes_throw
  | some r => exact takes_pure ⟨Reference.toExpression_of_ofExpression? hr, rfl⟩

lemma takes_stateOperator :
    Takes stateOperator fun t ts => IsStateOperator t ∧ ts = [t] := by
  unfold stateOperator
  refine takes_checkWord_bind fun b => ?_
  cases b with
  | true => exact fun s => (takes_expectWord s).weaken fun t ts ht => ⟨.inl ht.1, ht.2⟩
  | false =>
    refine fun s => (takes_expect (by decide) s).weaken fun t ts ht => ⟨.inr ?_, ht.2⟩
    simpa using ht.1

lemma takes_state (h : InnerTakes inner) : Takes (state inner) Expression.Spelled := by
  unfold state
  refine takes_stateOperator.bind fun operator us hk => ?_
  obtain ⟨hk, rfl⟩ := hk
  refine (h .unary).bind fun e ts he => takes_reference.bind fun r us hr => ?_
  obtain ⟨rfl, rfl⟩ := hr
  exact takes_pure (by simpa using .state hk he)

lemma takes_opening (h : InnerTakes inner) (rule : OpeningRule) :
    Takes (opening inner rule) Expression.Spelled := by
  cases rule with
  | primary => exact takes_primary
  | grouping => exact takes_grouping h
  | unary => exact takes_unary h
  | state => exact takes_state h

/-- The operator is the next token, for which the grammar found this rule. -/
lemma takesAt_binary (h : InnerTakes inner) (hf : s.cursor.Facing)
    (hj : Grammar.stock.joining? s.cursor.next = some (.binary, power)) :
    TakesAt s (binary inner left power) (Extends left) := by
  have hpower : operatorPower? s.cursor.next = some power := operatorPower?_eq_some.2 hj
  have hadvance : TakesAt s (advance 1) fun t ts => (operatorPower? t).isSome ∧ ts = [t] := by
    intro _ t s₁ hr
    change (Except.ok s.cursor.current, { s with cursor := s.cursor.moveBy 1 }) = _ at hr
    rw [hf.current_eq, hf.moveBy_one] at hr
    cases hr
    refine ⟨[s.cursor.next], ahead_eq_cons_pass fun hend => ?_, by rw [hpower]; rfl, rfl⟩
    rw [Grammar.joining?_of_kind hend rfl] at hj
    cases hj
  unfold binary
  refine hadvance.bind fun operator us hk => ?_
  obtain ⟨hk, rfl⟩ := hk
  refine (h power).bind fun e us he => takes_pure fun ts hleft => ?_
  simpa using .binary hleft hk he

lemma takes_assignment (h : InnerTakes inner) : Takes (assignment inner left) (Extends left) := by
  unfold assignment
  refine takes_current_bind fun t => takes_reference.bind fun target us hr => ?_
  obtain ⟨rfl, rfl⟩ := hr
  refine takes_expect_bind (by decide) fun sign hk => (h .assignment).bind fun value us hv => ?_
  cases ho : sign.operation with
  | none => exact takes_pure fun ts hleft => by simpa using .assignment hleft hk ho hv
  | some operation => exact takes_pure fun ts hleft => by simpa using .combined hleft hk ho hv

lemma takes_member (h : InnerTakes inner) : Takes (member inner left power) (Extends left) := by
  unfold member
  refine takes_current_bind fun t => ?_
  split
  · refine takes_expect_bind (by decide) fun dot hdot => (h power).bind fun property us hp => ?_
    have hmember : Extends left (.member left property false) (dot :: us) := fun ts hleft =>
      .property hleft (List.mem_singleton.1 hdot) hp
    split
    · exact takes_pure (by simpa using hmember)
    · exact takes_pure (by simpa using hmember)
    · exact takes_throw
  · refine takes_expect_past (by decide) fun opener hopen => ?_
    refine (h .lowest).bind fun property us hp => ?_
    refine takes_expect_past (by decide) fun closer hclose => ?_
    refine takes_pure fun ts hleft => ?_
    exact .element hleft (List.mem_singleton.1 hopen) hp (List.mem_singleton.1 hclose)

lemma takes_separator (isFirst : Bool) :
    Takes (separator isFirst) fun _ ts => Separates isFirst ts := by
  cases isFirst with
  | true => exact takes_pure rfl
  | false =>
    have hcomma : Takes (expect [.comma]) fun t ts => t.kind ∈ [TokenKind.comma] ∧ ts = [t] :=
      takes_expect (by decide)
    exact hcomma.map fun t ts ht => ⟨t, List.mem_singleton.1 ht.1, ht.2⟩

lemma takes_arguments (h : InnerTakes inner) (n : Nat) (isFirst : Bool) :
    Takes (arguments inner n isFirst) (Expression.Listed isFirst) := by
  induction n generalizing isFirst with
  | zero => exact takes_cutOff
  | succ n ih =>
    refine takes_skipLayout_bind (takes_current_bind fun t => ?_)
    split
    · exact takes_pure .nil
    refine (takes_separator isFirst).bind fun _ sep hsep => (h .lowest).bind fun e ts he => ?_
    refine (ih false).bind fun es us hes => takes_pure ?_
    simpa using .cons hsep he hes

lemma takes_call (h : InnerTakes inner) (n : Nat) :
    Takes (call inner n left) (Extends left) := by
  unfold call
  refine takes_expect_past (by decide) fun opener hopen => ?_
  refine (takes_arguments h n true).bind fun args us hargs => ?_
  refine takes_expect_past (by decide) fun closer hclose => takes_pure fun ts hleft => ?_
  exact .call hleft (List.mem_singleton.1 hopen) hargs (List.mem_singleton.1 hclose)

lemma takesAt_joining {rule : JoiningRule} (h : InnerTakes inner) (n : Nat)
    (hf : s.cursor.Facing) (hj : Grammar.stock.joining? s.cursor.next = some (rule, power)) :
    TakesAt s (joining inner n left power rule) (Extends left) := by
  cases rule with
  | binary => exact takesAt_binary h hf hj
  | assignment => exact takes_assignment h s
  | member => exact takes_member h s
  | call => exact takes_call h n s

lemma takes_climb (h : InnerTakes inner) (limit : Power) (n : Nat) :
    Takes (climb .stock inner limit n left) (Extends left) := by
  induction n generalizing left with
  | zero => exact takes_cutOff
  | succ n ih =>
    intro s
    rcases joins_or_stops .stock limit s.cursor.next with ⟨rule, power, hj, hp⟩ | hstop
    · obtain ⟨log, hrun⟩ := run_climb_step hj
      refine takesAt_of_run ?_ s.cursor.ahead_skipLayout (hrun _ _ _ _ hp)
      have hnext : s.cursor.skipLayout.next = s.cursor.next :=
        next_congr s.cursor.ahead_skipLayout rfl
      refine (takesAt_joining h n s.cursor.facing_skipLayout (hnext ▸ hj)).bind fun e us he => ?_
      refine fun s => (ih s).weaken fun e' vs he' ts hleft => ?_
      rw [← List.append_assoc]
      exact he' _ (he ts hleft)
    · refine takesAt_of_run (takes_pure ?_ _) s.cursor.ahead_skipLayout (run_climb_stop hstop)
      exact fun ts hleft => by simpa using hleft

lemma takes_expression (n : Nat) : InnerTakes (expression .stock n) := by
  induction n with
  | zero => exact fun _ => takes_cutOff
  | succ n ih =>
    intro limit s
    cases ho : Grammar.stock.opening? s.cursor.next with
    | none =>
      intro _ e s₁ hr
      rw [run_expression_none ho] at hr
      cases hr
    | some found =>
      obtain ⟨log, hrun⟩ := run_expression_some ho
      refine takesAt_of_run ?_ s.cursor.ahead_skipLayout (hrun n limit)
      refine (takes_opening ih found.1 _).bind fun left ts hleft => ?_
      exact fun s => (takes_climb ih limit n s).weaken fun e us he => he ts hleft

lemma takes_parseExpression (limit : Power) :
    Takes (parseExpression .stock limit) Expression.Spelled :=
  takes_budget_bind fun n => takes_expression n limit

lemma isTerminator_of_mem {kind : TokenKind} (h : kind ∈ terminators) : kind.isTerminator := by
  revert h
  cases kind <;> decide

lemma takes_parseExpressionStatement :
    Takes (parseExpressionStatement .stock) fun e ts =>
      FunctionBody.Spelled (.expression e) ts := by
  unfold parseExpressionStatement
  refine (takes_parseExpression .lowest).bind fun e ts he => ?_
  refine takes_expect_past (by decide) fun stop hstop => takes_pure ?_
  exact .expression he (isTerminator_of_mem hstop)

end Expressions

section Statements
variable {p : Parse Statement}

lemma takes_duration :
    Takes duration fun d ts => ∃ t, Lifetime.SpelledDuration d t ∧ ts = [t] := by
  unfold duration
  refine takes_checkWord_bind fun b => ?_
  cases b with
  | true => exact takes_expectWord_past fun t ht => takes_pure ⟨t, .inl ⟨ht, rfl⟩, rfl⟩
  | false =>
    refine takes_expect_bind (by decide) fun t ht => ?_
    split
    · next value hread => exact takes_pure ⟨t, .inr ⟨List.mem_singleton.1 ht, hread⟩, rfl⟩
    · exact takes_throw

lemma takes_lifetimeUnit : Takes lifetimeUnit LifetimeUnit.Spelled := by
  unfold lifetimeUnit
  refine takes_checkWord_bind fun b => ?_
  cases b with
  | true => exact takes_expectWord_past fun t ht => takes_pure ⟨t, ht, rfl⟩
  | false => exact takes_pure rfl

lemma takes_lifetime? : Takes lifetime? Lifetime.Spelled := by
  unfold lifetime?
  refine takes_check_bind fun b => ?_
  cases b with
  | true =>
    refine takes_expect_past (by decide) fun opener hopen => takes_duration.bind fun d ts hd => ?_
    obtain ⟨t, hd, rfl⟩ := hd
    refine takes_lifetimeUnit.bind fun unit us hunit => ?_
    refine takes_expect_past (by decide) fun closer hclose => takes_pure ?_
    exact .some (List.mem_singleton.1 hopen) hd hunit (List.mem_singleton.1 hclose)
  | false => exact takes_pure .none

lemma takes_modifier : Takes modifier fun _ ts => ∃ t : Token, t.kind = .identifier ∧ ts = [t] := by
  unfold modifier
  exact takes_expectWord_bind fun t ht => takes_pure ⟨t, ht, rfl⟩

lemma takes_initializer? : Takes (initializer? .stock) Expression.Initial := by
  unfold initializer?
  refine takes_check_bind fun b => ?_
  cases b with
  | true =>
    refine takes_expect_past (by decide) fun sign hsign => ?_
    exact (takes_parseExpression .lowest).map fun e ts he => .some (List.mem_singleton.1 hsign) he
  | false => exact takes_pure .none

lemma takes_variableDeclaration : Takes (variableDeclaration .stock) Statement.Spelled := by
  unfold variableDeclaration
  refine takes_modifier.bind fun canReassign ts hfirst => ?_
  obtain ⟨first, hfirst, rfl⟩ := hfirst
  refine takes_modifier.bind fun canMutate ts hsecond => ?_
  obtain ⟨second, hsecond, rfl⟩ := hsecond
  refine takes_expect_bind (by decide) fun name hname => ?_
  refine takes_lifetime?.bind fun lifetime ts hl => takes_initializer?.bind fun value us hv => ?_
  refine takes_expect_past (by decide) fun stop hstop => takes_pure ?_
  exact .variableDeclaration hfirst hsecond (List.mem_singleton.1 hname) hl hv
    (isTerminator_of_mem hstop)

lemma takes_parameters (n : Nat) (isFirst : Bool) :
    Takes (parameters n isFirst) (Parameter.Listed isFirst) := by
  induction n generalizing isFirst with
  | zero => exact takes_cutOff
  | succ n ih =>
    refine takes_skipLayout_bind (takes_current_bind fun t => ?_)
    split
    · exact takes_pure .nil
    refine (takes_separator isFirst).bind fun _ sep hsep => ?_
    refine takes_expect_bind (by decide) fun identifier hk => ?_
    refine takes_lifetime?.bind fun lifetime ts hl => (ih false).bind fun ps us hps => ?_
    have hlisted : Parameter.Listed isFirst ({ identifier, lifetime } :: ps)
        (sep ++ identifier :: (ts ++ us)) := .cons hsep (List.mem_singleton.1 hk) hl hps
    exact takes_pure (by simpa using hlisted)

/-- An end marker is read from no tokens. -/
def IsTaken (a : Statement) (ts : List Token) : Prop :=
  if a.isSentinel then ts = [] else a.Spelled ts

lemma isTaken_of_spelled {a : Statement} {ts : List Token} (h : a.Spelled ts) : IsTaken a ts := by
  have hs : a.isSentinel = false := by cases h <;> rfl
  simpa [IsTaken, hs] using h

lemma Takes.statement (h : Takes p Statement.Spelled) : Takes p IsTaken :=
  fun s => (h s).weaken fun _ _ => isTaken_of_spelled

lemma takes_statements (h : Takes p IsTaken) (n : Nat) :
    Takes (statements p n) Statement.AllSpelled := by
  induction n with
  | zero => exact takes_cutOff
  | succ n ih =>
    refine h.bind fun a ts ha => ?_
    unfold IsTaken at ha
    split at ha
    · next hs =>
      rw [if_pos hs, ha]
      exact takes_pure .nil
    · next hs =>
      rw [if_neg hs]
      exact ih.bind fun ss us hss => takes_pure (by simpa using .cons ha hss)

lemma takes_block (h : Takes p IsTaken) : Takes (block p) Statement.Braced := by
  unfold block
  refine takes_expect_past (by decide) fun opener hopen => takes_budget_bind fun n => ?_
  refine (takes_statements h n).bind fun body ts hbody => ?_
  refine takes_expect_past (by decide) fun closer hclose => takes_pure ?_
  exact .mk (List.mem_singleton.1 hopen) hbody (List.mem_singleton.1 hclose)

lemma takes_asyncMark : Takes asyncMark fun _ ts => ∀ t ∈ ts, t.kind = .identifier := by
  unfold asyncMark
  refine takes_checkWord_bind fun b => ?_
  cases b with
  | true => exact takes_expectWord_past fun t ht => takes_pure (by simpa using ht)
  | false => exact takes_pure (by simp)

lemma takes_functionBody (h : Takes p IsTaken) :
    Takes (functionBody .stock p) FunctionBody.Spelled := by
  unfold functionBody
  refine takes_check_bind fun b => ?_
  cases b with
  | true => exact (takes_block h).map fun body ts hbody => .block hbody
  | false => exact takes_parseExpressionStatement.map fun e ts he => he

lemma takes_functionDeclaration (h : Takes p IsTaken) :
    Takes (functionDeclaration .stock p) Statement.Spelled := by
  unfold functionDeclaration
  refine takes_asyncMark.bind fun isAsync marks hmarks => takes_expectWord_past fun word hword => ?_
  refine takes_expect_bind (by decide) fun name hname => ?_
  refine takes_expect_past (by decide) fun opener hopen => takes_budget_bind fun n => ?_
  refine (takes_parameters n true).bind fun params ts hparams => ?_
  refine takes_expect_past (by decide) fun closer hclose => ?_
  refine takes_expect_past (by decide) fun arrow harrow => ?_
  refine (takes_functionBody h).bind fun body us hbody => takes_pure ?_
  rw [List.append_nil]
  exact .functionDeclaration hmarks hword (List.mem_singleton.1 hname) (List.mem_singleton.1 hopen)
    hparams (List.mem_singleton.1 hclose) (List.mem_singleton.1 harrow) hbody

lemma takes_returning : Takes (returning .stock) Statement.Spelled := by
  unfold returning
  refine takes_expectWord_past fun word hword => ?_
  refine (takes_parseExpression .lowest).bind fun e ts he => ?_
  refine takes_expect_past (by decide) fun stop hstop => takes_pure ?_
  exact .returning hword he (isTerminator_of_mem hstop)

lemma takes_guarded (h : Takes p IsTaken) (word : String) :
    Takes (guarded .stock p word) fun found ts => Statement.Guarded found.1 found.2 ts := by
  unfold guarded
  refine takes_expectWord_past fun word hword => ?_
  refine takes_expect_past (by decide) fun opener hopen => ?_
  refine (takes_parseExpression .lowest).bind fun test ts htest => ?_
  refine takes_expect_past (by decide) fun closer hclose => ?_
  refine (takes_block h).bind fun body us hbody => ?_
  refine takes_pure ?_
  rw [List.append_nil]
  exact .mk hword (List.mem_singleton.1 hopen) htest (List.mem_singleton.1 hclose) hbody

lemma takes_alternate {q : Parse Conditional} (h : Takes p IsTaken)
    (hq : Takes q Conditional.Spelled) : Takes (alternate p q) Alternate.Spelled := by
  unfold alternate
  refine takes_checkWord_bind fun b => ?_
  cases b with
  | false => exact takes_pure .none
  | true =>
    refine takes_expectWord_past fun word hword => takes_checkWord_bind fun b => ?_
    cases b with
    | true => exact hq.map fun branch ts hbranch => .conditional hword hbranch
    | false => exact (takes_block h).map fun body ts hbody => .block hword hbody

lemma takes_conditional (h : Takes p IsTaken) (n : Nat) :
    Takes (conditional .stock p n) Conditional.Spelled := by
  induction n with
  | zero => exact takes_cutOff
  | succ n ih =>
    refine (takes_guarded h "if").bind fun found ts hfound => ?_
    refine (takes_alternate h ih).bind fun alternate us halternate => takes_pure ?_
    simpa using .mk hfound halternate

lemma takes_when (h : Takes p IsTaken) : Takes (when .stock p) Statement.Spelled := by
  unfold when
  refine (takes_guarded h "when").bind fun found ts hfound => takes_pure ?_
  simpa using .when hfound

lemma takes_ruled (h : Takes p IsTaken) (rule : StatementRule) :
    Takes (ruled .stock p rule) IsTaken := by
  cases rule with
  | variableDeclaration => exact takes_variableDeclaration.statement
  | functionDeclaration => exact (takes_functionDeclaration h).statement
  | returning => exact takes_returning.statement
  | conditional =>
    refine takes_budget_bind fun n => (takes_conditional h n).bind fun branch ts hbranch => ?_
    exact takes_pure (isTaken_of_spelled (by simpa using .conditional hbranch))
  | when => exact (takes_when h).statement
  | block =>
    refine (takes_block h).bind fun body ts hbody => takes_pure (isTaken_of_spelled ?_)
    simpa using .block hbody
  | endOfFile =>
    have hdiscard : Takes (discard (expect [.endOfFile])) fun _ ts => ts = [] :=
      takes_expect_endOfFile.map fun _ _ hts => hts
    refine hdiscard.bind fun _ ts hts => takes_pure ?_
    rw [hts]
    rfl

lemma takes_statement (n : Nat) : Takes (statement .stock n) IsTaken := by
  induction n with
  | zero => exact takes_cutOff
  | succ n ih =>
    refine takes_skipLayout_bind (takes_current_bind fun t => ?_)
    cases Grammar.stock.statement? t with
    | some rule => exact takes_ruled ih rule
    | none =>
      dsimp only
      split
      · exact takes_pure rfl
      · refine takes_parseExpressionStatement.bind fun e ts he => takes_pure ?_
        cases he with
        | expression inner stops =>
          exact isTaken_of_spelled (by simpa using .expression inner stops)

lemma takes_parseStatement : Takes (parseStatement .stock) IsTaken :=
  takes_budget_bind takes_statement

/-- A program is read from all tokens that are left. -/
lemma spelled_programBody {n : Nat} {s s₁ : ParseState} {program : Block}
    (hs : ∀ t ∈ s.cursor.ahead, t.kind ≠ .endOfFile)
    (hrun : (programBody .stock n).run s = (.ok program, s₁)) :
    Statement.AllSpelled program s.cursor.ahead := by
  induction n generalizing s program with
  | zero => cases hrun
  | succ n ih =>
    rcases ha : (parseStatement .stock).run s with ⟨e | a, s₂⟩
    · rw [run_programBody_error ha] at hrun
      cases hrun
    obtain ⟨ts, hts, htaken⟩ := takes_parseStatement s hs a s₂ ha
    by_cases hfile : a = .endOfFile
    · subst hfile
      rw [run_programBody_endOfFile ha] at hrun
      cases hrun
      rw [ahead_eq_nil hs (kind_next_of_endOfFile ha)]
      exact .nil
    by_cases hblock : a = .endOfBlock
    · subst hblock
      rw [run_programBody_endOfBlock ha] at hrun
      cases hrun
    have hplain := isSentinel_eq_false hfile hblock
    rw [run_programBody_cons ha hplain, run_map] at hrun
    rcases hrest : (programBody .stock n).run s₂ with ⟨e | body, s₃⟩
    · rw [hrest] at hrun
      cases hrun
    rw [hrest] at hrun
    cases hrun
    rw [hts] at hs ⊢
    refine .cons ?_ (ih (fun t ht => hs t (List.mem_append_right ts ht)) hrest)
    simpa [IsTaken, hplain] using htaken

end Statements
end Parse

/-- A program that is read from tokens is spelled by those that are no layout. -/
lemma parseTokens_spelled {body : List Token} {last : Token} (hlast : last.kind = .endOfFile)
    (hbody : ∀ t ∈ body, t.kind ≠ .endOfFile) {program : Block}
    (h : parseTokens .stock (body ++ [last]) = .ok program) :
    Statement.AllSpelled program (body.filter (!·.kind.isIgnorable)) := by
  have hahead : (ParseState.ofTokens (body ++ [last])).cursor.ahead =
      body.filter (!·.kind.isIgnorable) := by
    rw [Parse.cursor_ofTokens hlast, Parse.ahead_behind]
  rw [Parse.parseTokens_eq] at h
  rw [← hahead]
  refine Parse.spelled_programBody (fun t ht => ?_) (Prod.ext h rfl)
  rw [hahead] at ht
  exact hbody t (List.mem_of_mem_filter ht)

/-- A result that passes a test is there. -/
lemma exists_ok_of_any {ε α : Type} {x : Except ε α} {p : α → Bool}
    (h : x.toOption.any p) : ∃ a, x = .ok a ∧ p a := by
  cases x with
  | error e => exact absurd h Bool.noConfusion
  | ok a => exact ⟨a, rfl, h⟩

end Exclaim
