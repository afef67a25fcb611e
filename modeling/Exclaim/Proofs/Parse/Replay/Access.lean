import Exclaim.Proofs.Parse.Replay.Expression
import Exclaim.Proofs.Parse.StockGrammar

/-! Expressions that end with no operator: names, literals, groups, calls and members. Such an
expression is read as far as it goes whatever comes behind it, and may then go on. -/
namespace Exclaim

/-- Whether an operator stands at the root of an expression. -/
def Expression.isOperation : Expression → Bool
  | .assignment .. | .unary .. | .state .. | .binary .. => true
  | _ => false

lemma Expression.isOperation_of_isName {e : Expression} (h : e.isName) : e.isOperation = false := by
  cases e with
  | symbol name => rfl
  | number value => rfl
  | _ => exact absurd h (by simp [isName])

lemma Reference.isOperation_of_ofExpression? {e : Expression} {r : Reference}
    (h : ofExpression? e = some r) : e.isOperation = false := by
  rw [← toExpression_of_ofExpression? h]
  cases r <;> rfl

namespace Parse

lemma run_bind_ok {α β : Type} {p : Parse α} {f : α → Parse β} {s s₂ : ParseState} {b : β}
    (h : (p >>= f).run s = (.ok b, s₂)) :
    ∃ a s₁, p.run s = (.ok a, s₁) ∧ (f a).run s₁ = (.ok b, s₂) := by
  rw [run_bind] at h
  rcases hp : p.run s with ⟨e | a, s₁⟩
  · rw [hp] at h
    cases h
  · rw [hp] at h
    exact ⟨a, s₁, rfl, h⟩

variable {inner : Inner} {limit power : Power} {n m : Nat} {left e : Expression}
  {s s₁ : ParseState}

/-- What the cursor has next does not bind tighter than the limit. -/
def StopsAt (limit : Power) (c : Cursor) : Prop :=
  ∀ rule power, Grammar.stock.joining? c.next = some (rule, power) → ¬ limit < power

lemma stopsAt_skipLayout {c : Cursor} (h : StopsAt limit c) : StopsAt limit c.skipLayout := by
  intro rule power hj
  rw [next_congr c.ahead_skipLayout rfl] at hj
  exact h rule power hj

/-- An expression is read up to where nothing binds tighter than its limit. -/
lemma stopsAt_of_run_climb (h : (climb .stock inner limit n left).run s = (.ok e, s₁)) :
    StopsAt limit s₁.cursor := by
  induction n generalizing left s with
  | zero => cases h
  | succ n ih =>
    rcases joins_or_stops .stock limit s.cursor.next with ⟨rule, power, hj, hp⟩ | hstop
    · obtain ⟨log, hrun⟩ := run_climb_step hj
      rw [hrun _ _ _ _ hp] at h
      obtain ⟨next, s₂, -, hrest⟩ := run_bind_ok h
      exact ih hrest
    · rw [run_climb_stop hstop] at h
      cases h
      exact stopsAt_skipLayout hstop

lemma stopsAt_of_run_expression (h : (expression .stock n limit).run s = (.ok e, s₁)) :
    StopsAt limit s₁.cursor := by
  cases n with
  | zero => cases h
  | succ n =>
    cases ho : Grammar.stock.opening? s.cursor.next with
    | none =>
      rw [run_expression_none ho] at h
      cases h
    | some found =>
      obtain ⟨log, hrun⟩ := run_expression_some ho
      rw [hrun] at h
      obtain ⟨left, s₂, -, hrest⟩ := run_bind_ok h
      exact stopsAt_of_run_climb hrest

/-- What does not bind tighter than the looser one of two powers does not bind tighter than the
other one. -/
lemma StopsAt.mono {limit' : Power} {c : Cursor} (h : StopsAt limit c) (hle : ¬ limit' < limit) :
    StopsAt limit' c := by
  intro rule power hj hlt
  have hstop := h rule power hj
  change ¬ limit'.rank < limit.rank at hle
  change limit'.rank < power.rank at hlt
  change ¬ limit.rank < power.rank at hstop
  omega

lemma run_binary_ok (h : (binary inner left power).run s = (.ok e, s₁)) :
    ∃ operator right s₀, e = .binary left operator right ∧
      (inner power).run s₀ = (.ok right, s₁) := by
  obtain ⟨operator, s₀, -, hrest⟩ := run_bind_ok h
  obtain ⟨right, s₂, hinner, hpure⟩ := run_bind_ok hrest
  cases hpure
  exact ⟨operator, right, s₀, rfl, hinner⟩

lemma run_assignment_ok (h : (assignment inner left).run s = (.ok e, s₁)) :
    ∃ target value right s₀, e = .assignment target value ∧
      (inner .assignment).run s₀ = (.ok right, s₁) := by
  obtain ⟨_, _, -, h⟩ := run_bind_ok h
  obtain ⟨target, _, -, h⟩ := run_bind_ok h
  obtain ⟨t, s₀, -, h⟩ := run_bind_ok h
  obtain ⟨right, s₂, hinner, h⟩ := run_bind_ok h
  cases ho : t.operation with
  | none =>
    rw [ho] at h
    cases h
    exact ⟨target, right, right, s₀, rfl, hinner⟩
  | some operation =>
    rw [ho] at h
    cases h
    exact ⟨target, _, right, s₀, rfl, hinner⟩

/-- What an operator makes of its operand, and where that ends. -/
lemma run_opening_operator {rule : OpeningRule} (hrule : rule = .unary ∨ rule = .state)
    (h : (opening (expression .stock m) rule).run s = (.ok e, s₁)) :
    e.isOperation ∧ StopsAt .unary s₁.cursor := by
  rcases hrule with rfl | rfl
  · obtain ⟨operator, _, -, h⟩ := run_bind_ok h
    obtain ⟨operand, _, hinner, h⟩ := run_bind_ok h
    cases h
    exact ⟨rfl, stopsAt_of_run_expression hinner⟩
  · obtain ⟨operator, _, -, h⟩ := run_bind_ok h
    obtain ⟨argument, s₂, hinner, h⟩ := run_bind_ok h
    obtain ⟨r, s₃, href, h⟩ := run_bind_ok h
    cases h
    refine ⟨rfl, ?_⟩
    unfold reference at href
    cases ho : Reference.ofExpression? argument with
    | none =>
      rw [ho] at href
      cases href
    | some r' =>
      rw [ho] at href
      cases href
      exact stopsAt_of_run_expression hinner

/-- What binds no tighter than an operator before its operand is an operator between two, or an
assignment. -/
lemma rule_of_joining? {t : Token} {rule : JoiningRule}
    (h : Grammar.stock.joining? t = some (rule, power)) :
    (Power.unary < power ∧ power = .access ∧ (rule = .member ∨ rule = .call)) ∨
      (¬ Power.unary < power ∧ (rule = .binary ∨ rule = .assignment)) := by
  have hall : ∀ entry ∈ Grammar.stockJoinings,
      (Power.unary < entry.power ∧ entry.power = .access ∧
        (entry.rule = .member ∨ entry.rule = .call)) ∨
      (¬ Power.unary < entry.power ∧ (entry.rule = .binary ∨ entry.rule = .assignment)) := by
    decide
  obtain ⟨entry, hf, he⟩ := Option.map_eq_some_iff.1 h
  cases he
  exact hall entry (Registry.mem_of_find? hf).1

/-- What an operator makes of two operands, and where that ends. -/
lemma run_joining_operator {rule : JoiningRule} (hrule : rule = .binary ∨ rule = .assignment)
    (hp : ¬ Power.unary < power)
    (h : (joining (expression .stock m) n left power rule).run s = (.ok e, s₁)) :
    e.isOperation ∧ StopsAt .unary s₁.cursor := by
  rcases hrule with rfl | rfl
  · obtain ⟨operator, right, s₀, rfl, hinner⟩ := run_binary_ok h
    exact ⟨rfl, (stopsAt_of_run_expression hinner).mono hp⟩
  · obtain ⟨target, value, right, s₀, rfl, hinner⟩ := run_assignment_ok h
    exact ⟨rfl, (stopsAt_of_run_expression hinner).mono (by decide)⟩

/-- An operation goes on as an operation, because its last operand has taken every access. -/
lemma isOperation_of_run_climb (hleft : left.isOperation) (hs : StopsAt .unary s.cursor)
    (h : (climb .stock (expression .stock m) limit n left).run s = (.ok e, s₁)) :
    e.isOperation := by
  induction n generalizing left s with
  | zero => cases h
  | succ n ih =>
    rcases joins_or_stops .stock limit s.cursor.next with ⟨rule, power, hj, hp⟩ | hstop
    · obtain ⟨log, hrun⟩ := run_climb_step hj
      rw [hrun _ _ _ _ hp] at h
      obtain ⟨next, s₂, hjoin, hrest⟩ := run_bind_ok h
      rcases rule_of_joining? hj with ⟨hu, -⟩ | ⟨hu, hrule⟩
      · exact absurd hu (hs rule power hj)
      · obtain ⟨hnext, hs₂⟩ := run_joining_operator hrule hu hjoin
        exact ih hnext hs₂ hrest
    · rw [run_climb_stop hstop] at h
      cases h
      exact hleft

/-- Nothing binds tighter than an access, so behind a dot only the start of an expression is
read. -/
lemma run_climb_access :
    (climb .stock inner .access (n + 1) left).run s =
      (.ok left, { s with cursor := s.cursor.skipLayout }) :=
  run_climb_stop fun _ _ hj => (Grammar.joining?_power hj).2

section Names
variable {T : Course} {k n' : Nat}

lemma replays_climb_access {inner' : Inner} {still : Expression → Prop} (hn : k ≤ n)
    (hn' : k ≤ n') :
    Replays T Anywhere k (fun _ => 0) still (climb .stock inner .access n left)
      (climb .stock inner' .access n' left) := by
  cases k with
  | zero => exact replays_zero
  | succ k =>
    obtain ⟨n, rfl⟩ := Nat.exists_eq_add_one_of_ne_zero (Nat.ne_zero_of_lt hn)
    obtain ⟨n', rfl⟩ := Nat.exists_eq_add_one_of_ne_zero (Nat.ne_zero_of_lt hn')
    constructor
    · intro s s₁ e hk hr
      rw [run_climb_access] at hr
      cases hr
      simp
    · intro s s' hk _ _ hb
      rw [run_climb_access, run_climb_access]
      exact fun _ => ⟨_, rfl, hb.skipLayout⟩

/-- A name behind a dot comes without a look at what follows it. -/
lemma replays_name (hn : k ≤ n) (hn' : k ≤ n') :
    Replays T Anywhere k (fun _ => 1) (fun e => e.isName) (expression .stock n .access)
      (expression .stock n' .access) := by
  cases k with
  | zero => exact replays_zero
  | succ k =>
    obtain ⟨n, rfl⟩ := Nat.exists_eq_add_one_of_ne_zero (Nat.ne_zero_of_lt hn)
    obtain ⟨n', rfl⟩ := Nat.exists_eq_add_one_of_ne_zero (Nat.ne_zero_of_lt hn')
    have hin : InnerReplays T k (T.Quiet .stock .stock) (expression .stock n)
        (expression .stock n') :=
      replays_expression (agrees_refl T .stock) (Nat.le_of_succ_le_succ hn)
        (Nat.le_of_succ_le_succ hn')
    have hoperator {rule : OpeningRule} (hrule : rule = .unary ∨ rule = .state) (s s₁ : ParseState)
        (e : Expression) (hr : (opening (expression .stock n) rule).run s = (.ok e, s₁)) :
        ¬ e.isName := by
      intro hname
      have hop := (run_opening_operator hrule hr).1
      rw [Expression.isOperation_of_isName hname] at hop
      exact absurd hop (by decide)
    have hopening (rule : OpeningRule) :
        Replays T Anywhere (k + 1) (fun _ => 1) (fun e => e.isName)
          (opening (expression .stock n) rule) (opening (expression .stock n') rule) := by
      cases rule with
      | primary => exact replays_primary.weaken (fun _ => Nat.le_refl 1) fun _ _ => trivial
      | grouping => exact (replays_grouping hin).weaken (fun _ => Nat.le_refl 1) fun _ _ => trivial
      | unary =>
        exact (replays_unary hin).restrict fun s s₁ e hr he =>
          absurd he (hoperator (.inl rfl) s s₁ e hr)
      | state =>
        exact (replays_state hin).restrict fun s s₁ e hr he =>
          absurd he (hoperator (.inr rfl) s s₁ e hr)
    refine replays_expression_succ (agrees_refl T .stock) fun rule => ?_
    have hclimb (left : Expression) : Replays T Anywhere k (fun _ => 0) (fun e => e.isName)
        (climb .stock (expression .stock n) .access n left)
        (climb .stock (expression .stock n') .access n' left) :=
      replays_climb_access (Nat.le_of_succ_le_succ hn) (Nat.le_of_succ_le_succ hn')
    refine (hopening rule).last hclimb fun left e s s₁ hr he => ?_
    cases n with
    | zero => cases hr
    | succ n =>
      rw [run_climb_access] at hr
      cases hr
      exact he

end Names

section Forks
variable {near far : Cursor} {shorter : near.ahead.length ≤ far.ahead.length} {k n' m' : Nat}
  {s' : ParseState}

/-- An access uses up its last token and looks no further. -/
lemma replays_access {T : Course} {rule : JoiningRule} (hrule : rule = .member ∨ rule = .call)
    (hm : k ≤ m) (hm' : k ≤ m') (hn : k ≤ n + 1) (hn' : k ≤ n' + 1) :
    Replays T Cursor.Facing k (fun _ => 1) (fun _ => True)
      (joining (expression .stock m) n left .access rule)
      (joining (expression .stock m') n' left .access rule) := by
  have hin : InnerReplays T k (T.Quiet .stock .stock) (expression .stock m)
      (expression .stock m') := replays_expression (agrees_refl T .stock) hm hm'
  rcases hrule with rfl | rfl
  · have hname : Replays T Anywhere (k - 1) (fun _ => 1) (fun e => e.isName)
        (expression .stock m .access) (expression .stock m' .access) :=
      replays_name (by omega) (by omega)
    exact replays_member hin hname fun _ he _ => he
  · exact replays_call hin hn hn'

lemma length_ahead_climb (hm : s.cursor.ahead.length < m) (hn : s.cursor.ahead.length < n)
    (h : (climb .stock (expression .stock m) limit n left).run s = (.ok e, s₁)) :
    s₁.cursor.ahead.length ≤ s.cursor.ahead.length := by
  have hin : InnerReplays (.level 0 fun _ => True) (s.cursor.ahead.length + 1) _
      (expression .stock m) (expression .stock m) :=
    replays_expression (agrees_refl _ .stock) hm hm
  have hclimb : Replays (.level 0 fun _ => True) Anywhere (s.cursor.ahead.length + 1) (fun _ => 0) _
      (climb .stock (expression .stock m) limit n left)
      (climb .stock (expression .stock m) limit n left) :=
    replays_climb (agrees_refl _ .stock) hin limit hn hn
  exact hclimb.shrinks s s₁ e (Nat.lt_succ_self _) h

/-- What is no operation is joined by accesses only. Behind the fork the second run reads the same
expression, and then it goes on with whatever comes there. -/
lemma run_climb_fork (hlimit : limit < .access)
    (hb : Beside (.fork near far shorter) s.cursor s'.cursor) (hm : s.cursor.ahead.length < m)
    (hm' : s.cursor.ahead.length < m') (hn : s.cursor.ahead.length < n)
    (hn' : s'.cursor.ahead.length < n')
    (hrun : (climb .stock (expression .stock m) .lowest n left).run s = (.ok e, s₁))
    (hend : s₁.cursor.ahead = near.ahead) (he : e.isOperation = false) :
    ∃ j s₂, (climb .stock (expression .stock m') limit n' left).run s' =
        (climb .stock (expression .stock m') limit j e).run s₂ ∧
      Beside (.fork near far shorter) near s₂.cursor ∧ far.ahead.length < j := by
  induction n generalizing n' left s s' with
  | zero => cases hrun
  | succ n ih =>
    obtain ⟨n', rfl⟩ := Nat.exists_eq_add_one_of_ne_zero (Nat.ne_zero_of_lt hn')
    have hle := hb.length_le
    have hlen := hb.length_fork
    rcases joins_or_stops .stock .lowest s.cursor.next with ⟨rule, power, hj, hp⟩ | hstop
    · obtain ⟨log, hstep⟩ := run_climb_step hj
      rw [hstep _ _ _ _ hp] at hrun
      obtain ⟨next, s₂, hjoin, hrest⟩ := run_bind_ok hrun
      rcases rule_of_joining? hj with ⟨-, rfl, hrule⟩ | ⟨hu, hrule⟩
      · have haccess : Replays (.fork near far shorter) Cursor.Facing (s.cursor.ahead.length + 1)
            (fun _ => 1) (fun _ => True) (joining (expression .stock m) n left .access rule)
            (joining (expression .stock m') n' left .access rule) :=
          replays_access hrule hm hm' (by omega) (by omega)
        have hused : s₂.cursor.ahead.length + 1 ≤ s.cursor.ahead.length := by
          simpa using haccess.shrinks _ s₂ next (by simp) hjoin
        have hleft : near.ahead.length ≤ s₂.cursor.ahead.length := by
          rw [← hend]
          exact length_ahead_climb (by omega) (by omega) hrest
        have hin : (Course.fork near far shorter).border ≤ s.cursor.ahead.length :=
          Nat.le_trans (Nat.succ_le_succ hleft) hused
        have hj' : Grammar.stock.joining? s'.cursor.next = some (rule, .access) := by
          rw [hb.next_eq hin, hj]
        obtain ⟨log', hstep'⟩ := run_climb_step hj'
        have hfollows := haccess.follows { s with cursor := s.cursor.skipLayout, log }
          { s' with cursor := s'.cursor.skipLayout, log := log' } (by simp)
          s.cursor.facing_skipLayout s'.cursor.facing_skipLayout hb.skipLayout
        rw [hjoin] at hfollows
        obtain ⟨s₂', hjoin', hb₂⟩ := hfollows (.inr ⟨Nat.succ_le_succ hleft, trivial⟩)
        have hroom : s₂'.cursor.ahead.length < n' := by
          have hlen₂ := hb₂.length_fork
          omega
        obtain ⟨j, s₃, hrun₃, hb₃, hj₃⟩ := ih hb₂ (by omega) (by omega) (by omega)
          hroom hrest
        refine ⟨j, s₃, ?_, hb₃, hj₃⟩
        rw [hstep' _ _ _ _ hlimit, run_bind, hjoin']
        exact hrun₃
      · -- An operator would have made an operation.
        obtain ⟨hnext, hs₂⟩ := run_joining_operator hrule hu hjoin
        rw [isOperation_of_run_climb hnext hs₂ hrest] at he
        cases he
    · rw [run_climb_stop hstop] at hrun
      cases hrun
      have hnear : s.cursor.ahead = near.ahead := by simpa using hend
      refine ⟨n' + 1, s', rfl, hb.at_near hnear, ?_⟩
      rw [hnear] at hlen
      omega

/-- The same from the start of the expression on. -/
lemma run_expression_fork (hlimit : limit < .access)
    (hb : Beside (.fork near far shorter) s.cursor s'.cursor) (hn : s.cursor.ahead.length ≤ n)
    (hn' : s'.cursor.ahead.length ≤ n')
    (hrun : (expression .stock (n + 1) .lowest).run s = (.ok e, s₁))
    (hend : s₁.cursor.ahead = near.ahead) (he : e.isOperation = false) :
    ∃ j s₂, (expression .stock (n' + 1) limit).run s' =
        (climb .stock (expression .stock n') limit j e).run s₂ ∧
      Beside (.fork near far shorter) near s₂.cursor ∧ far.ahead.length < j := by
  cases ho : Grammar.stock.opening? s.cursor.next with
  | none =>
    rw [run_expression_none ho] at hrun
    cases hrun
  | some found =>
    obtain ⟨rule, power⟩ := found
    obtain ⟨log, hstep⟩ := run_expression_some ho
    rw [hstep] at hrun
    obtain ⟨left, s₂, hopen, hrest⟩ := run_bind_ok hrun
    have hle := hb.length_le
    by_cases hrule : rule = .unary ∨ rule = .state
    · obtain ⟨hleft, hs₂⟩ := run_opening_operator hrule hopen
      rw [isOperation_of_run_climb hleft hs₂ hrest] at he
      cases he
    · have hin : InnerReplays (.fork near far shorter) s.cursor.ahead.length _
          (expression .stock n) (expression .stock n') :=
        replays_expression (agrees_refl _ .stock) hn (Nat.le_trans hle hn')
      have hopening : Replays (.fork near far shorter) Anywhere (s.cursor.ahead.length + 1)
          (fun _ => 1) (fun _ => True) (opening (expression .stock n) rule)
          (opening (expression .stock n') rule) := by
        cases rule with
        | primary => exact replays_primary
        | grouping => exact replays_grouping hin
        | unary => exact absurd (.inl rfl) hrule
        | state => exact absurd (.inr rfl) hrule
      have hused : s₂.cursor.ahead.length + 1 ≤ s.cursor.ahead.length := by
        simpa using hopening.shrinks _ s₂ left (by simp) hopen
      have hleft : near.ahead.length ≤ s₂.cursor.ahead.length := by
        rw [← hend]
        exact length_ahead_climb (by omega) (by omega) hrest
      have hin : (Course.fork near far shorter).border ≤ s.cursor.ahead.length :=
        Nat.le_trans (Nat.succ_le_succ hleft) hused
      have ho' : Grammar.stock.opening? s'.cursor.next = some (rule, power) := by
        rw [hb.next_eq hin, ho]
      obtain ⟨log', hstep'⟩ := run_expression_some ho'
      have hfollows := hopening.follows { s with cursor := s.cursor.skipLayout, log }
        { s' with cursor := s'.cursor.skipLayout, log := log' } (by simp) trivial trivial
        hb.skipLayout
      rw [hopen] at hfollows
      obtain ⟨s₂', hopen', hb₂⟩ := hfollows (.inr ⟨Nat.succ_le_succ hleft, trivial⟩)
      have hroom : s₂'.cursor.ahead.length < n' := by
        have hlen := hb.length_fork
        have hlen₂ := hb₂.length_fork
        omega
      have hm : s₂.cursor.ahead.length < n := Nat.lt_of_lt_of_le hused hn
      have hm' : s₂.cursor.ahead.length < n' := Nat.lt_of_lt_of_le hused (Nat.le_trans hle hn')
      obtain ⟨j, s₃, hrun₃, hb₃, hj₃⟩ :=
        run_climb_fork hlimit hb₂ hm hm' hm hroom hrest hend he
      refine ⟨j, s₃, ?_, hb₃, hj₃⟩
      rw [hstep', run_bind, hopen']
      exact hrun₃

end Forks
end Parse
end Exclaim
