import Exclaim.Proofs.Parse.Reads

/-! Two parses of tokens that agree for a while. What an action does is decided by the tokens that
it uses and by the next one, if it looks at it. `Replays T F k uses still p p'` says that `p'` does
on a second cursor what `p` does on a first one, where `T` tells how the two cursors go together. -/
namespace Exclaim

/-- The error of a parse with `n` more tokens in front. -/
def ParseError.shift (n : Nat) : ParseError → ParseError
  | .noOpening token position => .noOpening token (position + n)
  | e => e

namespace Parse

/-- How two cursors go together that are moved side by side. -/
inductive Course where
  /-- All that follows is the same, `shift` places later in the second sequence. Only known tokens
  follow. -/
  | level (shift : Nat) (known : Token → Prop)
  /-- The same tokens follow until the first cursor has those of `near` ahead and the second one
  those of `far`, which are no fewer. -/
  | fork (near far : Cursor) (shorter : near.ahead.length ≤ far.ahead.length)

namespace Course

/-- With at least so many tokens ahead, both cursors have the same one next. -/
def border : Course → Nat
  | level .. => 0
  | fork near .. => near.ahead.length + 1

/-- Whether a token may be the next one of both cursors. -/
def Knows : Course → Token → Prop
  | level _ known, t => known t
  | fork .., _ => True

/-- No expression goes on at the fork. -/
def Quiet (g g' : Grammar) : Course → Prop
  | level .. => True
  | fork near far _ => g.joining? near.next = none ∧ g'.joining? far.next = none

/-- What is expected does not come at the fork. -/
def Misses (expected : Expected) : Course → Prop
  | level .. => True
  | fork near far _ => expected.isMet near.next = false ∧ expected.isMet far.next = false

end Course

inductive Beside : Course → Cursor → Cursor → Prop where
  | level {n : Nat} {known : Token → Prop} {c c' : Cursor}
      (upcoming : c'.skipLayout.upcoming = c.skipLayout.upcoming)
      (last : c'.last = c.last)
      (position : c'.skipLayout.position = c.skipLayout.position + n)
      (all : ∀ t ∈ c.last :: c.ahead, known t) :
      Beside (.level n known) c c'
  | fork {near far c c' : Cursor} {shorter : near.ahead.length ≤ far.ahead.length}
      (common : List Token)
      (ahead : c.ahead = common ++ near.ahead) (ahead' : c'.ahead = common ++ far.ahead)
      (body : c.body = near.body) (body' : c'.body = far.body)
      (last : c.last = near.last) (last' : c'.last = far.last) (live : ¬ c'.Ended) :
      Beside (.fork near far shorter) c c'

section Cursors
variable {T : Course} {c c' : Cursor}

lemma next_congr {c c' : Cursor} (ha : c.ahead = c'.ahead) (hl : c.last = c'.last) :
    c.next = c'.next := by
  rw [Cursor.next, Cursor.next, ha, hl]

lemma ahead_level (h : c'.skipLayout.upcoming = c.skipLayout.upcoming) : c'.ahead = c.ahead := by
  rw [← c'.ahead_skipLayout, ← c.ahead_skipLayout, Cursor.ahead, Cursor.ahead, h]

namespace Beside

lemma length_le (h : Beside T c c') : c.ahead.length ≤ c'.ahead.length := by
  cases h with
  | level upcoming => exact Nat.le_of_eq (by rw [ahead_level upcoming])
  | @fork near far _ _ shorter common ahead ahead' =>
    rw [ahead, ahead', List.length_append, List.length_append]
    omega

lemma next_eq (h : Beside T c c') (hin : T.border ≤ c.ahead.length) : c'.next = c.next := by
  cases h with
  | level upcoming last => exact next_congr (ahead_level upcoming) last
  | fork common ahead ahead' =>
    cases common with
    | nil =>
      rw [ahead, Course.border] at hin
      exact absurd hin (Nat.not_succ_le_self _)
    | cons t ts => rw [Cursor.next_of_ahead_cons ahead', Cursor.next_of_ahead_cons ahead]

lemma position_eq {n : Nat} {known : Token → Prop} (h : Beside (.level n known) c c') :
    c'.skipLayout.position = c.skipLayout.position + n := by
  cases h with
  | level _ _ position => exact position

lemma knows_next (h : Beside T c c') : T.Knows c.next := by
  cases h with
  | level _ _ _ all =>
    refine all _ ?_
    cases hc : c.ahead with
    | nil => rw [Cursor.next_of_ahead_nil hc]; exact List.mem_cons_self
    | cons t ts => rw [Cursor.next_of_ahead_cons hc]; simp
  | fork => trivial

lemma skipLayout (h : Beside T c c') : Beside T c.skipLayout c'.skipLayout := by
  cases h with
  | level upcoming last position all =>
    have hcount : c'.skipLayout.layoutCount = c.skipLayout.layoutCount := by
      rw [Cursor.layoutCount, upcoming, Cursor.layoutCount]
    refine .level ?_ last ?_ (by rw [c.ahead_skipLayout]; exact all)
    · rw [Cursor.upcoming_skipLayout, upcoming, hcount, Cursor.upcoming_skipLayout c.skipLayout]
    · rw [Cursor.position_skipLayout, position, hcount, Cursor.position_skipLayout c.skipLayout]
      omega
  | fork common ahead ahead' body body' last last' live =>
    refine .fork common ?_ ?_ body body' last last' ?_
    · rw [c.ahead_skipLayout, ahead]
    · rw [c'.ahead_skipLayout, ahead']
    · rwa [c'.ended_skipLayout]

lemma pass (h : Beside T c c') (hin : T.border ≤ c.ahead.length) : Beside T c.pass c'.pass := by
  cases h with
  | @level n _ _ _ upcoming last position all =>
    have hdrop (c : Cursor) : c.pass.upcoming = c.skipLayout.upcoming.drop 1 := by
      rw [Cursor.upcoming_pass, Cursor.upcoming_skipLayout, List.drop_drop]
    have hup : c'.pass.upcoming = c.pass.upcoming := by rw [hdrop, hdrop, upcoming]
    have hpos : c'.pass.position = c.pass.position + n := by
      rw [Cursor.pass, ← Cursor.position_skipLayout, position]
      exact Nat.add_right_comm _ _ _
    have hcount : c'.pass.layoutCount = c.pass.layoutCount := by
      rw [Cursor.layoutCount, hup, Cursor.layoutCount]
    refine .level ?_ last ?_ ?_
    · rw [Cursor.upcoming_skipLayout, hup, hcount, Cursor.upcoming_skipLayout]
    · rw [Cursor.position_skipLayout, hpos, hcount, Cursor.position_skipLayout]
      omega
    · intro t ht
      rw [c.ahead_pass, List.mem_cons] at ht
      exact all t (List.mem_cons.2 (ht.imp_right List.mem_of_mem_tail))
  | fork common ahead ahead' body body' last last' =>
    cases common with
    | nil =>
      rw [ahead, Course.border] at hin
      exact absurd hin (Nat.not_succ_le_self _)
    | cons t ts =>
      refine .fork ts ?_ ?_ body body' last last' ?_
      · rw [c.ahead_pass, ahead, List.cons_append, List.tail_cons]
      · rw [c'.ahead_pass, ahead', List.cons_append, List.tail_cons]
      · rw [c'.ended_pass, ahead']
        simp

/-- What each cursor has more ahead than the other one is what stands behind the fork. -/
lemma length_fork {near far : Cursor} {shorter : near.ahead.length ≤ far.ahead.length}
    (h : Beside (.fork near far shorter) c c') :
    c'.ahead.length + near.ahead.length = c.ahead.length + far.ahead.length := by
  cases h with
  | fork common ahead ahead' =>
    rw [ahead, ahead', List.length_append, List.length_append]
    omega

lemma body_near {near far : Cursor} {shorter : near.ahead.length ≤ far.ahead.length}
    (h : Beside (.fork near far shorter) c c') : c.body = near.body := by
  cases h with
  | fork _ _ _ body => exact body

/-- Without common tokens left, the first cursor may as well be the one at the fork. -/
lemma at_near {near far : Cursor} {shorter : near.ahead.length ≤ far.ahead.length}
    (h : Beside (.fork near far shorter) c c') (hc : c.ahead = near.ahead) :
    Beside (.fork near far shorter) near c' := by
  cases h with
  | fork common ahead ahead' _ body' _ last' live =>
    obtain rfl : common = [] := List.self_eq_append_left.1 (hc.symm.trans ahead)
    exact .fork [] rfl ahead' rfl body' rfl last' live

/-- Two cursors with the same tokens ahead up to some place. -/
lemma exists_fork {near : Cursor} {common rest : List Token} (hleads : c.Leads near)
    (hahead : c.ahead = common ++ near.ahead) (hahead' : c'.ahead = common ++ rest)
    (hne : c'.ahead ≠ []) (hle : near.ahead.length ≤ rest.length) :
    ∃ far, ∃ shorter : near.ahead.length ≤ far.ahead.length,
      far.ahead = rest ∧ Beside (.fork near far shorter) c c' := by
  obtain ⟨far, hfar, rfl⟩ := Cursor.exists_leads hahead'
  exact ⟨far, hle, rfl, .fork common hahead hahead' hleads.body.symm hfar.body.symm
    hleads.last.symm hfar.last.symm (Cursor.not_ended_of_ahead hne)⟩

lemma ahead_far {near far : Cursor} {shorter : near.ahead.length ≤ far.ahead.length}
    (h : Beside (.fork near far shorter) near c') : c'.ahead = far.ahead := by
  cases h with
  | fork common ahead ahead' =>
    obtain rfl : common = [] := List.self_eq_append_left.1 ahead
    exact ahead'

/-- Beyond the common tokens the cursors stand at the fork. -/
lemma at_fork {near far : Cursor} {shorter : near.ahead.length ≤ far.ahead.length}
    (h : Beside (.fork near far shorter) c c') (hout : ¬ near.ahead.length + 1 ≤ c.ahead.length) :
    c.next = near.next ∧ c'.next = far.next := by
  cases h with
  | fork common ahead ahead' _ _ last last' =>
    cases common with
    | nil => exact ⟨next_congr ahead last, next_congr ahead' last'⟩
    | cons t ts =>
      refine absurd ?_ hout
      rw [ahead, List.length_append, List.length_cons]
      omega

lemma quiet {g g' : Grammar} (h : Beside T c c') (hq : T.Quiet g g')
    (hout : ¬ T.border ≤ c.ahead.length) :
    g.joining? c.next = none ∧ g'.joining? c'.next = none := by
  cases T with
  | level => exact absurd (Nat.zero_le _) hout
  | fork near far shorter =>
    obtain ⟨hn, hf⟩ := h.at_fork hout
    rw [hn, hf]
    exact hq

lemma misses {expected : Expected} (h : Beside T c c') (hm : T.Misses expected)
    (hout : ¬ T.border ≤ c.ahead.length) :
    expected.isMet c.next = false ∧ expected.isMet c'.next = false := by
  cases T with
  | level => exact absurd (Nat.zero_le _) hout
  | fork near far shorter =>
    obtain ⟨hn, hf⟩ := h.at_fork hout
    rw [hn, hf]
    exact hm

end Beside
end Cursors

section Rules
variable {α β : Type}

/-- Where an action with value `a` may stop for the second run to repeat it: before the fork, or at
the fork if the value is `still`. -/
def Course.Covers (T : Course) (still : α → Prop) (a : α) (c : Cursor) : Prop :=
  T.border ≤ c.ahead.length ∨ T.border ≤ c.ahead.length + 1 ∧ still a

/-- The second outcome repeats the first one. Failures are repeated when there is no fork. -/
def Follows (T : Course) (still : α → Prop) :
    Except ParseError α × ParseState → Except ParseError α × ParseState → Prop
  | (.ok a, s), o =>
      T.Covers still a s.cursor → ∃ s', o = (.ok a, s') ∧ Beside T s.cursor s'.cursor
  | (.error e, _), o => ∀ n known, T = .level n known → ∃ s', o = (.error (e.shift n), s')

def Anywhere (_ : Cursor) : Prop := True

/-- Starting with fewer than `k` tokens ahead, a success of `p` uses up at least as many tokens as
`uses` says. Starting also from cursors with `F` that go together, `p'` repeats what `p` does. A
value that is `still` comes without a look at the next token, or with one that does not matter. -/
structure Replays (T : Course) (F : Cursor → Prop) (k : Nat) (uses : α → Nat) (still : α → Prop)
    (p p' : Parse α) : Prop where
  shrinks : ∀ (s s₁ : ParseState) (a : α), s.cursor.ahead.length < k → p.run s = (.ok a, s₁) →
    s₁.cursor.ahead.length + uses a ≤ s.cursor.ahead.length
  follows : ∀ s s' : ParseState, s.cursor.ahead.length < k → F s.cursor → F s'.cursor →
    Beside T s.cursor s'.cursor → Follows T still (p.run s) (p'.run s')

variable {T : Course} {F : Cursor → Prop} {k : Nat} {uses : α → Nat} {still : α → Prop}
  {p p' : Parse α} {f f' : α → Parse β}

/-- Nothing is asked of the second outcome when the first one is not covered. -/
lemma follows_of_not_covers {m : Nat} {o o' : Except ParseError α × ParseState}
    (hout : ¬ T.border ≤ m) (h : ∀ a s, o = (.ok a, s) → ¬ T.Covers still a s.cursor) :
    Follows T still o o' := by
  rcases o with ⟨e | a, s⟩
  · rintro n known rfl
    exact absurd (Nat.zero_le m) hout
  · exact fun hc => absurd hc (h a s rfl)

namespace Replays

lemma of_le {j : Nat} (h : Replays T F k uses still p p') (hj : j ≤ k) :
    Replays T F j uses still p p' :=
  ⟨fun s s₁ a hk => h.shrinks s s₁ a (Nat.lt_of_lt_of_le hk hj),
    fun s s' hk => h.follows s s' (Nat.lt_of_lt_of_le hk hj)⟩

/-- A condition that only holds of values without a look at the next token. -/
lemma restrict {still' : α → Prop} (h : Replays T F k uses still p p')
    (hs : ∀ s s₁ a, p.run s = (.ok a, s₁) → still' a → still a) :
    Replays T F k uses still' p p' := by
  refine ⟨h.shrinks, fun s s' hk hF hF' hb => ?_⟩
  have hf := h.follows s s' hk hF hF' hb
  have hs := hs s
  revert hf hs
  rcases p.run s with ⟨e | a, s₁⟩
  · exact fun hf _ => hf
  · exact fun hf hs hc => hf (hc.imp_right (And.imp_right (hs s₁ a rfl)))

lemma weaken {uses' : α → Nat} {still' : α → Prop} (h : Replays T F k uses still p p')
    (hu : ∀ a, uses' a ≤ uses a) (hs : ∀ a, still' a → still a) :
    Replays T F k uses' still' p p' := by
  have hr : Replays T F k uses still' p p' := h.restrict fun _ _ a _ => hs a
  exact ⟨fun s s₁ a hk hrun =>
    Nat.le_trans (Nat.add_le_add_left (hu a) _) (h.shrinks s s₁ a hk hrun), hr.follows⟩

/-- What the second action looks at it uses up, or the first one may stop before it. -/
lemma bind {uses₂ uses' : β → Nat} {still' : β → Prop} (hp : Replays T F k uses still p p')
    (hf : ∀ a, Replays T Anywhere (k - uses a) uses₂ still' (f a) (f' a))
    (hu : ∀ a b s s₁, (f a).run s = (.ok b, s₁) → uses' b ≤ uses a + uses₂ b)
    (hs : ∀ a b s s₁, (f a).run s = (.ok b, s₁) → still' b → 0 < uses₂ b ∨ still a) :
    Replays T F k uses' still' (p >>= f) (p' >>= f') := by
  constructor
  · intro s s₂ b hk hr
    rw [run_bind] at hr
    rcases hrun : p.run s with ⟨e | a, s₁⟩
    · rw [hrun] at hr
      exact absurd (congrArg Prod.fst hr) (by simp)
    · rw [hrun] at hr
      have h₁ := hp.shrinks s s₁ a hk hrun
      have h₂ := (hf a).shrinks s₁ s₂ b (by omega) hr
      have hub := hu a b s₁ s₂ hr
      omega
  · intro s s' hk hF hF' hb
    have h₁ := hp.follows s s' hk hF hF' hb
    rw [run_bind, run_bind]
    rcases hrun : p.run s with ⟨e | a, s₁⟩
    · intro n known hT
      rw [hrun] at h₁
      obtain ⟨s₁', hs'⟩ := h₁ n known hT
      exact ⟨s₁', by rw [hs']⟩
    · rw [hrun] at h₁
      have hlen := hp.shrinks s s₁ a hk hrun
      by_cases hc : T.Covers still a s₁.cursor
      · obtain ⟨s₁', hs', hb₁⟩ := h₁ hc
        rw [hs']
        exact (hf a).follows s₁ s₁' (by omega) trivial trivial hb₁
      · -- The first action may not stop here, so the second one does not stop before the fork.
        have hout : ¬ T.border ≤ s₁.cursor.ahead.length := fun h => hc (.inl h)
        refine follows_of_not_covers hout fun b s₂ hr hend => ?_
        have h₂ := (hf a).shrinks s₁ s₂ b (by omega) hr
        rcases hend with hend | ⟨hend, hb⟩
        · omega
        · rcases hs a b s₁ s₂ hr hb with hpos | ha
          · omega
          · exact hc (.inr ⟨by omega, ha⟩)

/-- The second action uses up what it looks at. -/
lemma next {uses' : β → Nat} {still' : β → Prop} (hp : Replays T F k uses still p p')
    (hf : ∀ a, Replays T Anywhere (k - uses a) uses' still' (f a) (f' a))
    (hs : ∀ b, still' b → 0 < uses' b) : Replays T F k uses' still' (p >>= f) (p' >>= f') :=
  hp.bind hf (fun _ _ _ _ _ => Nat.le_add_left _ _) fun _ b _ _ _ hb => .inl (hs b hb)

/-- The second action looks at nothing but what the first one may look at. -/
lemma last {u : Nat} {still' : β → Prop} (hp : Replays T F k (fun _ => u) still p p')
    (hf : ∀ a, Replays T Anywhere (k - u) (fun _ => 0) still' (f a) (f' a))
    (hs : ∀ a b s s₁, (f a).run s = (.ok b, s₁) → still' b → still a) :
    Replays T F k (fun _ => u) still' (p >>= f) (p' >>= f') :=
  hp.bind hf (fun _ _ _ _ _ => Nat.le_refl _) fun a b s s₁ hr hb => .inr (hs a b s s₁ hr hb)

end Replays

lemma replays_pure {a : α} (hu : uses a = 0) : Replays T F k uses still (pure a) (pure a) := by
  refine ⟨fun s s₁ b hk hr => ?_, fun s s' hk hF hF' hb _ => ⟨s', rfl, hb⟩⟩
  change (Except.ok a, s) = (.ok b, s₁) at hr
  cases hr
  rw [hu]
  exact Nat.le_refl _

lemma replays_throw {e : ParseError} (he : ∀ n, e.shift n = e) :
    Replays T F k uses still (throw e) (throw e) := by
  refine ⟨fun s s₁ b hk hr => ?_, fun s s' hk hF hF' hb n known _ => ⟨s', ?_⟩⟩
  · change (Except.error e, s) = (.ok b, s₁) at hr
    cases hr
  · rw [he]
    rfl

lemma replays_zero : Replays T F 0 uses still p p' :=
  ⟨fun _ _ _ hk => absurd hk (Nat.not_lt_zero _), fun _ _ hk => absurd hk (Nat.not_lt_zero _)⟩

namespace Replays
variable {u : Nat} {q q' : Parse β} {uses' : β → Nat} {still' : β → Prop}

/-- A value that is made from that of the action. -/
lemma yield {g : α → β} (hp : Replays T F k uses still p p') (hu : ∀ a, uses' (g a) ≤ uses a)
    (hs : ∀ a, still' (g a) → still a) :
    Replays T F k uses' still' (p >>= fun a => pure (g a)) (p' >>= fun a => pure (g a)) := by
  have hpure (a : α) :
      Replays T Anywhere (k - uses a) (fun _ => 0) still' (pure (g a)) (pure (g a)) :=
    replays_pure rfl
  refine hp.bind hpure (fun a b s s₁ hr => ?_) fun a b s s₁ hr hb => ?_
  · cases hr
    exact hu a
  · cases hr
    exact .inr (hs a hb)

lemma map {g : α → β} (hp : Replays T F k (fun _ => u) still p p')
    (hs : ∀ a, still' (g a) → still a) :
    Replays T F k (fun _ => u) still' (g <$> p) (g <$> p') := by
  rw [map_eq_pure_bind, map_eq_pure_bind]
  exact hp.yield (fun _ => Nat.le_refl u) hs

lemma past (hp : Replays T F k (fun _ => u) still p p')
    (hq : Replays T Anywhere (k - u) uses' still' q q') (hs : ∀ b, still' b → 0 < uses' b) :
    Replays T F k uses' still' (discard p >>= fun _ => q) (discard p' >>= fun _ => q') := by
  have hdiscard : Replays T F k (fun _ => u) (fun _ => False) (discard p) (discard p') :=
    hp.map fun _ => False.elim
  exact hdiscard.next (fun _ => hq) hs

/-- The last token of a construct whose value is known. -/
lemma close {b : β} (hp : Replays T F k (fun _ => u) (fun _ => True) p p') (hu : uses' b ≤ u) :
    Replays T F k uses' still' (discard p >>= fun _ => pure b)
      (discard p' >>= fun _ => pure b) := by
  have hdiscard : Replays T F k (fun _ => u) (fun _ => True) (discard p) (discard p') :=
    hp.map fun _ _ => trivial
  exact hdiscard.yield (fun _ => hu) fun _ _ => trivial

end Replays

section Actions
variable {uses' : β → Nat} {still' : β → Prop} {q q' : Parse β}

/-- An action that starts at the fork or behind it is not repeated if it uses up what it looks
at. -/
lemma Replays.follows_outside {s : ParseState} {o : Except ParseError β × ParseState}
    (h : Replays T F k uses' still' q q') (hs : ∀ b, still' b → 0 < uses' b)
    (hk : s.cursor.ahead.length < k) (hout : ¬ T.border ≤ s.cursor.ahead.length) :
    Follows T still' (q.run s) o := by
  refine follows_of_not_covers hout fun b s₁ hr hc => ?_
  have hlen := h.shrinks s s₁ b hk hr
  rcases hc with hc | ⟨hc, hb⟩
  · omega
  · have hpos := hs b hb
    omega

lemma replays_skipLayout_bind (h : Replays T Cursor.Facing k uses' still' q q') :
    Replays T F k uses' still' (skipLayout >>= fun _ => q) (skipLayout >>= fun _ => q') := by
  constructor
  · intro s s₁ b hk hr
    rw [← s.cursor.ahead_skipLayout] at hk ⊢
    exact h.shrinks { s with cursor := s.cursor.skipLayout } s₁ b hk hr
  · intro s s' hk _ _ hb
    rw [← s.cursor.ahead_skipLayout] at hk
    exact h.follows { s with cursor := s.cursor.skipLayout }
      { s' with cursor := s'.cursor.skipLayout } hk s.cursor.facing_skipLayout
      s'.cursor.facing_skipLayout hb.skipLayout

lemma replays_current_bind {f f' : Token → Parse β}
    (h : ∀ t, Replays T Cursor.Facing k uses' still' (f t) (f' t))
    (hs : ∀ b, still' b → 0 < uses' b) :
    Replays T Cursor.Facing k uses' still' (current >>= f) (current >>= f') := by
  constructor
  · intro s s₁ b hk hr
    rw [run_bind] at hr
    exact (h _).shrinks s s₁ b hk hr
  · intro s s' hk hF hF' hb
    rw [run_bind, run_bind]
    by_cases hin : T.border ≤ s.cursor.ahead.length
    · have hcur : s'.cursor.current = s.cursor.current := by
        rw [hF.current_eq, hF'.current_eq, hb.next_eq hin]
      change Follows T still' ((f s.cursor.current).run s) ((f' s'.cursor.current).run s')
      rw [hcur]
      exact (h _).follows s s' hk hF hF' hb
    · exact (h s.cursor.current).follows_outside hs hk hin

/-- Both budgets suffice for what the cursors have in common. -/
lemma replays_budget_bind {f f' : Nat → Parse β}
    (h : ∀ j n n', j ≤ k → j ≤ n → j ≤ n' → Replays T Anywhere j uses' still' (f n) (f' n')) :
    Replays T F k uses' still' (budget >>= f) (budget >>= f') := by
  constructor
  · intro s s₁ b hk hr
    rw [run_budget_bind] at hr
    have hn := s.cursor.length_ahead_le
    have hroom : s.cursor.ahead.length + 1 ≤ s.cursor.remaining + 2 := by omega
    have hf := h (s.cursor.ahead.length + 1) _ _ hk hroom hroom
    exact hf.shrinks s s₁ b (Nat.lt_succ_self _) hr
  · intro s s' hk _ _ hb
    rw [run_budget_bind, run_budget_bind]
    have hn := s.cursor.length_ahead_le
    have hn' := s'.cursor.length_ahead_le
    have hle := hb.length_le
    exact (h (s.cursor.ahead.length + 1) _ _ hk (by omega) (by omega)).follows s s'
      (Nat.lt_succ_self _) trivial trivial hb

lemma replays_advance :
    Replays T Cursor.Facing k (fun _ => 0) (fun _ => False) (advance 1) (advance 1) := by
  have hmove (s : ParseState) :
      (advance 1).run s = (.ok s.cursor.current, { s with cursor := s.cursor.moveBy 1 }) := rfl
  constructor
  · intro s s₁ t hk hr
    rw [hmove] at hr
    cases hr
    have hleads : s.cursor.Leads (s.cursor.moveBy 1) :=
      ⟨rfl, rfl, by simp only [Cursor.moveBy]; omega⟩
    exact hleads.length_ahead_le
  · intro s s' hk hF hF' hb
    rw [hmove, hmove, hF.current_eq, hF'.current_eq, hF.moveBy_one, hF'.moveBy_one]
    rintro (hin | ⟨-, hin⟩)
    · have hin : T.border ≤ s.cursor.ahead.length := by
        have hpass := s.cursor.leads_pass.length_ahead_le
        exact Nat.le_trans hin hpass
      rw [hb.next_eq hin]
      exact ⟨_, rfl, hb.pass hin⟩
    · exact hin.elim

section Expectations

/-- Taking the next token. A taken token is used up unless it is the end of the file. -/
lemma replays_take (expected : Expected) {u : Nat} {still : Token → Prop}
    (hu : ∀ c : Cursor, expected.isMet c.next → c.pass.ahead.length + u ≤ c.ahead.length)
    (hs : ∀ t, still t → 0 < u) :
    Replays T F k (fun _ => u) still (return (← expectWith expected {}).2)
      (return (← expectWith expected {}).2) := by
  have hshrinks (s s₁ : ParseState) (t : Token)
      (hr : (return (← expectWith expected {}).2 : Parse Token).run s = (.ok t, s₁)) :
      s₁.cursor.ahead.length + u ≤ s.cursor.ahead.length := by
    rw [run_take] at hr
    by_cases hm : expected.isMet s.cursor.next
    · rw [if_pos hm] at hr
      cases hr
      exact hu _ hm
    · rw [if_neg hm] at hr
      cases hr
  refine ⟨fun s s₁ t _ => hshrinks s s₁ t, fun s s' hk hF hF' hb => ?_⟩
  by_cases hin : T.border ≤ s.cursor.ahead.length
  · rw [run_take, run_take, hb.next_eq hin]
    by_cases hm : expected.isMet s.cursor.next
    · rw [if_pos hm, if_pos hm]
      exact fun _ => ⟨_, rfl, hb.pass hin⟩
    · rw [if_neg hm, if_neg hm]
      refine fun n known _ => ⟨s', ?_⟩
      cases expected <;> rfl
  · refine follows_of_not_covers hin fun t s₁ hr hc => ?_
    have hlen := hshrinks s s₁ t hr
    rcases hc with hc | ⟨hc, ht⟩
    · omega
    · have hpos := hs t ht
      omega

lemma replays_expect {kinds : List TokenKind} (h : .endOfFile ∉ kinds) :
    Replays T F k (fun _ => 1) (fun _ => True) (expect kinds) (expect kinds) := by
  refine replays_take (.kinds kinds) (fun c hm => ?_) fun _ _ => Nat.one_pos
  refine Cursor.length_ahead_pass_lt fun he => h ?_
  rw [← he]
  exact List.contains_iff_mem.1 hm

lemma replays_expectWord {words : List String} :
    Replays T F k (fun _ => 1) (fun _ => True) (expectWord words) (expectWord words) := by
  refine replays_take (.words words) (fun c hm => ?_) fun _ _ => Nat.one_pos
  refine Cursor.length_ahead_pass_lt fun he => ?_
  simp [Expected.isMet, he] at hm

/-- A look at the next token that decides how to go on. At the fork it finds nothing, and what it
finds is used up. -/
lemma replays_test_bind (expected : Expected) {f f' : Bool → Parse β}
    (hmet : Replays T Anywhere k (fun _ => 1) still' (f true) (f' true))
    (hmiss : Replays T Anywhere k uses' still' (f false) (f' false))
    (hu : ∀ b, uses' b ≤ 1) (hs : ∀ b, still' b → 0 < uses' b ∨ T.Misses expected) :
    Replays T F k uses' still' ((return (← expectWith expected .probe).1) >>= f)
      ((return (← expectWith expected .probe).1) >>= f') := by
  have hrun (f : Bool → Parse β) (s : ParseState) : ∃ log,
      ((return (← expectWith expected .probe).1 : Parse Bool) >>= f).run s =
        (f (expected.isMet s.cursor.next)).run { s with log } := by
    obtain ⟨log, h⟩ := run_test expected s
    exact ⟨log, by rw [run_bind, h]⟩
  have htrue : Replays T Anywhere k uses' still' (f true) (f' true) := hmet.weaken hu fun _ => id
  have hboth : ∀ b, Replays T Anywhere k uses' still' (f b) (f' b) := by
    rintro (_ | _)
    · exact hmiss
    · exact htrue
  constructor
  · intro s s₁ b hk hr
    obtain ⟨log, h⟩ := hrun f s
    rw [h] at hr
    exact (hboth _).shrinks { s with log } s₁ b hk hr
  · intro s s' hk hF hF' hb
    obtain ⟨log, h⟩ := hrun f s
    obtain ⟨log', h'⟩ := hrun f' s'
    rw [h, h']
    by_cases hin : T.border ≤ s.cursor.ahead.length
    · rw [hb.next_eq hin]
      exact (hboth _).follows { s with log } { s' with log := log' } hk trivial trivial hb
    · cases hm : expected.isMet s.cursor.next with
      | true => exact hmet.follows_outside (fun _ _ => Nat.one_pos) hk hin
      | false =>
        by_cases hm' : T.Misses expected
        · rw [(hb.misses hm' hin).2]
          exact hmiss.follows { s with log } { s' with log := log' } hk trivial trivial hb
        · exact hmiss.follows_outside (fun b hb => (hs b hb).resolve_right hm') hk hin

end Expectations
end Actions
end Rules
end Parse
end Exclaim
