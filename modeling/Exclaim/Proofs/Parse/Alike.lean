import Exclaim.Proofs.Parse.Reads
import Exclaim.Proofs.Tree.Unplaced

/-! Two parses side by side. `Alike P p p' Q` says that from cursors related by `P` the actions `p`
and `p'` either both succeed, with values and cursors related by `Q`, or both fail, with errors that
agree up to places. -/
namespace Exclaim.Parse

/-- The two cursors have the same tokens ahead, up to layout and places. -/
structure Aligned (c c' : Cursor) : Prop where
  ahead : c.ahead.map Token.unplaced = c'.ahead.map Token.unplaced
  last : c.last.unplaced = c'.last.unplaced
  ended : c.Ended ↔ c'.Ended

/-- Aligned cursors with fewer than `k` tokens ahead. -/
def Within (k : Nat) (c c' : Cursor) : Prop := Aligned c c' ∧ c.ahead.length < k

/-- Aligned cursors with fewer than `k` tokens ahead and no layout before them. -/
def Abreast (k : Nat) (c c' : Cursor) : Prop := Within k c c' ∧ c.Facing ∧ c'.Facing

section Cursors
variable {c c' : Cursor} {k : Nat}

lemma Aligned.length_eq (h : Aligned c c') : c.ahead.length = c'.ahead.length := by
  simpa using congrArg List.length h.ahead

lemma Aligned.next (h : Aligned c c') : c.next.unplaced = c'.next.unplaced := by
  have ha := h.ahead
  unfold Cursor.next
  cases hc : c.ahead with
  | nil =>
    cases hc' : c'.ahead with
    | nil => exact h.last
    | cons t' ts' => simp [hc, hc'] at ha
  | cons t ts =>
    cases hc' : c'.ahead with
    | nil => simp [hc, hc'] at ha
    | cons t' ts' =>
      rw [hc, hc'] at ha
      exact (List.cons.inj ha).1

lemma Aligned.skipLayout (h : Aligned c c') : Aligned c.skipLayout c'.skipLayout where
  ahead := by simpa using h.ahead
  last := h.last
  ended := by rw [Cursor.ended_skipLayout, Cursor.ended_skipLayout, h.ended]

lemma Aligned.pass (h : Aligned c c') : Aligned c.pass c'.pass where
  ahead := by
    have := congrArg List.tail h.ahead
    simpa using this
  last := h.last
  ended := by
    rw [Cursor.ended_pass, Cursor.ended_pass, ← List.length_eq_zero_iff, ← List.length_eq_zero_iff,
      h.length_eq]

lemma Within.mono {j : Nat} (h : Within k c c') (hk : k ≤ j) : Within j c c' :=
  ⟨h.1, Nat.lt_of_lt_of_le h.2 hk⟩

lemma Within.skipLayout (h : Within k c c') : Abreast k c.skipLayout c'.skipLayout :=
  ⟨⟨h.1.skipLayout, by simpa using h.2⟩, c.facing_skipLayout, c'.facing_skipLayout⟩

/-- Passing a token leaves fewer ahead, unless it is the end of the file. -/
lemma Within.pass (h : Within k c c') (hk : c.next.kind ≠ .endOfFile) :
    Within (k - 1) c.pass c'.pass := by
  refine ⟨h.1.pass, ?_⟩
  have hlt := h.2
  rw [Cursor.ahead_pass]
  cases hc : c.ahead with
  | nil => exact absurd ((congrArg _ (Cursor.next_of_ahead_nil hc)).trans c.last_kind) hk
  | cons t ts =>
    rw [hc, List.length_cons] at hlt
    rw [List.tail_cons]
    omega

lemma Within.pass_le (h : Within k c c') : Within k c.pass c'.pass := by
  refine ⟨h.1.pass, Nat.lt_of_le_of_lt ?_ h.2⟩
  simp

lemma Abreast.current (h : Abreast k c c') : c.current.unplaced = c'.current.unplaced := by
  rw [h.2.1.current_eq, h.2.2.current_eq]
  exact h.1.1.next

end Cursors

section Rules
variable {α β : Type}

/-- The outcomes of two runs that go alike. -/
def Matched (Q : α → α → Cursor → Cursor → Prop) :
    Except ParseError α × ParseState → Except ParseError α × ParseState → Prop
  | (.ok a, s), (.ok a', s') => Q a a' s.cursor s'.cursor
  | (.error e, _), (.error e', _) => e.unplaced = e'.unplaced
  | _, _ => False

def Alike (P : Cursor → Cursor → Prop) (p p' : Parse α) (Q : α → α → Cursor → Cursor → Prop) :
    Prop :=
  ∀ s s' : ParseState, P s.cursor s'.cursor → Matched Q (p.run s) (p'.run s')

variable {P R : Cursor → Cursor → Prop} {Q Q' : α → α → Cursor → Cursor → Prop}
  {S : β → β → Cursor → Cursor → Prop} {p p' : Parse α} {f f' : α → Parse β}

lemma Alike.strengthen (h : Alike P p p' Q) (hP : ∀ c c', R c c' → P c c') : Alike R p p' Q :=
  fun s s' hs => h s s' (hP _ _ hs)

lemma Alike.weaken (h : Alike P p p' Q) (hQ : ∀ a a' c c', Q a a' c c' → Q' a a' c c') :
    Alike P p p' Q' := by
  intro s s' hs
  have hm := h s s' hs
  revert hm
  rcases p.run s with ⟨_ | a, s₁⟩ <;> rcases p'.run s' with ⟨_ | a', s₁'⟩
  · exact id
  · exact id
  · exact id
  · exact hQ a a' _ _

lemma alike_pure {a a' : α} (h : ∀ c c', P c c' → Q a a' c c') : Alike P (pure a) (pure a') Q :=
  fun _ _ hs => h _ _ hs

lemma alike_throw {e e' : ParseError} (h : e.unplaced = e'.unplaced) :
    Alike P (throw e) (throw e') Q := fun _ _ _ => h

lemma Alike.bind (hp : Alike P p p' Q) (hf : ∀ a a', Alike (Q a a') (f a) (f' a') S) :
    Alike P (p >>= f) (p' >>= f') S := by
  intro s s' hs
  rw [run_bind, run_bind]
  have hm := hp s s' hs
  revert hm
  rcases p.run s with ⟨_ | a, s₁⟩ <;> rcases p'.run s' with ⟨_ | a', s₁'⟩
  · exact id
  · exact False.elim
  · exact False.elim
  · exact hf a a' s₁ s₁'

lemma Alike.map {g : α → β} (hp : Alike P p p' Q)
    (hg : ∀ a a' c c', Q a a' c c' → S (g a) (g a') c c') : Alike P (g <$> p) (g <$> p') S := by
  rw [map_eq_pure_bind, map_eq_pure_bind]
  exact hp.bind fun a a' => alike_pure (hg a a')

/-- A fact that the cursors carry may be used outside of them. -/
lemma Alike.known {fact : Prop} (hfact : ∀ c c', P c c' → fact) (h : fact → Alike P p p' Q) :
    Alike P p p' Q := fun s s' hs => h (hfact _ _ hs) s s' hs

end Rules

section Gives
variable {α β γ δ : Type} {k j : Nat} {P : Cursor → Cursor → Prop} {view : α → γ} {p p' : Parse α}
  {f f' : α → Parse β} {q q' : Parse β} {S : β → β → Cursor → Cursor → Prop}

/-- Values that look the same, and cursors with fewer than `k` tokens ahead. -/
def Gives (view : α → γ) (k : Nat) (a a' : α) (c c' : Cursor) : Prop :=
  view a = view a' ∧ Within k c c'

lemma Alike.into (hp : Alike P p p' (Gives view k))
    (hf : ∀ a a', view a = view a' → Alike (Within k) (f a) (f' a') S) :
    Alike P (p >>= f) (p' >>= f') S :=
  hp.bind fun a a' => .known (fun _ _ h => h.1) fun h => (hf a a' h).strengthen fun _ _ hc => hc.2

/-- Both runs go on with one and the same value. -/
lemma Alike.same (hp : Alike P p p' (Gives id k)) (hf : ∀ a, Alike (Within k) (f a) (f' a) S) :
    Alike P (p >>= f) (p' >>= f') S := by
  refine hp.into fun a a' h => ?_
  obtain rfl : a = a' := h
  exact hf a

lemma Alike.discard (hp : Alike P p p' (Gives view k)) :
    Alike P (discard p) (discard p') fun _ _ => Within k := hp.map fun _ _ _ _ h => h.2

lemma Alike.past (hp : Alike P p p' (Gives view k)) (hf : Alike (Within k) q q' S) :
    Alike P (Functor.discard p >>= fun _ => q) (Functor.discard p' >>= fun _ => q') S :=
  hp.discard.bind fun _ _ => hf

lemma Alike.yield {a a' : α} (h : view a = view a') :
    Alike (Within k) (pure a) (pure a') (Gives view k) :=
  alike_pure fun _ _ hc => ⟨h, hc⟩

lemma Alike.gives_mono (h : Alike P p p' (Gives view k)) (hk : k ≤ j) :
    Alike P p p' (Gives view j) :=
  h.weaken fun _ _ _ _ hq => ⟨hq.1, hq.2.mono hk⟩

lemma Alike.abreast {Q : α → α → Cursor → Cursor → Prop} (h : Alike (Within k) p p' Q) :
    Alike (Abreast k) p p' Q := h.strengthen fun _ _ hc => hc.1

lemma alike_zero {Q : α → α → Cursor → Cursor → Prop} : Alike (Within 0) p p' Q :=
  fun _ _ hs => absurd hs.2 (Nat.not_lt_zero _)

lemma alike_note {level level' : LogLevel} {message message' : String} :
    Alike P (note level message) (note level' message') (fun _ _ => P) := fun _ _ hs => hs

lemma alike_skipLayout : Alike (Within k) skipLayout skipLayout (fun _ _ => Abreast k) :=
  fun _ _ hs => hs.skipLayout

lemma alike_cursor_bind {f f' : Cursor → Parse β}
    (h : ∀ c c', P c c' → Alike P (f c) (f' c') S) : Alike P (cursor >>= f) (cursor >>= f') S := by
  intro s s' hs
  rw [run_bind, run_bind]
  exact h s.cursor s'.cursor hs s s' hs

lemma alike_current_bind {f f' : Token → Parse β}
    (h : ∀ t t', t.unplaced = t'.unplaced → Alike (Abreast k) (f t) (f' t') S) :
    Alike (Abreast k) (current >>= f) (current >>= f') S := by
  intro s s' hs
  rw [run_bind, run_bind]
  exact h s.cursor.current s'.cursor.current hs.current s s' hs

/-- Both budgets suffice for the tokens ahead. -/
lemma alike_budget_bind {f f' : Nat → Parse β}
    (h : ∀ j n n', j ≤ k → j ≤ n → j ≤ n' → Alike (Within j) (f n) (f' n') S) :
    Alike (Within k) (budget >>= f) (budget >>= f') S := by
  intro s s' hs
  rw [run_budget_bind, run_budget_bind]
  have hn := s.cursor.length_ahead_le
  have hn' := s'.cursor.length_ahead_le
  rw [← hs.1.length_eq] at hn'
  exact h (s.cursor.ahead.length + 1) (s.cursor.remaining + 2) (s'.cursor.remaining + 2) hs.2
    (by omega) (by omega) s s' ⟨hs.1, Nat.lt_succ_self _⟩

lemma alike_advance : Alike (Abreast k) (advance 1) (advance 1) (Gives Token.unplaced k) := by
  intro s s' hs
  change Gives _ _ _ _ (s.cursor.moveBy 1) (s'.cursor.moveBy 1)
  rw [hs.2.1.moveBy_one, hs.2.2.moveBy_one]
  exact ⟨hs.current, hs.1.pass_le⟩

section Expectations
variable {t t' : Token}

lemma Expected.isMet_congr (expected : Expected) (h : t.unplaced = t'.unplaced) :
    expected.isMet t = expected.isMet t' := by
  cases expected with
  | kinds ks => simp only [isMet, Token.kind_eq h]
  | words ws => simp only [isMet, Token.kind_eq h, Token.value_eq h]

lemma Expected.mismatch_congr (expected : Expected) (h : t.unplaced = t'.unplaced) :
    (expected.mismatch t).unplaced = (expected.mismatch t').unplaced := by
  cases expected with
  | kinds ks => exact congrArg (ParseError.unexpectedKind ks) h
  | words ws => exact congrArg (ParseError.unexpectedWord ws) h

/-- Both runs take the next token, or neither does. -/
lemma alike_take (expected : Expected) (hP : ∀ c c', P c c' → Aligned c c')
    (hpass : ∀ c c', P c c' → expected.isMet c.next → Within k c.pass c'.pass) :
    Alike P (return (← expectWith expected {}).2) (return (← expectWith expected {}).2)
      (Gives Token.unplaced k) := by
  intro s s' hs
  have hnext := (hP _ _ hs).next
  rw [run_take, run_take, ← expected.isMet_congr hnext]
  by_cases hm : expected.isMet s.cursor.next
  · rw [if_pos hm, if_pos hm]
    exact ⟨hnext, hpass _ _ hs hm⟩
  · rw [if_neg hm, if_neg hm]
    exact expected.mismatch_congr hnext

lemma alike_expect {kinds : List TokenKind} (h : .endOfFile ∉ kinds) :
    Alike (Within k) (expect kinds) (expect kinds) (Gives Token.unplaced (k - 1)) := by
  refine alike_take (.kinds kinds) (fun _ _ hc => hc.1) fun c c' hc hm => hc.pass ?_
  intro hk
  have hmem := List.contains_iff_mem.1 hm
  rw [hk] at hmem
  exact h hmem

lemma alike_expectWord {words : List String} :
    Alike (Within k) (expectWord words) (expectWord words) (Gives Token.unplaced (k - 1)) := by
  refine alike_take (.words words) (fun _ _ hc => hc.1) fun c c' hc hm => hc.pass ?_
  intro hk
  simp [Expected.isMet, hk] at hm

lemma alike_test (expected : Expected) (hP : ∀ c c', P c c' → Aligned c c') :
    Alike P (return (← expectWith expected .probe).1) (return (← expectWith expected .probe).1)
      (fun b b' c c' => b = b' ∧ P c c') := by
  intro s s' hs
  obtain ⟨log, h⟩ := run_test expected s
  obtain ⟨log', h'⟩ := run_test expected s'
  rw [h, h']
  exact ⟨expected.isMet_congr (hP _ _ hs).next, hs⟩

lemma alike_check {kinds : List TokenKind} :
    Alike (Within k) (check kinds) (check kinds) (Gives id k) :=
  alike_test (.kinds kinds) fun _ _ hc => hc.1

lemma alike_checkWord {words : List String} :
    Alike (Within k) (checkWord words) (checkWord words) (Gives id k) :=
  alike_test (.words words) fun _ _ hc => hc.1

end Expectations
end Gives
end Exclaim.Parse
