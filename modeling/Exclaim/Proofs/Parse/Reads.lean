import Exclaim.Parse.Statement
import Exclaim.Proofs.Ends
import Exclaim.Proofs.Parse.Ahead

/-! Runs of parsing actions. `Reads P p a Q` says that from every cursor with `P` the action `p`
succeeds with `a` and leaves a cursor with `Q`, whatever was noted before. -/
namespace Exclaim.Parse

variable {α β : Type}

lemma run_bind (p : Parse α) (f : α → Parse β) (s : ParseState) :
    (p >>= f).run s =
      match p.run s with
      | (.ok a, s') => (f a).run s'
      | (.error e, s') => (.error e, s') := by
  rw [run_bindCont]
  rcases p.run s with ⟨_ | _, _⟩ <;> rfl

lemma run_cursor (s : ParseState) : cursor.run s = (.ok s.cursor, s) := rfl

lemma run_expectWith (expected : Expected) (s : ParseState) :
    (expectWith expected {}).run s =
      if expected.isMet s.cursor.next then
        (.ok (true, s.cursor.next), { s with cursor := s.cursor.pass })
      else (.error (expected.mismatch s.cursor.next), s) := by
  unfold expectWith
  rw [run_bind, run_cursor]
  simp only [s.cursor.ignoredCount_layout, s.cursor.tokenAt_layoutCount]
  cases expected.isMet s.cursor.next <;> rfl

lemma run_probe (expected : Expected) (s : ParseState) :
    ∃ log, (expectWith expected .probe).run s =
      (.ok (expected.isMet s.cursor.next, s.cursor.next), { s with log }) := by
  unfold expectWith
  rw [run_bind, run_cursor]
  simp only [ExpectOptions.probe, s.cursor.ignoredCount_layout, s.cursor.tokenAt_layoutCount]
  cases expected.isMet s.cursor.next <;> exact ⟨_, rfl⟩

lemma run_take (expected : Expected) (s : ParseState) :
    (return (← expectWith expected {}).2 : Parse Token).run s =
      if expected.isMet s.cursor.next then
        (.ok s.cursor.next, { s with cursor := s.cursor.pass })
      else (.error (expected.mismatch s.cursor.next), s) := by
  rw [run_bind, run_expectWith]
  by_cases h : expected.isMet s.cursor.next
  · simp only [if_pos h]
    rfl
  · simp only [if_neg h]

lemma run_test (expected : Expected) (s : ParseState) :
    ∃ log, (return (← expectWith expected .probe).1 : Parse Bool).run s =
      (.ok (expected.isMet s.cursor.next), { s with log }) := by
  obtain ⟨log, h⟩ := run_probe expected s
  refine ⟨log, ?_⟩
  rw [run_bind, h]
  rfl

lemma run_skipLayout_bind (f : Unit → Parse β) (s : ParseState) :
    (skipLayout >>= f).run s = (f ()).run { s with cursor := s.cursor.skipLayout } := by
  rw [run_bind]
  rfl

lemma run_cursor_bind (f : Cursor → Parse β) (s : ParseState) :
    (cursor >>= f).run s = (f s.cursor).run s := by
  rw [run_bind, run_cursor]

lemma run_budget_bind (f : Nat → Parse β) (s : ParseState) :
    (budget >>= f).run s = (f (s.cursor.remaining + 2)).run s := by
  rw [run_bind]
  rfl

/-- The cursor has these tokens ahead and then the last one. -/
def Ahead (ts : List Token) (c : Cursor) : Prop := c.ahead = ts

/-- The cursor has these tokens ahead, and no layout before the first of them. -/
def Before (ts : List Token) (c : Cursor) : Prop := c.ahead = ts ∧ c.Facing

def Reads (P : Cursor → Prop) (p : Parse α) (a : α) (Q : Cursor → Prop) : Prop :=
  ∀ s : ParseState, P s.cursor →
    ∃ s', p.run s = (.ok a, s') ∧ s.cursor.Leads s'.cursor ∧ Q s'.cursor

variable {P Q R : Cursor → Prop} {p : Parse α} {f : α → Parse β} {a : α} {b : β}
  {ts us : List Token} {t : Token}

lemma Reads.weaken (h : Reads P p a Q) (hQ : ∀ c, Q c → R c) : Reads P p a R := by
  intro s hs
  obtain ⟨s', hr, hl, hq⟩ := h s hs
  exact ⟨s', hr, hl, hQ _ hq⟩

lemma Reads.strengthen (h : Reads P p a Q) (hP : ∀ c, R c → P c) : Reads R p a Q :=
  fun s hs => h s (hP _ hs)

lemma Reads.before (h : Reads (Ahead ts) p a Q) : Reads (Before ts) p a Q :=
  h.strengthen fun _ hc => hc.1

lemma Reads.ahead (h : Reads P p a (Before us)) : Reads P p a (Ahead us) :=
  h.weaken fun _ hc => hc.1

lemma Reads.pure (a : α) : Reads P (pure a) a P := fun s hs => ⟨s, rfl, .refl _, hs⟩

lemma Reads.bind (hp : Reads P p a Q) (hf : Reads Q (f a) b R) : Reads P (p >>= f) b R := by
  intro s hs
  obtain ⟨s₁, h₁, hl₁, hq⟩ := hp s hs
  obtain ⟨s₂, h₂, hl₂, hr⟩ := hf s₁ hq
  refine ⟨s₂, ?_, hl₁.trans hl₂, hr⟩
  rw [run_bind, h₁]
  exact h₂

lemma Reads.map {g : α → β} (hp : Reads P p a Q) : Reads P (g <$> p) (g a) Q := by
  rw [map_eq_pure_bind]
  exact hp.bind (.pure _)

lemma Reads.discard (hp : Reads P p a Q) : Reads P (discard p) () Q := hp.map

lemma reads_note (level : LogLevel) (message : String) : Reads P (note level message) () P :=
  fun s hs => ⟨_, rfl, .refl s.cursor, hs⟩

lemma reads_skipLayout : Reads (Ahead ts) skipLayout () (Before ts) := fun s hs =>
  ⟨{ s with cursor := s.cursor.skipLayout }, rfl, s.cursor.leads_skipLayout,
    (s.cursor.ahead_skipLayout).trans hs, s.cursor.facing_skipLayout⟩

lemma reads_cursor_bind {f : Cursor → Parse β}
    (h : ∀ c, P c → Reads P (f c) b Q) : Reads P (cursor >>= f) b Q := by
  intro s hs
  rw [run_bind]
  exact h s.cursor hs s hs

lemma reads_current_bind {f : Token → Parse β}
    (h : Reads (Before (t :: ts)) (f t) b Q) : Reads (Before (t :: ts)) (current >>= f) b Q := by
  intro s hs
  have hc : s.cursor.current = t := by
    rw [hs.2.current_eq, Cursor.next_of_ahead_cons hs.1]
  obtain ⟨s', hr, hq⟩ := h s hs
  refine ⟨s', ?_, hq⟩
  rw [run_bind, show current.run s = (.ok t, s) by rw [← hc]; rfl]
  exact hr

/-- A budget is always larger than the number of tokens ahead. -/
lemma reads_budget_bind {f : Nat → Parse β}
    (h : ∀ n, ts.length < n → Reads (Ahead ts) (f n) b Q) :
    Reads (Ahead ts) (budget >>= f) b Q := by
  intro s hs
  have hn := s.cursor.length_ahead_le
  rw [show s.cursor.ahead = ts from hs] at hn
  rw [run_budget_bind]
  exact h (s.cursor.remaining + 2) (by omega) s hs

lemma reads_pass : Reads (Before (t :: ts)) (advance 1) t (Ahead ts) := by
  intro s hs
  refine ⟨{ s with cursor := s.cursor.pass }, ?_, s.cursor.leads_pass, ?_⟩
  · change (_, { s with cursor := s.cursor.moveBy 1 }) = _
    rw [hs.2.moveBy_one, hs.2.current_eq, Cursor.next_of_ahead_cons hs.1]
  · exact (s.cursor.ahead_pass).trans (by rw [hs.1]; rfl)

lemma reads_take (expected : Expected) (h : expected.isMet t) :
    Reads (Ahead (t :: ts)) (return (← expectWith expected {}).2) t (Ahead ts) := by
  intro s hs
  refine ⟨{ s with cursor := s.cursor.pass }, ?_, s.cursor.leads_pass, ?_⟩
  · rw [run_take, Cursor.next_of_ahead_cons hs, if_pos h]
  · exact (s.cursor.ahead_pass).trans (by rw [show s.cursor.ahead = _ from hs]; rfl)

lemma reads_expect {kinds : List TokenKind} (h : t.kind ∈ kinds) :
    Reads (Ahead (t :: ts)) (expect kinds) t (Ahead ts) :=
  reads_take (.kinds kinds) (List.contains_iff_mem.2 h)

lemma reads_expectWord {words : List String} (h : t.kind = .identifier) (hw : t.value ∈ words) :
    Reads (Ahead (t :: ts)) (expectWord words) t (Ahead ts) :=
  reads_take (.words words) (by simp [Expected.isMet, h, hw])

/-- The kind of the token that comes first, which behind all others is the end of the file. -/
def firstKind (ts : List Token) : TokenKind := (ts.head?.map (·.kind)).getD .endOfFile

lemma kind_next {c : Cursor} (h : c.ahead = ts) : c.next.kind = firstKind ts := by
  cases ts with
  | nil => rw [Cursor.next_of_ahead_nil h]; exact c.last_kind
  | cons t ts => rw [Cursor.next_of_ahead_cons h]; rfl

/-- Looking at the next token, of which only the kind is known. -/
lemma reads_current_kind {f : Token → Parse β}
    (h : ∀ t, t.kind = firstKind ts → Reads (Before ts) (f t) b Q) :
    Reads (Before ts) (current >>= f) b Q := by
  intro s hs
  rw [run_bind]
  exact h s.cursor.current (by rw [hs.2.current_eq, kind_next hs.1]) s hs

lemma reads_check (kinds : List TokenKind) :
    Reads (Ahead ts) (check kinds) (kinds.contains (firstKind ts)) (Ahead ts) := by
  intro s hs
  obtain ⟨log, h⟩ := run_test (.kinds kinds) s
  simp only [Expected.isMet, kind_next hs] at h
  exact ⟨_, h, .refl _, hs⟩

/-- Whether the first of some tokens is one of these words. -/
def startsWith (words : List String) : List Token → Bool
  | [] => false
  | t :: _ => t.kind == .identifier && words.contains t.value

lemma reads_checkWord (words : List String) :
    Reads (Ahead ts) (checkWord words) (startsWith words ts) (Ahead ts) := by
  intro s hs
  obtain ⟨log, h⟩ := run_test (.words words) s
  refine ⟨{ s with log }, h.trans ?_, .refl s.cursor, hs⟩
  cases ts with
  | nil =>
    rw [Cursor.next_of_ahead_nil hs]
    simp only [Expected.isMet, s.cursor.last_kind]
    rfl
  | cons t ts => rw [Cursor.next_of_ahead_cons hs]; rfl

end Exclaim.Parse
