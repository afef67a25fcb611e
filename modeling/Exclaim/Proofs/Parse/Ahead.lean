import Mathlib.Data.List.Basic
import Exclaim.Parse.Cursor

/-! What a cursor has ahead of it once layout is left out. A parse looks at the next token that
counts and passes it, so these two steps are all that it sees of the tokens. -/
namespace Exclaim.Cursor

section Lists
variable {α : Type} (p : α → Bool)

lemma getElem?_length_takeWhile (l : List α) :
    l[(l.takeWhile p).length]? = (l.filter (!p ·)).head? := by
  induction l with
  | nil => rfl
  | cons a l ih => cases h : p a <;> simp [h, ih]

lemma filter_drop_length_takeWhile (l : List α) :
    (l.drop (l.takeWhile p).length).filter (!p ·) = l.filter (!p ·) := by
  induction l with
  | nil => rfl
  | cons a l ih => cases h : p a <;> simp [h, ih]

lemma filter_drop_length_takeWhile_succ (l : List α) :
    (l.drop ((l.takeWhile p).length + 1)).filter (!p ·) = (l.filter (!p ·)).tail := by
  induction l with
  | nil => rfl
  | cons a l ih => cases h : p a <;> simp [h, ih]

lemma length_takeWhile_lt_iff (l : List α) :
    (l.takeWhile p).length < l.length ↔ l.filter (!p ·) ≠ [] := by
  induction l with
  | nil => simp
  | cons a l ih => cases h : p a <;> simp [h, ih]

end Lists

/-- All tokens of a sequence, the end of the file included. -/
def tokens (c : Cursor) : List Token := c.body ++ [c.last]

/-- The tokens from the position on that are no layout, except the last one. -/
def ahead (c : Cursor) : List Token := c.upcoming.filter (!·.kind.isIgnorable)

/-- The next token that counts. -/
def next (c : Cursor) : Token := c.ahead.head?.getD c.last

/-- How many layout tokens stand before the next token that counts. -/
def layoutCount (c : Cursor) : Nat := (c.upcoming.takeWhile (·.kind.isIgnorable)).length

/-- The cursor behind the next token that counts. -/
def pass (c : Cursor) : Cursor := { c with position := c.position + c.layoutCount + 1 }

/-- No layout stands between the cursor and the next token that counts. -/
def Facing (c : Cursor) : Prop := c.layoutCount = 0

@[simp] lemma body_skipLayout (c : Cursor) : c.skipLayout.body = c.body := rfl

lemma position_skipLayout (c : Cursor) :
    c.skipLayout.position = c.position + c.layoutCount := rfl

lemma upcoming_skipLayout (c : Cursor) : c.skipLayout.upcoming = c.upcoming.drop c.layoutCount := by
  simp [upcoming, position_skipLayout]

lemma upcoming_pass (c : Cursor) : c.pass.upcoming = c.upcoming.drop (c.layoutCount + 1) := by
  simp [upcoming, pass, Nat.add_assoc]

/-- An expectation passes over the same tokens as a skip does. -/
lemma ignoredCount_layout (c : Cursor) :
    c.ignoredCount [.whiteSpace, .lineBreak] = c.layoutCount := by
  unfold ignoredCount layoutCount
  congr 2
  funext t
  cases t.kind <;> rfl

@[simp] lemma ahead_skipLayout (c : Cursor) : c.skipLayout.ahead = c.ahead := by
  unfold ahead
  rw [upcoming_skipLayout]
  exact filter_drop_length_takeWhile _ _

@[simp] lemma ahead_pass (c : Cursor) : c.pass.ahead = c.ahead.tail := by
  unfold ahead
  rw [upcoming_pass]
  exact filter_drop_length_takeWhile_succ _ _

lemma tokenAt_layoutCount (c : Cursor) : c.tokenAt (c.position + c.layoutCount) = c.next := by
  unfold tokenAt next ahead
  rw [← getElem?_length_takeWhile]
  simp [upcoming, layoutCount]

lemma facing_skipLayout (c : Cursor) : c.skipLayout.Facing := by
  unfold Facing layoutCount
  rw [upcoming_skipLayout]
  unfold layoutCount
  induction c.upcoming with
  | nil => rfl
  | cons t ts ih => cases h : t.kind.isIgnorable <;> simp [h, ih]

lemma Facing.current_eq {c : Cursor} (h : c.Facing) : c.current = c.next := by
  rw [← tokenAt_layoutCount, h]
  rfl

lemma Facing.moveBy_one {c : Cursor} (h : c.Facing) : c.moveBy 1 = c.pass := by
  unfold moveBy pass
  rw [h]
  congr 1

lemma next_of_ahead_nil {c : Cursor} (h : c.ahead = []) : c.next = c.last := by
  simp [next, h]

lemma next_of_ahead_cons {c : Cursor} {t : Token} {ts : List Token} (h : c.ahead = t :: ts) :
    c.next = t := by
  simp [next, h]

lemma mem_body_of_mem_ahead {c : Cursor} {t : Token} (h : t ∈ c.ahead) : t ∈ c.body :=
  List.mem_of_mem_drop (List.mem_of_mem_filter h)

lemma length_ahead_le (c : Cursor) : c.ahead.length ≤ c.remaining := by
  have h := List.length_filter_le (!·.kind.isIgnorable) c.upcoming
  simp only [upcoming, List.length_drop] at h
  simp only [ahead, remaining, size, upcoming]
  omega

lemma ofTokens_append {body : List Token} {last : Token} (h : last.kind = .endOfFile) :
    ofTokens (body ++ [last]) = { body, last, last_kind := h } := by
  simp [ofTokens, h]

/-- Whether every token was passed, the last one included. -/
def Ended (c : Cursor) : Prop := c.size ≤ c.position

lemma ended_pass (c : Cursor) : c.pass.Ended ↔ c.ahead = [] := by
  have h := length_takeWhile_lt_iff (·.kind.isIgnorable) c.upcoming
  simp only [upcoming, List.length_drop] at h
  simp only [Ended, size, pass, ahead, layoutCount, upcoming]
  rw [← not_iff_not, ← ne_eq, ← h]
  omega

lemma not_ended_of_ahead {c : Cursor} (h : c.ahead ≠ []) : ¬ c.Ended := by
  intro hend
  have hlen := c.length_ahead_le
  rw [remaining, Nat.sub_eq_zero_of_le hend] at hlen
  exact h (List.length_eq_zero_iff.1 (Nat.le_zero.1 hlen))

lemma ended_skipLayout (c : Cursor) : c.skipLayout.Ended ↔ c.Ended := by
  have h := (List.takeWhile_sublist (l := c.upcoming) (·.kind.isIgnorable)).length_le
  simp only [upcoming, List.length_drop] at h
  simp only [Ended, size, position_skipLayout, layoutCount, upcoming, body_skipLayout]
  omega

/-- `c'` stands among the same tokens as `c`, and not before it. -/
structure Leads (c c' : Cursor) : Prop where
  body : c'.body = c.body
  last : c'.last = c.last
  position : c.position ≤ c'.position

lemma Leads.refl (c : Cursor) : c.Leads c := ⟨rfl, rfl, Nat.le_refl _⟩

lemma Leads.trans {a b c : Cursor} (h : a.Leads b) (h' : b.Leads c) : a.Leads c :=
  ⟨h'.body.trans h.body, h'.last.trans h.last, Nat.le_trans h.position h'.position⟩

lemma leads_skipLayout (c : Cursor) : c.Leads c.skipLayout := ⟨rfl, rfl, Nat.le_add_right _ _⟩

lemma leads_pass (c : Cursor) : c.Leads c.pass :=
  ⟨rfl, rfl, Nat.le_trans (Nat.le_add_right _ _) (Nat.le_succ _)⟩

/-- Whatever a cursor has ahead, there is a place behind the first tokens of it. -/
lemma exists_leads {c : Cursor} {ts rest : List Token} (h : c.ahead = ts ++ rest) :
    ∃ c', c.Leads c' ∧ c'.ahead = rest := by
  induction ts generalizing c with
  | nil => exact ⟨c, .refl c, h⟩
  | cons t ts ih =>
    have hpass : c.pass.ahead = ts ++ rest := by
      rw [ahead_pass, h, List.cons_append, List.tail_cons]
    obtain ⟨c', hleads, hahead⟩ := ih hpass
    exact ⟨c', c.leads_pass.trans hleads, hahead⟩

/-- What was passed on the way, and what counts of it. -/
lemma Leads.passed {c c' : Cursor} (h : c.Leads c') :
    ∃ used, c.upcoming = used ++ c'.upcoming ∧
      c.ahead = used.filter (!·.kind.isIgnorable) ++ c'.ahead := by
  have hdrop : c'.upcoming = c.upcoming.drop (c'.position - c.position) := by
    rw [upcoming, upcoming, h.body, List.drop_drop, Nat.add_sub_cancel' h.position]
  refine ⟨c.upcoming.take (c'.position - c.position), ?_, ?_⟩
  · rw [hdrop, List.take_append_drop]
  · rw [ahead, ahead, hdrop, ← List.filter_append, List.take_append_drop]

lemma Leads.length_ahead_le {c c' : Cursor} (h : c.Leads c') :
    c'.ahead.length ≤ c.ahead.length := by
  obtain ⟨used, -, hahead⟩ := h.passed
  simp [hahead]

/-- A cursor with fewer tokens ahead has moved. -/
lemma Leads.position_lt {c c' : Cursor} (h : c.Leads c')
    (hlt : c'.ahead.length < c.ahead.length) : c.position < c'.position := by
  rcases Nat.lt_or_eq_of_le h.position with hpos | hpos
  · exact hpos
  · have hsame : c'.ahead = c.ahead := by
      rw [ahead, ahead, upcoming, upcoming, h.body, hpos]
    rw [hsame] at hlt
    exact absurd hlt (Nat.lt_irrefl _)

/-- A cursor that has only passed layout skips to the same place. -/
lemma Leads.position_skipLayout {c c' : Cursor} (h : c.Leads c') (hahead : c'.ahead = c.ahead)
    (hend : ¬ c'.Ended) : c'.skipLayout.position = c.skipLayout.position := by
  obtain ⟨used, hup, hused⟩ := h.passed
  have hlayout : ∀ t ∈ used, t.kind.isIgnorable := by
    have hnil : used.filter (!·.kind.isIgnorable) = [] := by
      rw [hahead] at hused
      exact List.self_eq_append_left.1 hused
    simpa using List.filter_eq_nil_iff.1 hnil
  have hlength : used.length = c'.position - c.position := by
    have hlen := congrArg List.length hup
    have hpos := h.position
    simp only [upcoming, h.body, List.length_append, List.length_drop] at hlen
    simp only [Ended, size, h.body] at hend
    omega
  have hcount : c.layoutCount = used.length + c'.layoutCount := by
    rw [layoutCount, hup, List.takeWhile_append_of_pos hlayout, List.length_append, layoutCount]
  have hpos := h.position
  rw [Cursor.position_skipLayout, Cursor.position_skipLayout, hcount, hlength]
  omega

lemma length_ahead_pass_lt {c : Cursor} (h : c.next.kind ≠ .endOfFile) :
    c.pass.ahead.length < c.ahead.length := by
  rw [ahead_pass]
  cases hc : c.ahead with
  | nil => exact absurd ((congrArg _ (next_of_ahead_nil hc)).trans c.last_kind) h
  | cons t ts => simp

end Exclaim.Cursor
