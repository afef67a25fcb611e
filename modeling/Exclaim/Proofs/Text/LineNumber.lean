import Mathlib.Data.List.Basic
import Exclaim.Text.Lines

/-! Line numbers of offsets. A text that is cut somewhere, but not between a carriage return and the
line feed that belongs to it, has the line endings of both parts, and the cut lies on the line after
those of the first part. -/
namespace Exclaim

/-- No carriage return before the cut belongs to a line feed behind it. -/
def CleanCut (before after : List Char) : Prop :=
  before.getLast? = some '\r' → after.head? ≠ some '\n'

section Cuts
variable {before middle after : List Char}

lemma CleanCut.of_cons {c : Char} (h : CleanCut (c :: before) after) : CleanCut before after := by
  intro hlast
  apply h
  rw [List.getLast?_cons, hlast]
  rfl

/-- Only what stands next to a cut matters. -/
lemma CleanCut.first (h : CleanCut before (middle ++ after)) (hne : middle ≠ []) :
    CleanCut before middle := by
  intro hlast
  have hhead := h hlast
  rwa [List.head?_append_of_ne_nil _ hne] at hhead

lemma CleanCut.last (h : CleanCut middle after) (hne : middle ≠ []) :
    CleanCut (before ++ middle) after := by
  intro hlast
  rw [List.getLast?_append_of_ne_nil _ hne] at hlast
  exact h hlast

/-- Of two first parts of a text, the one with fewer bytes is a first part of the other. -/
lemma prefix_of_byteSize_le {first rest : List Char} (h : before ++ after = first ++ rest)
    (hle : byteSize first ≤ byteSize before) : ∃ line, before = first ++ line := by
  have hbefore : before <+: before ++ after := List.prefix_append _ _
  rcases List.prefix_or_prefix_of_prefix hbefore ⟨rest, h.symm⟩ with ⟨line, rfl⟩ | ⟨line, hline⟩
  · cases line with
    | nil => exact ⟨[], by simp⟩
    | cons c line =>
      have hpos := byteSize_pos (List.cons_ne_nil c line)
      rw [byteSize_append] at hle
      omega
  · exact ⟨line, hline.symm⟩

/-- Two cuts at one byte are the same. -/
lemma append_inj_of_byteSize_eq {first rest : List Char} (h : before ++ after = first ++ rest)
    (heq : byteSize before = byteSize first) : before = first ∧ after = rest := by
  obtain ⟨line, rfl⟩ := prefix_of_byteSize_le h (Nat.le_of_eq heq.symm)
  rw [byteSize_append] at heq
  cases line with
  | nil => simpa using h
  | cons c line =>
    have hpos := byteSize_pos (List.cons_ne_nil c line)
    omega

end Cuts

/-- A character that is not the first half of a pair ends a line by itself or not at all. -/
lemma lineStarts_cons (offset : Nat) {c : Char} {cs : List Char} (h : CleanCut [c] cs) :
    lineStarts offset (c :: cs) =
      if c = '\r' ∨ c = '\n' then (offset + 1) :: lineStarts (offset + 1) cs
      else lineStarts (offset + c.utf8Size) cs := by
  rw [lineStarts]
  rintro ds rfl rfl
  exact h rfl rfl

lemma utf8Size_of_ends {c : Char} (h : c = '\r' ∨ c = '\n') : c.utf8Size = 1 := by
  rcases h with rfl | rfl <;> rfl

lemma byteSize_pair (cs : List Char) : byteSize ('\r' :: '\n' :: cs) = 2 + byteSize cs := by
  simp only [byteSize, utf8Size_of_ends (.inl rfl), utf8Size_of_ends (.inr rfl)]
  omega

lemma lineStarts_append (offset : Nat) {before after : List Char} (h : CleanCut before after) :
    lineStarts offset (before ++ after) =
      lineStarts offset before ++ lineStarts (offset + byteSize before) after := by
  have hnext : ∀ c cs, (∀ ds, c = '\r' → cs = '\n' :: ds → False) → CleanCut (c :: cs) after →
      CleanCut [c] (cs ++ after) := by
    intro c cs hpair hcut hlast
    cases cs with
    | nil => exact hcut hlast
    | cons d ds =>
      intro hhead
      obtain rfl : d = '\n' := by simpa using hhead
      exact hpair ds (by simpa using hlast) rfl
  fun_induction lineStarts offset before with
  | case1 offset => simp [byteSize]
  | case2 offset cs ih =>
    have hcs := ih h.of_cons.of_cons
    simp [lineStarts, hcs, byteSize_pair, Nat.add_assoc]
  | case3 offset c cs hpair hc ih =>
    have hcs := ih h.of_cons
    rw [List.cons_append, lineStarts_cons offset (hnext c cs hpair h), if_pos hc, hcs]
    simp [byteSize, utf8Size_of_ends hc, Nat.add_assoc]
  | case4 offset c cs hpair hc ih =>
    have hcs := ih h.of_cons
    rw [List.cons_append, lineStarts_cons offset (hnext c cs hpair h), if_neg hc, hcs]
    simp [byteSize, Nat.add_assoc]

lemma lineEndings_append {before after : List Char} (h : CleanCut before after) :
    lineEndings (before ++ after) = lineEndings before + lineEndings after := by
  rw [← length_lineStarts 0, lineStarts_append 0 h]
  simp

/-- A line starts behind the start of the text and not behind its end. -/
lemma bounds_of_mem_lineStarts {offset start : Nat} {cs : List Char}
    (h : start ∈ lineStarts offset cs) : offset < start ∧ start ≤ offset + byteSize cs := by
  fun_induction lineStarts offset cs with
  | case1 offset => simp at h
  | case2 offset cs ih =>
    rw [byteSize_pair]
    rcases List.mem_cons.1 h with rfl | hmem
    · omega
    · have := ih hmem
      omega
  | case3 offset c cs hpair hc ih =>
    simp only [byteSize, utf8Size_of_ends hc]
    rcases List.mem_cons.1 h with rfl | hmem
    · omega
    · have := ih hmem
      omega
  | case4 offset c cs hpair hc ih =>
    have := ih h
    have := c.utf8Size_pos
    simp only [byteSize]
    omega

/-- The line of a cut is one more than the line endings before it. -/
lemma LineMap.line_location {before after : List Char} (h : CleanCut before after) :
    ((LineMap.ofText (before ++ after)).location (byteSize before)).line =
      lineEndings before + 1 := by
  have hmin : min (byteSize before) (byteSize (before ++ after)) = byteSize before := by
    rw [byteSize_append]
    omega
  have hbefore : (lineStarts 0 before).filter (· ≤ byteSize before) = lineStarts 0 before := by
    refine List.filter_eq_self.2 fun start hmem => ?_
    have := bounds_of_mem_lineStarts hmem
    simp only [decide_eq_true_eq]
    omega
  have hafter : (lineStarts (byteSize before) after).filter (· ≤ byteSize before) = [] := by
    refine List.filter_eq_nil_iff.2 fun start hmem => ?_
    have := bounds_of_mem_lineStarts hmem
    simp only [decide_eq_true_eq]
    omega
  simp only [location, ofText, hmin, lineStarts_append 0 h, Nat.zero_add, List.filter_append,
    hbefore, hafter, List.append_nil, length_lineStarts]

end Exclaim
