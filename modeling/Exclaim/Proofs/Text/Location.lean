import Mathlib.Data.Set.Card
import Exclaim.Proofs.Text.LineNumber

/-! Locations in a text, against the line endings that stand in it. The line of an offset counts the
line endings that end up to there, its column counts the characters behind the last of these, and
so locations grow from character to character. -/
namespace Exclaim

/-- `ending` ends a line where it stands between `before` and `after`: it is a pair, or a half of
one that does not stand next to the other half. -/
def IsLineEnding (before ending after : List Char) : Prop :=
  ending = ['\r', '\n'] ∨ ending = ['\r'] ∧ after.head? ≠ some '\n' ∨
    ending = ['\n'] ∧ before.getLast? ≠ some '\r'

/-- Some line ending of the text ends at the offset. -/
def EndsLine (text : List Char) (offset : Nat) : Prop :=
  ∃ before ending after, text = before ++ (ending ++ after) ∧ IsLineEnding before ending after ∧
    byteSize (before ++ ending) = offset

/-- The line of an offset starts behind the last line ending that ends up to there, or else with
the text. -/
structure LineStartsAt (text : List Char) (offset start : Nat) : Prop where
  starts : start = 0 ∨ EndsLine text start
  le : start ≤ offset
  last : ∀ k, EndsLine text k → k ≤ offset → k ≤ start

/-- The order of a text: by lines, and by columns on the same line. -/
def Location.Before (a b : Location) : Prop :=
  a.line < b.line ∨ a.line = b.line ∧ a.column < b.column

section Endings
variable {before ending after : List Char}

/-- Neither end of a line ending lies inside of a pair. -/
lemma IsLineEnding.cleanCut (h : IsLineEnding before ending after) :
    CleanCut before (ending ++ after) ∧ CleanCut ending after := by
  rcases h with rfl | ⟨rfl, hafter⟩ | ⟨rfl, hbefore⟩
  · simp [CleanCut]
  · simp [CleanCut, hafter]
  · simp [CleanCut, hbefore]

lemma IsLineEnding.lineStarts_eq (h : IsLineEnding before ending after) (offset : Nat) :
    lineStarts offset ending = [offset + byteSize ending] := by
  rcases h with rfl | ⟨rfl, -⟩ | ⟨rfl, -⟩
  · rw [byteSize_pair]
    simp [lineStarts, byteSize]
  · simp [lineStarts, byteSize, utf8Size_of_ends]
  · simp [lineStarts, byteSize, utf8Size_of_ends]

/-- What stands before a line ending matters only next to it. -/
lemma IsLineEnding.append {first : List Char} (h : IsLineEnding before ending after)
    (hcut : CleanCut first (before ++ (ending ++ after))) :
    IsLineEnding (first ++ before) ending after := by
  rcases h with rfl | h | ⟨rfl, hbefore⟩
  · exact .inl rfl
  · exact .inr (.inl h)
  · refine .inr (.inr ⟨rfl, ?_⟩)
    cases before with
    | nil => simpa [CleanCut] using hcut
    | cons d before => rwa [List.getLast?_append_of_ne_nil _ (by simp)]

end Endings

section Starts
variable {text : List Char} {offset start : Nat}

lemma cleanCut_single {c : Char} {cs : List Char}
    (h : ∀ ds, c = '\r' → cs = '\n' :: ds → False) : CleanCut [c] cs := by
  intro hlast hhead
  obtain ⟨ds, rfl⟩ := List.head?_eq_some_iff.1 hhead
  exact h ds (by simpa using hlast) rfl

/-- A line ending of the text behind a clean cut. -/
lemma exists_ending_append {first rest : List Char} (hcut : CleanCut first rest)
    (h : ∃ before ending after, rest = before ++ (ending ++ after) ∧
      IsLineEnding before ending after ∧
      start = offset + byteSize first + byteSize (before ++ ending)) :
    ∃ before ending after, first ++ rest = before ++ (ending ++ after) ∧
      IsLineEnding before ending after ∧ start = offset + byteSize (before ++ ending) := by
  obtain ⟨before, ending, after, rfl, hending, hstart⟩ := h
  refine ⟨first ++ before, ending, after, by simp, hending.append hcut, ?_⟩
  rw [hstart, List.append_assoc, byteSize_append first, Nat.add_assoc]

/-- A line that does not start with the text starts behind a line ending. -/
lemma exists_ending_of_mem_lineStarts (h : start ∈ lineStarts offset text) :
    ∃ before ending after, text = before ++ (ending ++ after) ∧ IsLineEnding before ending after ∧
      start = offset + byteSize (before ++ ending) := by
  fun_induction lineStarts offset text with
  | case1 offset => simp at h
  | case2 offset cs ih =>
    rcases List.mem_cons.1 h with rfl | hmem
    · exact ⟨[], _, cs, rfl, .inl rfl, by simp [byteSize_pair, byteSize]⟩
    · have hpair := ih hmem
      rw [← show byteSize ['\r', '\n'] = 2 from byteSize_pair []] at hpair
      exact exists_ending_append (by simp [CleanCut]) hpair
  | case3 offset c cs hpair hc ih =>
    have hcut := cleanCut_single hpair
    rcases List.mem_cons.1 h with rfl | hmem
    · refine ⟨[], [c], cs, rfl, ?_, by simp [byteSize, utf8Size_of_ends hc]⟩
      rcases hc with rfl | rfl
      · exact .inr (.inl ⟨rfl, hcut rfl⟩)
      · exact .inr (.inr ⟨rfl, by simp⟩)
    · have hrest := ih hmem
      rw [← utf8Size_of_ends hc] at hrest
      exact exists_ending_append hcut hrest
  | case4 offset c cs hpair hc ih => exact exists_ending_append (cleanCut_single hpair) (ih h)

/-- The lines but the first start where the line endings end. -/
lemma mem_lineStarts : start ∈ lineStarts 0 text ↔ EndsLine text start := by
  constructor
  · intro h
    obtain ⟨before, ending, after, htext, hending, hstart⟩ := exists_ending_of_mem_lineStarts h
    exact ⟨before, ending, after, htext, hending, by rw [hstart, Nat.zero_add]⟩
  · rintro ⟨before, ending, after, rfl, hending, rfl⟩
    obtain ⟨hbefore, hafter⟩ := hending.cleanCut
    rw [lineStarts_append 0 hbefore, lineStarts_append _ hafter, hending.lineStarts_eq]
    simp

lemma lineStarts_sorted (offset : Nat) (text : List Char) :
    (lineStarts offset text).Pairwise (· < ·) := by
  have hfirst : ∀ offset cs, ∀ start ∈ lineStarts offset cs, offset < start :=
    fun _ _ _ hmem => (bounds_of_mem_lineStarts hmem).1
  fun_induction lineStarts offset text with
  | case1 offset => exact .nil
  | case2 offset cs ih => exact .cons (hfirst _ _) ih
  | case3 offset c cs hpair hc ih => exact .cons (hfirst _ _) ih
  | case4 offset c cs hpair hc ih => exact ih

/-- An increasing list is as long as the set of its members is large. -/
lemma length_eq_ncard {starts : List Nat} (hsorted : starts.Pairwise (· < ·)) {P : Nat → Prop}
    (hmem : ∀ k, k ∈ starts ↔ P k) : starts.length = {k | P k}.ncard := by
  have hset : {k | P k} = (starts.toFinset : Set Nat) := by
    ext k
    simp [hmem]
  rw [hset, Set.ncard_coe_finset, List.toFinset_card_of_nodup (hsorted.imp Nat.ne_of_lt)]

lemma mem_lineStarts_filter :
    start ∈ (lineStarts 0 text).filter (· ≤ offset) ↔ EndsLine text start ∧ start ≤ offset := by
  simp [mem_lineStarts]

/-- The last start of a line up to an offset is the start of its line. -/
lemma lineStartsAt_getLast? (text : List Char) (offset : Nat) :
    LineStartsAt text offset (((lineStarts 0 text).filter (· ≤ offset)).getLast?.getD 0) := by
  have hsorted := (lineStarts_sorted 0 text).filter (· ≤ offset)
  have hmem : ∀ k, k ∈ (lineStarts 0 text).filter (· ≤ offset) ↔ EndsLine text k ∧ k ≤ offset :=
    fun _ => mem_lineStarts_filter
  generalize (lineStarts 0 text).filter (· ≤ offset) = starts at hsorted hmem
  rcases List.eq_nil_or_concat' starts with rfl | ⟨init, last, rfl⟩
  · refine ⟨.inl rfl, Nat.zero_le _, fun k hk hle => ?_⟩
    exact absurd ((hmem k).2 ⟨hk, hle⟩) (by simp)
  · obtain ⟨hends, hle⟩ := (hmem last).1 (by simp)
    rw [List.getLast?_concat, Option.getD_some]
    refine ⟨.inr hends, hle, fun k hk hle => ?_⟩
    have hk := (hmem k).2 ⟨hk, hle⟩
    rcases List.mem_append.1 hk with hk | hk
    · exact Nat.le_of_lt ((List.pairwise_append.1 hsorted).2.2 k hk last (by simp))
    · exact Nat.le_of_eq (List.mem_singleton.1 hk)

lemma finite_endsLine (text : List Char) : {k | EndsLine text k}.Finite :=
  (lineStarts 0 text).finite_toSet.subset fun _ hk => mem_lineStarts.2 hk

end Starts

namespace LineStartsAt
variable {text : List Char} {offset offset' start start' : Nat}

/-- Up to a further offset on the same line there are no more line endings. -/
lemma eq_of_le (h : LineStartsAt text offset start) (h' : LineStartsAt text offset' start')
    (hle : offset ≤ offset') (hstart : start' ≤ offset) :
    start = start' ∧
      {k | EndsLine text k ∧ k ≤ offset} = {k | EndsLine text k ∧ k ≤ offset'} := by
  constructor
  · apply Nat.le_antisymm
    · rcases h.starts with rfl | hends
      · exact Nat.zero_le _
      · exact h'.last _ hends (Nat.le_trans h.le hle)
    · rcases h'.starts with rfl | hends
      · exact Nat.zero_le _
      · exact h.last _ hends hstart
  · ext k
    refine ⟨fun hk => ⟨hk.1, Nat.le_trans hk.2 hle⟩, fun hk => ⟨hk.1, ?_⟩⟩
    exact Nat.le_trans (h'.last k hk.1 hk.2) hstart

/-- Up to an offset on a later line there are more line endings. -/
lemma ncard_lt (h' : LineStartsAt text offset' start') (hle : offset ≤ offset')
    (hstart : offset < start') :
    {k | EndsLine text k ∧ k ≤ offset}.ncard < {k | EndsLine text k ∧ k ≤ offset'}.ncard := by
  have hends : EndsLine text start' := by
    refine h'.starts.resolve_left ?_
    omega
  refine Set.ncard_lt_ncard ?_ ((finite_endsLine text).subset fun k hk => hk.1)
  refine ⟨fun k hk => ⟨hk.1, Nat.le_trans hk.2 hle⟩, fun hsubset => ?_⟩
  have hmem := hsubset (⟨hends, h'.le⟩ : start' ∈ {k | EndsLine text k ∧ k ≤ offset'})
  exact Nat.not_le_of_lt hstart hmem.2

end LineStartsAt

lemma charCount?_zero (text : List Char) : charCount? 0 text = some 0 := by
  cases text <;> simp [charCount?]

/-- The characters of a first part of a text are counted by its bytes. -/
lemma charCount?_append (before after : List Char) :
    charCount? (byteSize before) (before ++ after) = some before.length := by
  induction before with
  | nil => exact charCount?_zero after
  | cons c before ih =>
    have hne : c.utf8Size ≠ 0 := Nat.ne_of_gt c.utf8Size_pos
    simp [charCount?, byteSize, hne, ih]

namespace LineMap

/-- The location of a cut: its line counts the line endings up to there, and its column the
characters since the last of them. -/
lemma location_append (before after : List Char) :
    ∃ first line, before = first ++ line ∧
      LineStartsAt (before ++ after) (byteSize before) (byteSize first) ∧
      (ofText (before ++ after)).location (byteSize before) =
        ⟨{k | EndsLine (before ++ after) k ∧ k ≤ byteSize before}.ncard + 1, line.length + 1⟩ := by
  have hstart := lineStartsAt_getLast? (before ++ after) (byteSize before)
  have hsorted := (lineStarts_sorted 0 (before ++ after)).filter (· ≤ byteSize before)
  have hcount := length_eq_ncard hsorted fun _ => mem_lineStarts_filter
  have hmin : min (byteSize before) (byteSize (before ++ after)) = byteSize before := by
    rw [byteSize_append]
    omega
  obtain ⟨first, rest, htext, hfirst⟩ : ∃ first rest, before ++ after = first ++ rest ∧
      ((lineStarts 0 (before ++ after)).filter (· ≤ byteSize before)).getLast?.getD 0 =
        byteSize first := by
    rcases hstart.starts with hzero | ⟨upTo, ending, rest, htext, -, hsize⟩
    · exact ⟨[], _, rfl, hzero⟩
    · exact ⟨upTo ++ ending, rest, by rw [htext, List.append_assoc], hsize.symm⟩
  rw [hfirst] at hstart
  obtain ⟨line, rfl⟩ := prefix_of_byteSize_le htext hstart.le
  refine ⟨first, line, rfl, hstart, ?_⟩
  have hcolumn := charCount?_append (first ++ line) after
  have hbefore := charCount?_append first rest
  rw [← htext] at hbefore
  simp only [location, ofText, hmin, hfirst, hcount, hcolumn, hbefore, List.length_append,
    Nat.add_sub_cancel_left]

lemma location_of_le (text : List Char) {offset : Nat} (h : byteSize text ≤ offset) :
    (ofText text).location offset = (ofText text).location (byteSize text) := by
  simp only [location, ofText, Nat.min_eq_right h, Nat.min_self]

/-- Further on in a text the line is a later one, or it is the same one and has grown. -/
lemma location_before (before after : List Char) {passed : List Char} (h : passed ≠ []) :
    ((ofText (before ++ (passed ++ after))).location (byteSize before)).Before
      ((ofText (before ++ (passed ++ after))).location (byteSize (before ++ passed))) := by
  obtain ⟨first, line, hcut, hstart, hlocation⟩ := location_append before (passed ++ after)
  obtain ⟨first', line', hcut', hstart', hlocation'⟩ := location_append (before ++ passed) after
  rw [List.append_assoc] at hstart' hlocation'
  generalize before ++ (passed ++ after) = text at *
  have hle : byteSize before ≤ byteSize (before ++ passed) := by simp
  rw [hlocation, hlocation']
  by_cases hnext : byteSize first' ≤ byteSize before
  · obtain ⟨hsame, hendings⟩ := hstart.eq_of_le hstart' hle hnext
    rw [hcut, List.append_assoc] at hcut'
    obtain ⟨rfl, rfl⟩ := append_inj_of_byteSize_eq hcut' hsame
    refine .inr ⟨by rw [hendings], ?_⟩
    have hlength := List.length_pos_of_ne_nil h
    simp only [List.length_append]
    omega
  · have hmore := hstart'.ncard_lt hle (Nat.lt_of_not_le hnext)
    exact .inl (Nat.add_lt_add_right hmore 1)

end LineMap

/-- The location of an offset between two characters counts the line endings that end up to there
and, on the line that starts behind the last of these, the characters. Offsets past the end are
located at the end, locations grow along the text, and there is one line more than there are line
endings. -/
theorem location_counts (text : String) :
    (∀ before after, text.toList = before ++ after →
      ∃ first line, before = first ++ line ∧
        LineStartsAt text.toList (byteSize before) (byteSize first) ∧
        (LineMap.ofString text).location (byteSize before) =
          ⟨{k | EndsLine text.toList k ∧ k ≤ byteSize before}.ncard + 1, line.length + 1⟩) ∧
    (∀ offset, text.utf8ByteSize ≤ offset →
      (LineMap.ofString text).location offset =
        (LineMap.ofString text).location text.utf8ByteSize) ∧
    (∀ before passed after, text.toList = before ++ (passed ++ after) → passed ≠ [] →
      ((LineMap.ofString text).location (byteSize before)).Before
        ((LineMap.ofString text).location (byteSize (before ++ passed)))) ∧
    (LineMap.ofString text).lineCount = {k | EndsLine text.toList k}.ncard + 1 := by
  unfold LineMap.ofString
  refine ⟨?_, ?_, ?_, ?_⟩
  · intro before after htext
    rw [htext]
    exact LineMap.location_append before after
  · intro offset hle
    rw [← byteSize_toList] at hle ⊢
    exact LineMap.location_of_le _ hle
  · intro before passed after htext hne
    rw [htext]
    exact LineMap.location_before before after hne
  · exact congrArg (· + 1) (length_eq_ncard (lineStarts_sorted 0 _) fun _ => mem_lineStarts)

/-- Between the two halves of a pair the line has not ended yet. -/
theorem location_counts_pair :
    (∃ first line, ['é', '\r'] = first ++ line ∧
      LineStartsAt "é\r\nb".toList 3 (byteSize first) ∧
      (LineMap.ofString "é\r\nb").location 3 =
        ⟨{k | EndsLine "é\r\nb".toList k ∧ k ≤ 3}.ncard + 1, line.length + 1⟩) ∧
    ((LineMap.ofString "é\r\nb").location 3).Before ((LineMap.ofString "é\r\nb").location 4) ∧
    (LineMap.ofString "é\r\nb").location 3 = ⟨1, 3⟩ := by
  have hpair : "é\r\nb".toList = ['é', '\r'] ++ (['\n'] ++ ['b']) := by decide
  obtain ⟨hcounts, -, hbefore, -⟩ := location_counts "é\r\nb"
  exact ⟨hcounts _ _ hpair, hbefore _ _ _ hpair (by simp), by decide⟩

end Exclaim
