import Exclaim.Proofs.Source.Coverage
import Exclaim.Proofs.Text.LineNumber

/-! The lines that a piece ends. Each form of pieces counts them in its own way, and each of the
counts is the number of line endings in the text of the piece. -/
namespace Exclaim

/-- No character of a text ends a line. -/
def OnOneLine (cs : List Char) : Prop := ∀ c ∈ cs, c ≠ '\r' ∧ c ≠ '\n'

section OneLine
variable {before after cs : List Char}

lemma lineEndings_eq_zero_iff : lineEndings cs = 0 ↔ OnOneLine cs := by
  fun_induction lineEndings cs with
  | case1 => simp [OnOneLine]
  | case2 cs ih => simp [OnOneLine]
  | case3 c cs hpair hc ih =>
    have hbroken : ¬ OnOneLine (c :: cs) := by
      intro h
      obtain ⟨hr, hn⟩ := h c (by simp)
      exact hc.elim hr hn
    simp [hbroken]
  | case4 c cs hpair hc ih =>
    rw [ih]
    simp only [OnOneLine, List.forall_mem_cons]
    exact ⟨fun h => ⟨not_or.1 hc, h⟩, fun h => h.2⟩

lemma OnOneLine.cleanCut (h : OnOneLine before) (cs : List Char) : CleanCut before cs :=
  fun hlast => absurd rfl (h _ (List.mem_of_getLast? hlast)).1

lemma lineEndings_append_left (h : OnOneLine before) (cs : List Char) :
    lineEndings (before ++ cs) = lineEndings cs := by
  rw [lineEndings_append (h.cleanCut cs), lineEndings_eq_zero_iff.2 h, Nat.zero_add]

lemma lineEndings_append_right (h : OnOneLine after) (cs : List Char) :
    lineEndings (cs ++ after) = lineEndings cs := by
  have hcut : CleanCut cs after := fun _ hhead => (h _ (List.mem_of_mem_head? hhead)).2 rfl
  rw [lineEndings_append hcut, lineEndings_eq_zero_iff.2 h, Nat.add_zero]

end OneLine

namespace Piece
variable {c : Char} {cs : List Char} {p : Piece}

section Lexemes

lemma onOneLine_run {f : Char → Bool} (hc : f c) (hr : f '\r' = false) (hn : f '\n' = false) :
    OnOneLine (c :: cs.takeWhile f) := by
  have hall : ∀ d ∈ c :: cs.takeWhile f, f d := by
    intro d hd
    rcases List.mem_cons.1 hd with rfl | hd
    · exact hc
    · exact List.mem_takeWhile_imp hd
  intro d hd
  have hfd := hall d hd
  refine ⟨?_, ?_⟩
  · rintro rfl
    simp [hr] at hfd
  · rintro rfl
    simp [hn] at hfd

lemma onOneLine_symbol {spelling : String} {kind : TokenKind}
    (h : symbol? cs = some (spelling, kind)) : OnOneLine spelling.toList := by
  have hall : ∀ entry ∈ symbols, OnOneLine entry.1.toList := by
    simp [OnOneLine, symbols]
  exact hall _ (List.mem_of_find?_eq_some h)

lemma onOneLine_operator {text : List Char} {form : Form}
    (h : operator? cs = some (text, form)) : OnOneLine text := by
  have hall : ∀ entry ∈ Operator.table, OnOneLine (entry.1.toList ++ ['=']) := by
    simp [OnOneLine, Operator.table]
  obtain ⟨found, hfound, ⟨-, -, rfl, -⟩ | ⟨-, rfl, -⟩⟩ := operator?_eq_some h
  · exact hall _ (List.mem_of_find?_eq_some hfound)
  · intro d hd
    exact hall _ (List.mem_of_find?_eq_some hfound) d (List.mem_append_left _ hd)

end Lexemes

/-- A line comment ends a line exactly if it has a line ending to end with. -/
lemma linesEnded_lineComment (hc : c = '/') (cs : List Char) :
    (Piece.mk c (throughLineEnding cs) .lineComment).linesEnded =
      lineEndings (c :: throughLineEnding cs) := by
  obtain ⟨body, ending, rest, htext, -, hbody, hending⟩ := throughLineEnding_spec cs
  have hstart : OnOneLine (c :: body) := List.forall_mem_cons.2 ⟨by subst hc; decide, hbody⟩
  have hnone : body.any (fun d => d == '\r' || d == '\n') = false :=
    List.any_eq_false.2 fun d hd => by simp [hbody d hd]
  rw [linesEnded, htext, ← List.cons_append, lineEndings_append_left hstart]
  simp only [List.any_append, hnone, Bool.false_or]
  rcases hending with hending | ⟨rfl, -⟩
  · have hone : ∀ e ∈ [['\r'], ['\n'], ['\r', '\n']],
        (if e.any fun d => d == '\r' || d == '\n' then 1 else 0) = lineEndings e := by decide
    exact hone ending hending
  · rfl

/-- The marks of a block comment end no line. -/
lemma linesEnded_blockComment (hc : c = '/') (cs : List Char) :
    (Piece.mk c ('*' :: (throughCommentEnd cs).1)
        (.blockComment (throughCommentEnd cs).2)).linesEnded =
      lineEndings (c :: '*' :: (throughCommentEnd cs).1) := by
  have hopen : OnOneLine [c, '*'] := by simp [OnOneLine, hc]
  change _ = lineEndings ([c, '*'] ++ (throughCommentEnd cs).1)
  rw [lineEndings_append_left hopen]
  obtain ⟨body, rest, -, ⟨htext, -⟩ | ⟨htext, -, -⟩⟩ := throughCommentEnd_spec cs
  · have hclose : OnOneLine ['*', '/'] := by simp [OnOneLine]
    rw [htext, lineEndings_append_right hclose, linesEnded]
    simp
  · rw [htext]
    rfl

/-- The quotes around a text end no line. -/
lemma linesEnded_quoted (hc : c = '\x27' ∨ c = '\x22') (cs : List Char) :
    (Piece.mk c (throughQuote c cs).1 (.quoted (throughQuote c cs).2)).linesEnded =
      lineEndings (c :: (throughQuote c cs).1) := by
  have hquote : OnOneLine [c] := by rcases hc with rfl | rfl <;> simp [OnOneLine]
  obtain ⟨body, closed, rest, -, htext, -⟩ := throughQuote_spec c cs
  have hclose : OnOneLine (if closed then [c] else []) := by
    cases closed
    · exact nofun
    · exact hquote
  change _ = lineEndings ([c] ++ (throughQuote c cs).1)
  rw [lineEndings_append_left hquote, htext, lineEndings_append_right hclose, linesEnded,
    toList_value_quoted rfl]

lemma linesEnded_lineBreak (hc : c = '\r') (cs : List Char) :
    1 = lineEndings (c :: if cs.head? = some '\n' then ['\n'] else []) := by
  subst hc
  by_cases hfeed : cs.head? = some '\n' <;> simp [hfeed, lineEndings]

/-- What a piece counts in the way of its form are the line endings of its text. -/
lemma linesEnded_eq (h : first? c cs = some p) : p.linesEnded = lineEndings p.text := by
  cases found_of_first? h with
  | lineComment hc hcs => exact linesEnded_lineComment hc cs
  | blockComment hc hcs => exact linesEnded_blockComment hc cs.tail
  | quoted hc => exact linesEnded_quoted hc cs
  | number hc => exact (lineEndings_eq_zero_iff.2 (onOneLine_run hc rfl rfl)).symm
  | symbol hfound =>
    obtain ⟨hne, ⟨rest, hrest⟩, -⟩ := symbol?_spec hfound
    rw [text, head_cons_tail hrest hne, lineEndings_eq_zero_iff.2 (onOneLine_symbol hfound)]
    rfl
  | operator hfound =>
    obtain ⟨hne, ⟨rest, hrest⟩, kind, operation, rfl, -⟩ := operator?_spec hfound
    rw [text, head_cons_tail hrest hne, lineEndings_eq_zero_iff.2 (onOneLine_operator hfound)]
    rfl
  | spaces hc => exact (lineEndings_eq_zero_iff.2 (onOneLine_run (by simp [hc]) rfl rfl)).symm
  | lineBreak hc => exact linesEnded_lineBreak hc cs
  | word hc => exact (lineEndings_eq_zero_iff.2 (onOneLine_run hc (by decide) (by decide))).symm
  | blank hc => rcases hc with rfl | rfl <;> rfl

end Piece
end Exclaim
