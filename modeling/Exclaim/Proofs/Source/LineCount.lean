import Exclaim.Proofs.Source.LinesEnded
import Exclaim.Proofs.Source.Steps

/-! The line counter of a scanner. No piece ends between a carriage return and its line feed, so the
line endings of the pieces add up to those of the text, and the counter agrees with the line map of
the source after every piece. -/
namespace Exclaim

namespace Piece

section CleanCuts
variable {c : Char} {cs : List Char} {p : Piece}

lemma cleanCut_of_getLast?_ne {text rest : List Char} (h : text.getLast? ≠ some '\r') :
    CleanCut text rest := fun hlast => absurd hlast h

lemma cleanCut_nil (text : List Char) : CleanCut text [] := by simp [CleanCut]

/-- A carriage return takes its line feed along. -/
lemma cleanCut_lineEnding (cs : List Char) :
    CleanCut (lineEnding cs) (cs.drop (lineEnding cs).length) := by
  cases cs with
  | nil => exact cleanCut_nil _
  | cons c cs =>
    by_cases hr : c = '\r'
    · subst hr
      cases cs with
      | nil => exact cleanCut_nil _
      | cons d ds => by_cases hd : d = '\n' <;> simp [lineEnding, CleanCut, hd]
    · by_cases hn : c = '\n' <;> simp [lineEnding, CleanCut, hr, hn]

lemma cleanCut_throughLineEnding (hc : c = '/') (cs : List Char) :
    CleanCut (c :: throughLineEnding cs) (cs.drop (throughLineEnding cs).length) := by
  -- The cut lies where it would lie if the text started with its line ending.
  let goesOn (c : Char) : Bool := !(c == '\r' || c == '\n')
  have hdrop : cs.drop (throughLineEnding cs).length =
      (cs.dropWhile goesOn).drop (lineEnding (cs.dropWhile goesOn)).length := by
    have hbody : cs.drop (cs.takeWhile goesOn).length = cs.dropWhile goesOn := by
      calc cs.drop (cs.takeWhile goesOn).length
          = (cs.takeWhile goesOn ++ cs.dropWhile goesOn).drop (cs.takeWhile goesOn).length := by
            rw [List.takeWhile_append_dropWhile]
        _ = cs.dropWhile goesOn := List.drop_left
    rw [throughLineEnding, List.length_append, ← List.drop_drop, hbody]
  rw [hdrop]
  have hending := cleanCut_lineEnding (cs.dropWhile goesOn)
  change CleanCut (c :: cs.takeWhile goesOn ++ lineEnding (cs.dropWhile goesOn)) _
  by_cases hne : lineEnding (cs.dropWhile goesOn) = []
  · rw [hne, List.append_nil]
    have hline : OnOneLine (c :: cs.takeWhile goesOn) := onOneLine_run (hc ▸ rfl) rfl rfl
    exact hline.cleanCut _
  · exact hending.last hne

lemma cleanCut_throughCommentEnd (before cs : List Char) :
    CleanCut (before ++ (throughCommentEnd cs).1) (cs.drop (throughCommentEnd cs).1.length) := by
  obtain ⟨body, rest, -, ⟨htext, rfl⟩ | ⟨htext, rfl, -⟩⟩ := throughCommentEnd_spec cs
  · rw [htext]
    apply cleanCut_of_getLast?_ne
    simp [List.getLast?_append]
  · rw [htext, List.drop_length]
    exact cleanCut_nil _

/-- A text in quotes that lacks its end reaches up to the end of all. -/
lemma throughQuote_open {quote : Char} {cs : List Char} (h : (throughQuote quote cs).2 = false) :
    (throughQuote quote cs).1 = cs := by
  induction cs with
  | nil => rfl
  | cons c cs ih =>
    by_cases hc : c = quote
    · simp [throughQuote, hc] at h
    · simp only [throughQuote, if_neg hc] at h ⊢
      rw [ih h]

lemma cleanCut_throughQuote {quote : Char} (h : quote = '\x27' ∨ quote = '\x22') (cs : List Char) :
    CleanCut (quote :: (throughQuote quote cs).1) (cs.drop (throughQuote quote cs).1.length) := by
  cases hclosed : (throughQuote quote cs).2 with
  | false =>
    rw [throughQuote_open hclosed, List.drop_length]
    exact cleanCut_nil _
  | true =>
    obtain ⟨body, closed, rest, -, htext, -⟩ := throughQuote_spec quote cs
    obtain rfl : closed = true := by rw [htext] at hclosed; exact hclosed
    rw [htext]
    apply cleanCut_of_getLast?_ne
    rcases h with rfl | rfl <;> simp [List.getLast?_cons]

lemma cleanCut_lineBreak (cs : List Char) :
    CleanCut ('\r' :: if cs.head? = some '\n' then ['\n'] else [])
      (cs.drop (if cs.head? = some '\n' then ['\n'] else []).length) := by
  by_cases h : cs.head? = some '\n' <;> simp [CleanCut, h]

/-- No piece ends between a carriage return and its line feed. -/
lemma first?_cleanCut (h : first? c cs = some p) : CleanCut p.text (cs.drop p.tail.length) := by
  cases found_of_first? h with
  | lineComment hc hcs => exact cleanCut_throughLineEnding hc cs
  | blockComment hc hcs =>
    obtain ⟨ds, rfl⟩ := List.head?_eq_some_iff.1 hcs
    exact cleanCut_throughCommentEnd [c, '*'] ds
  | quoted hc => exact cleanCut_throughQuote hc cs
  | number hc => exact (onOneLine_run hc rfl rfl).cleanCut _
  | symbol hfound =>
    obtain ⟨hne, ⟨rest, hrest⟩, -⟩ := symbol?_spec hfound
    rw [text, head_cons_tail hrest hne]
    exact (onOneLine_symbol hfound).cleanCut _
  | operator hfound =>
    obtain ⟨hne, ⟨rest, hrest⟩, -⟩ := operator?_spec hfound
    rw [text, head_cons_tail hrest hne]
    exact (onOneLine_operator hfound).cleanCut _
  | spaces hc => exact (onOneLine_run (by simp [hc]) rfl rfl).cleanCut _
  | lineBreak hc =>
    subst hc
    exact cleanCut_lineBreak cs
  | word hc => exact (onOneLine_run hc (by decide) (by decide)).cleanCut _
  | blank hc =>
    apply cleanCut_of_getLast?_ne
    rcases hc with rfl | rfl <;> simp [text]

end CleanCuts
end Piece

namespace Scanner

/-- The scanner has passed a first part of the source, which ends at no half of a pair. Its offset
and its line are those of the end of that part, and the tokens found there are on the lines on which
they end. -/
def Agrees (source : List Char) (s : Scanner) : Prop :=
  ∃ before, source = before ++ s.rest ∧ CleanCut before s.rest ∧ s.offset = byteSize before ∧
    s.line = lineEndings before + 1 ∧
    ∀ t ∈ s.held, t.line = ((LineMap.ofText source).location t.span.stop).line

section Agrees
variable {source : List Char} {s s' : Scanner}

lemma agrees_ofString (source : String) : Agrees source.toList (ofString source) := by
  refine ⟨[], rfl, ?_, rfl, rfl, ?_⟩
  · simp [CleanCut]
  · simp [ofString]

lemma Agrees.line_eq (h : Agrees source s) :
    s.line = ((LineMap.ofText source).location s.offset).line := by
  obtain ⟨before, hsource, hcut, hoffset, hline, -⟩ := h
  rw [hsource, hoffset, LineMap.line_location hcut, hline]

lemma Agrees.line_eq_lineCount (h : Agrees source s) (hrest : s.rest = []) :
    s.line = (LineMap.ofText source).lineCount := by
  obtain ⟨before, hsource, -, -, hline, -⟩ := h
  rw [hrest, List.append_nil] at hsource
  rw [LineMap.lineCount_ofText, hsource, hline]

/-- A step passes a piece, and the line endings of the piece are counted. -/
lemma Agrees.step (h : Agrees source s) (hstep : s.step? = some s') : Agrees source s' := by
  obtain ⟨before, hsource, hcut, hoffset, hline, hheld⟩ := h
  obtain ⟨c, cs, p, hrest, hp, htext, hdrop, htake⟩ := step?_eq_some hstep
  have hne : p.text ≠ [] := by simp [Piece.text]
  have hafter : CleanCut p.text s'.rest := hdrop ▸ Piece.first?_cleanCut hp
  have hcut' : CleanCut (before ++ p.text) s'.rest := hafter.last hne
  have hbetween : CleanCut before p.text := by
    rw [hrest, htext] at hcut
    exact hcut.first hne
  have hsource' : source = before ++ p.text ++ s'.rest := by
    rw [hsource, hrest, htext, List.append_assoc]
  have hoffset' : s.offset + byteSize p.text = byteSize (before ++ p.text) := by
    rw [hoffset, byteSize_append]
  have hline' : p.nextLine s.line = lineEndings (before ++ p.text) + 1 := by
    rw [Piece.nextLine, Piece.linesEnded_eq hp, hline, lineEndings_append hbetween]
    omega
  refine ⟨before ++ p.text, hsource', hcut', ?_, ?_, ?_⟩
  · rw [htake, ← hoffset']
    simp [take, Piece.joined]
  · rw [htake, ← hline']
    rfl
  · intro t ht
    rw [htake] at ht
    simp only [take, Piece.tokens, List.append_nil, List.mem_append, Option.mem_toList] at ht
    rcases ht with ht | ht
    · exact hheld t ht
    · obtain ⟨⟨kind, operation⟩, -, rfl⟩ := Option.map_eq_some_iff.1 ht
      change p.nextLine s.line = ((LineMap.ofText source).location (s.offset + _)).line
      rw [hline', hoffset', hsource', LineMap.line_location hcut']

lemma Agrees.steps (h : Agrees source s) (hsteps : Steps s s') : Agrees source s' := by
  induction hsteps with
  | refl => exact h
  | tail _ hstep ih => exact ih.step hstep

end Agrees
end Scanner

/-- The line counter agrees with the line map of the source: after every step the scanner is on the
line of its offset, whatever is still to be read. So a token is on the line on which its text ends,
an error is on the line of its offset, and the counter ends at the number of lines. -/
theorem scanner_line_agrees (source : String) :
    (∀ s, Scanner.Steps (.ofString source) s →
      s.line = ((LineMap.ofString source).location s.offset).line ∧
      s.tokenize = (Scanner.ofString source).tokenize) ∧
    (∀ tokens s, (Scanner.ofString source).tokenize = (.ok tokens, s) →
      (∀ t ∈ tokens, t.line = ((LineMap.ofString source).location t.span.stop).line) ∧
      s.line = (LineMap.ofString source).lineCount) ∧
    ∀ e s, (Scanner.ofString source).tokenize = (.error e, s) →
      e.line = ((LineMap.ofString source).location e.offset).line := by
  have hstart := Scanner.agrees_ofString source
  refine ⟨fun s hs => ⟨(hstart.steps hs).line_eq, hs.tokenize_eq⟩, ?_, ?_⟩
  · intro tokens s htokenize
    obtain ⟨last, hsteps, hrest, hline, rfl⟩ := Scanner.steps_of_tokenize_ok htokenize
    have hlast := hstart.steps hsteps
    refine ⟨fun t ht => ?_, hline.trans (hlast.line_eq_lineCount hrest)⟩
    rcases List.mem_append.1 ht with ht | ht
    · obtain ⟨-, -, -, -, -, hheld⟩ := hlast
      exact hheld t ht
    · obtain rfl := List.mem_singleton.1 ht
      exact hlast.line_eq
  · intro e s htokenize
    obtain ⟨hsteps, hoffset, hline⟩ := Scanner.steps_of_tokenize_error htokenize
    rw [hoffset, hline]
    exact (hstart.steps hsteps).line_eq

/-- A string over two lines and a comment with a pair in it stand before a character that starts no
piece. -/
theorem scanner_line_agrees_stray :
    ∃ e s, (Scanner.ofString "'a\rb'\r\n/*\r\n*/#").tokenize = (.error e, s) ∧ e.line = 4 ∧
      e.line = ((LineMap.ofString "'a\rb'\r\n/*\r\n*/#").location e.offset).line := by
  have hstray : (Scanner.ofString "'a\rb'\r\n/*\r\n*/#").tokenize.1.toOption = none ∧
      (Scanner.ofString "'a\rb'\r\n/*\r\n*/#").tokenize.2.line = 4 := by decide +kernel
  rcases h : (Scanner.ofString "'a\rb'\r\n/*\r\n*/#").tokenize with ⟨e | tokens, s⟩
  · rw [h] at hstray
    obtain ⟨-, -, hline⟩ := Scanner.steps_of_tokenize_error h
    exact ⟨e, s, rfl, hline.trans hstray.2, (scanner_line_agrees _).2.2 e s h⟩
  · simp [h, Except.toOption] at hstray

end Exclaim
