import Exclaim.Proofs.Source.LongestMatch
import Exclaim.Proofs.Source.Stray

/-! Pieces that stand alone. What a piece is depends on nothing but its own text, so the text of a
token, read by itself, is that token again. -/
namespace Exclaim

namespace Piece

section Again
variable {c : Char} {cs : List Char} {p : Piece}

lemma throughQuote_again (quote : Char) (cs : List Char) :
    throughQuote quote (throughQuote quote cs).1 = throughQuote quote cs := by
  induction cs with
  | nil => rfl
  | cons c cs ih => by_cases hc : c = quote <;> simp [throughQuote, hc, ih]

lemma throughLineEnding_again (cs : List Char) :
    throughLineEnding (throughLineEnding cs) = throughLineEnding cs := by
  induction cs with
  | nil => rfl
  | cons c cs ih =>
    by_cases hr : c = '\r'
    · subst hr
      rw [throughLineEnding_return, lineEnding_return]
      by_cases hn : cs.head? = some '\n' <;> simp [hn, throughLineEnding_return, lineEnding]
    by_cases hn : c = '\n'
    · rw [hn, throughLineEnding_feed, throughLineEnding_feed]
    · rw [throughLineEnding_cons cs hr hn, throughLineEnding_cons _ hr hn, ih]

lemma throughCommentEnd_again (cs : List Char) :
    throughCommentEnd (throughCommentEnd cs).1 = throughCommentEnd cs := by
  induction cs with
  | nil => rfl
  | cons c cs ih =>
    have hhead : (throughCommentEnd cs).1.head? = cs.head? := by
      cases cs with
      | nil => rfl
      | cons d ds =>
        rw [throughCommentEnd_cons]
        split
        · next hend => simp [hend.1]
        · rfl
    rw [throughCommentEnd_cons c cs]
    split
    · rfl
    · next hend => simp only [throughCommentEnd_cons, hhead, if_neg hend, ih]

lemma first?_number (hc : c.isDigit) (cs : List Char) :
    first? c cs = some ⟨c, cs.takeWhile Char.isDigit, .lexeme .number none⟩ := by
  have hslash : c ≠ '/' := by
    rintro rfl
    exact absurd hc (by decide)
  have hquote : ¬ (c = '\x27' ∨ c = '\x22') := by
    rintro (rfl | rfl) <;> exact absurd hc (by decide)
  simp [first?, hslash, hquote, hc]

/-- A character that no mark holds starts a run, or it stands for itself. -/
lemma first?_of_notMark (hmark : ∀ entry ∈ symbols ++ Operator.table, c ∉ entry.1.toList)
    (hquote : ¬ (c = '\x27' ∨ c = '\x22')) (hdigit : c.isDigit = false) (cs : List Char) :
    first? c cs =
      if c = ' ' then some ⟨c, cs.takeWhile (· == ' '), .spaces⟩
      else if c = '\r' then some ⟨c, if cs.head? = some '\n' then ['\n'] else [], .lineBreak⟩
      else if isWordChar c then some ⟨c, cs.takeWhile isWordChar, .lexeme .identifier none⟩
      else if c = '\n' ∨ c = '\t' then some ⟨c, [], .blank⟩
      else none := by
  have hslash : c ≠ '/' := by
    rintro rfl
    exact hmark ("/", .divide) (by decide) (by decide)
  simp [first?, hslash, hquote, hdigit, symbol?_of_notMark hmark, operator?_of_notMark hmark]

lemma first?_spaces (cs : List Char) :
    first? ' ' cs = some ⟨' ', cs.takeWhile (· == ' '), .spaces⟩ := by
  rw [first?_of_notMark (by decide) (by decide) (by decide), if_pos rfl]

lemma first?_lineBreak (cs : List Char) :
    first? '\r' cs = some ⟨'\r', if cs.head? = some '\n' then ['\n'] else [], .lineBreak⟩ := by
  rw [first?_of_notMark (by decide) (by decide) (by decide), if_neg (by decide), if_pos rfl]

lemma isDigit_of_isWordChar (hc : isWordChar c) : c.isDigit = false := by
  have hall : ∀ n ∈ List.range' 48 10, isWordChar (Char.ofNat n) = false := by decide
  by_contra hdigit
  simp only [Bool.not_eq_false, Char.isDigit, Bool.and_eq_true, decide_eq_true_eq] at hdigit
  have hlow : 48 ≤ c.toNat := UInt32.le_iff_toNat_le.1 hdigit.1
  have hhigh : c.toNat ≤ 57 := UInt32.le_iff_toNat_le.1 hdigit.2
  have hmem : c.toNat ∈ List.range' 48 10 := by
    rw [List.mem_range'_1]
    omega
  have hnone := hall _ hmem
  rw [Char.ofNat_toNat, hc] at hnone
  exact absurd hnone (by decide)

lemma first?_word (hc : isWordChar c) (cs : List Char) :
    first? c cs = some ⟨c, cs.takeWhile isWordChar, .lexeme .identifier none⟩ := by
  have hne : ∀ d, isWordChar d = false → c ≠ d := by
    rintro d hd rfl
    exact absurd hc (by simp [hd])
  have hmark : ∀ entry ∈ symbols ++ Operator.table, c ∉ entry.1.toList := by
    have hall : ∀ entry ∈ symbols ++ Operator.table, entry.1.toList.any isWordChar = false := by
      decide
    intro entry hentry hmem
    exact List.any_eq_false.1 (hall entry hentry) c hmem hc
  rw [first?_of_notMark hmark (not_or.2 ⟨hne _ (by decide), hne _ (by decide)⟩)
      (isDigit_of_isWordChar hc),
    if_neg (hne _ (by decide)), if_neg (hne _ (by decide)), if_pos hc]

lemma first?_blank (hc : c = '\n' ∨ c = '\t') (cs : List Char) :
    first? c cs = some ⟨c, [], .blank⟩ := by
  rcases hc with rfl | rfl
  · rw [first?_of_notMark (by decide) (by decide) (by decide)]
    rfl
  · rw [first?_of_notMark (by decide) (by decide) (by decide)]
    rfl

/-- A mark that stands alone is read as itself: none of its first parts is a longer one. -/
lemma first?_mark {s : Operator.Spelling}
    (h : s ∈ symbols.map Operator.Spelling.plain ++ Operator.spellings)
    (htext : c :: cs = s.text) : first? c cs = some ⟨c, cs, .lexeme s.kind s.operation⟩ := by
  have hall : ∀ s ∈ symbols.map Operator.Spelling.plain ++ Operator.spellings,
      first? (s.text.headD ' ') s.text.tail =
        some ⟨s.text.headD ' ', s.text.tail, .lexeme s.kind s.operation⟩ := by decide
  have hmark := hall s h
  rwa [← htext] at hmark

/-- An operator is one of the spellings. -/
lemma exists_spelling_of_operator? {text : List Char} {form : Form}
    (h : operator? cs = some (text, form)) :
    ∃ s ∈ Operator.spellings, s.text = text ∧ form = .lexeme s.kind s.operation := by
  obtain ⟨found, hfound, ⟨hcombines, -, rfl, rfl⟩ | ⟨-, rfl, rfl⟩⟩ := operator?_eq_some h
  · have hmem : found ∈ Operator.table := List.mem_of_find?_eq_some hfound
    exact ⟨.combined found, Operator.mem_spellings.2 (.inr (.inl ⟨found, hmem, hcombines, rfl⟩)),
      rfl, rfl⟩
  · have hmem : found ∈ Operator.table := List.mem_of_find?_eq_some hfound
    exact ⟨.plain found, Operator.mem_spellings.2 (.inl ⟨found, hmem, rfl⟩), rfl, rfl⟩

/-- A piece is found again when nothing stands behind it. -/
lemma first?_alone (h : first? c cs = some p) : first? c p.tail = some p := by
  cases found_of_first? h with
  | lineComment hc hcs =>
    obtain ⟨ds, rfl⟩ := List.head?_eq_some_iff.1 hcs
    subst hc
    have hhead : (throughLineEnding ('/' :: ds)).head? = some '/' := by
      rw [throughLineEnding_cons ds (by decide) (by decide), List.head?_cons]
    rw [first?_lineComment hhead, throughLineEnding_again]
  | blockComment hc hcs =>
    subst hc
    rw [first?_blockComment rfl, List.tail_cons, throughCommentEnd_again]
  | quoted hc => rw [first?_quoted hc, throughQuote_again]
  | number hc => rw [first?_number hc, List.takeWhile_idem]
  | symbol hfound =>
    obtain ⟨hne, ⟨rest, hrest⟩, -⟩ := symbol?_spec hfound
    have hplain : .plain (_, _) ∈ symbols.map Operator.Spelling.plain :=
      List.mem_map_of_mem (List.mem_of_find?_eq_some hfound)
    exact first?_mark (List.mem_append_left _ hplain) (head_cons_tail hrest hne)
  | operator hfound =>
    obtain ⟨hne, ⟨rest, hrest⟩, -⟩ := operator?_spec hfound
    obtain ⟨s, hs, rfl, rfl⟩ := exists_spelling_of_operator? hfound
    exact first?_mark (List.mem_append_right _ hs) (head_cons_tail hrest hne)
  | spaces hc =>
    subst hc
    rw [first?_spaces, List.takeWhile_idem]
  | lineBreak hc =>
    subst hc
    rw [first?_lineBreak]
    by_cases hn : cs.head? = some '\n' <;> simp [hn]
  | word hc => rw [first?_word hc, List.takeWhile_idem]
  | blank hc => exact first?_blank hc []

end Again

lemma span_of_token? {p : Piece} {offset line : Nat} {t : Token}
    (h : p.token? offset line = some t) : t.span = ⟨offset, byteSize p.text⟩ := by
  obtain ⟨made, -, rfl⟩ := Option.map_eq_some_iff.1 h
  rfl

/-- Only the place of a token depends on where its piece stands. -/
lemma token?_moved {p : Piece} {offset line : Nat} {t : Token} (h : p.token? offset line = some t)
    (offset' line' : Nat) :
    p.token? offset' line' =
      some { t with span := ⟨offset', byteSize p.text⟩, line := p.nextLine line' } := by
  obtain ⟨made, hmade, rfl⟩ := Option.map_eq_some_iff.1 h
  rw [token?, hmade]
  rfl

/-- The token of a piece, read from the text of the piece. -/
lemma tokenize_text {c : Char} {cs : List Char} {p : Piece} (h : first? c cs = some p)
    {offset line : Nat} {t : Token} (ht : p.token? offset line = some t) :
    tokenize (String.ofList p.text) =
      .ok [{ t with span := ⟨0, byteSize p.text⟩, line := p.nextLine 1 },
        .endOfFile (byteSize p.text) (p.nextLine 1)] := by
  have hsplit : split p.text = ([p], []) := by
    obtain ⟨rfl, -⟩ := first?_spec h
    rw [text, split_of_some (first?_alone h), List.drop_length, split]
  simp [tokenize, Scanner.tokenize, Scanner.ofString, hsplit, Scanner.take, tokens,
    token?_moved ht, joined, lastLine]

end Piece

/-- A token is read again from its own text, whatever stood around it: the text makes that one
token, of the same kind, with the same value and operation, and then the source ends. -/
theorem tokenize_alone {source : String} {tokens : List Token} (h : tokenize source = .ok tokens)
    {t : Token} (ht : t ∈ tokens) (hkind : t.kind ≠ .endOfFile) :
    ∃ before text after, source = before ++ text ++ after ∧
      before.utf8ByteSize = t.span.start ∧ text.utf8ByteSize = t.span.length ∧
      ∃ line, tokenize text =
        .ok [{ t with span := ⟨0, text.utf8ByteSize⟩, line },
          .endOfFile text.utf8ByteSize line] := by
  rcases standsIn_of_tokenize h ht with ⟨before, c, cs, p, line, hsource, hp, htoken⟩ |
    ⟨position, line, rfl⟩
  · have halone := Piece.tokenize_text hp htoken
    obtain ⟨rfl, after, rfl, -⟩ := Piece.first?_spec hp
    have hspan := Piece.span_of_token? htoken
    have hsize : (String.ofList p.text).utf8ByteSize = byteSize p.text := by
      rw [← byteSize_toList, String.toList_ofList]
    refine ⟨String.ofList before, String.ofList p.text, String.ofList after, ?_, ?_, ?_,
      p.nextLine 1, ?_⟩
    · rw [← String.toList_inj]
      simp [hsource, Piece.text]
    · rw [← byteSize_toList, String.toList_ofList, hspan]
    · rw [hsize, hspan]
    · rw [hsize]
      exact halone
  · exact absurd rfl hkind

/-- A string that lacks its end is one also without the number and the word before it. -/
theorem tokenize_alone_open :
    ∃ tokens t, tokenize "1é'b\r" = .ok tokens ∧ t ∈ tokens ∧ t.kind = .string ∧
      ∃ before text after, "1é'b\r" = before ++ text ++ after ∧
        before.utf8ByteSize = t.span.start ∧ text.utf8ByteSize = t.span.length ∧
        ∃ line, tokenize text =
          .ok [{ t with span := ⟨0, text.utf8ByteSize⟩, line },
            .endOfFile text.utf8ByteSize line] := by
  let quoted : Token := { kind := .string, value := "b\r", span := ⟨3, 3⟩, line := 2 }
  have htokens : tokenize "1é'b\r" = .ok [
      { kind := .number, value := "1", span := ⟨0, 1⟩, line := 1 },
      { kind := .identifier, value := "é", span := ⟨1, 2⟩, line := 1 }, quoted,
      .endOfFile 6 2] := by decide +kernel
  have hmem : quoted ∈ [
      { kind := .number, value := "1", span := ⟨0, 1⟩, line := 1 },
      { kind := .identifier, value := "é", span := ⟨1, 2⟩, line := 1 }, quoted,
      .endOfFile 6 2] := by simp
  exact ⟨_, quoted, htokens, hmem, rfl, tokenize_alone htokens hmem (by decide)⟩

end Exclaim
