import Exclaim.Proofs.Source.Pieces

/-! The tokens of a source cover it: between them stand only blanks and comments, and each token
says what its own stretch of the source is. -/
namespace Exclaim

/-- A text made of blanks and comments. -/
def Gap (cs : List Char) : Prop :=
  ∃ parts : List (List Char), cs = parts.flatten ∧ ∀ part ∈ parts, Skippable part

/-- A text made of blanks and comments, the last of which may lack its end. -/
def LastGap (cs : List Char) : Prop :=
  ∃ gap tail, cs = gap ++ tail ∧ Gap gap ∧ (tail = [] ∨ Unterminated tail)

/-- The value of a token is the one that a text asks for. -/
def Spells (t : Token) (text : List Char) : Prop :=
  match t.kind with
  | .string => ∃ quote, (quote = '\x27' ∨ quote = '\x22') ∧ quote ∉ t.value.toList ∧
      (text = quote :: (t.value.toList ++ [quote]) ∨ text = quote :: t.value.toList)
  | .whiteSpace => (∀ c ∈ text, c = ' ') ∧ t.value = toString (byteSize text)
  | .lineBreak => (text = ['\r'] ∨ text = ['\r', '\n']) ∧ t.value = "\n"
  | _ => t.value.toList = text

/-- The text between two bytes of a source, both of which lie between characters. -/
def Between (source : List Char) (start stop : Nat) (text : List Char) : Prop :=
  ∃ before after, source = before ++ text ++ after ∧ byteSize before = start ∧
    start + byteSize text = stop

/-- Tokens that stand one behind the other in a text that starts at byte `offset`, with gaps
between them and the end of the file behind them. -/
inductive Laid : (offset : Nat) → List Char → List Token → Prop
  | last {offset : Nat} {gap : List Char} {t : Token} (hgap : LastGap gap)
      (hkind : t.kind = .endOfFile) (hspan : t.span = ⟨offset + byteSize gap, 0⟩) :
      Laid offset gap [t]
  | cons {offset : Nat} {gap text rest : List Char} {t : Token} {ts : List Token} (hgap : Gap gap)
      (hkind : t.kind ≠ .endOfFile) (htext : text ≠ []) (hspells : Spells t text)
      (hspan : t.span = ⟨offset + byteSize gap, byteSize text⟩) (hrest : Laid t.span.stop rest ts) :
      Laid offset (gap ++ (text ++ rest)) (t :: ts)

section Gaps
variable {gap part : List Char}

lemma gap_nil : Gap [] := ⟨[], rfl, nofun⟩

lemma Gap.append (h : Gap gap) (hpart : Skippable part) : Gap (gap ++ part) := by
  obtain ⟨parts, rfl, hparts⟩ := h
  refine ⟨parts ++ [part], by simp, fun p hp => ?_⟩
  rcases List.mem_append.1 hp with hp | hp
  · exact hparts p hp
  · obtain rfl := List.mem_singleton.1 hp
    exact hpart

lemma Gap.lastGap (h : Gap gap) : LastGap gap := ⟨gap, [], by simp, h, .inl rfl⟩

end Gaps

namespace Piece

lemma byteSize_spaces {cs : List Char} (h : ∀ c ∈ cs, c = ' ') : byteSize cs = cs.length := by
  induction cs with
  | nil => rfl
  | cons c cs ih =>
    obtain ⟨rfl, hcs⟩ := List.forall_mem_cons.1 h
    simp only [byteSize, ih hcs, List.length_cons]
    rw [show ' '.utf8Size = 1 from rfl]
    omega

lemma spells_of_not_isSpecial {t : Token} {text : List Char} (h : ¬ IsSpecial t.kind)
    (hvalue : t.value.toList = text) : Spells t text := by
  unfold Spells
  split
  · next hk => exact absurd (by simp [hk]) h
  · next hk => exact absurd (by simp [hk]) h
  · next hk => exact absurd (by simp [hk]) h
  · exact hvalue

lemma toList_value_quoted {head : Char} {tail body : List Char} {closed : Bool}
    (h : tail = body ++ if closed then [head] else []) :
    (Piece.mk head tail (.quoted closed)).value.toList = body := by
  subst h
  cases closed <;> simp [value]

/-- The token that a piece is says what the piece is. -/
lemma spells_of_token? {p : Piece} {rest : List Char} {offset line : Nat} {t : Token}
    (hp : p.Proper rest) (ht : p.token? offset line = some t) :
    t.kind ≠ .endOfFile ∧ Spells t p.text ∧ t.span = ⟨offset, byteSize p.text⟩ := by
  obtain ⟨head, tail, form⟩ := p
  cases form with
  | blank | lineComment | blockComment => exact absurd ht nofun
  | lexeme kind operation =>
    obtain rfl := Option.some.inj ht
    refine ⟨?_, spells_of_not_isSpecial hp (String.toList_ofList), rfl⟩
    rintro rfl
    exact hp (by decide)
  | quoted closed =>
    obtain rfl := Option.some.inj ht
    obtain ⟨quote, body, hquote, hbody, htext⟩ := hp
    obtain ⟨hhead, htail⟩ : head = quote ∧ tail = body ++ _ := List.cons.inj htext
    subst hhead
    refine ⟨by simp, ⟨head, hquote, ?_, ?_⟩, rfl⟩
    · exact (toList_value_quoted htail).symm ▸ hbody
    · rw [toList_value_quoted htail, text, htail]
      cases closed with
      | true => exact .inl rfl
      | false => exact .inr (by simp)
  | spaces =>
    obtain rfl := Option.some.inj ht
    exact ⟨by simp, ⟨hp, by rw [byteSize_spaces hp]; rfl⟩, rfl⟩
  | lineBreak =>
    obtain rfl := Option.some.inj ht
    exact ⟨by simp, ⟨hp, rfl⟩, rfl⟩

lemma skipped_of_token? {p : Piece} {rest : List Char} {offset line : Nat} (hp : p.Proper rest)
    (ht : p.token? offset line = none) : Skippable p.text ∨ (Unterminated p.text ∧ rest = []) := by
  obtain ⟨head, tail, form⟩ := p
  cases form with
  | blank | lineComment | blockComment => exact hp
  | _ => exact absurd ht nofun

/-- What was skipped since the last token is a gap, which grows until the next token closes it. -/
lemma Cut.laid {cs : List Char} {ps : List Piece} (h : Cut cs ps) (offset line : Nat)
    (gap : List Char) (hgap : Gap gap) {last : Token} (hkind : last.kind = .endOfFile)
    (hspan : last.span = ⟨offset + byteSize gap + byteSize cs, 0⟩) :
    Laid offset (gap ++ cs) (tokens (offset + byteSize gap) line ps ++ [last]) := by
  induction h generalizing offset line gap with
  | nil => exact .last (by simpa using hgap.lastGap) hkind (by simpa [byteSize] using hspan)
  | @cons p rest ps hp hrest ih =>
    rw [byteSize_append] at hspan
    simp only [tokens]
    cases ht : p.token? (offset + byteSize gap) line with
    | none =>
      rcases skipped_of_token? hp ht with hskip | ⟨hopen, rfl⟩
      · have hlaid := ih offset (p.nextLine line) (gap ++ p.text) (hgap.append hskip)
          (by rw [hspan, byteSize_append, Nat.add_assoc, Nat.add_assoc, Nat.add_assoc])
        simpa [Nat.add_assoc] using hlaid
      · cases hrest
        refine .last ⟨gap, p.text, by simp, hgap, .inr hopen⟩ hkind ?_
        simpa [byteSize, Nat.add_assoc] using hspan
    | some t =>
      obtain ⟨hne, hspells, htspan⟩ := spells_of_token? hp ht
      have hstop : t.span.stop = offset + byteSize gap + byteSize p.text := by rw [htspan]; rfl
      have hlaid := ih t.span.stop (p.nextLine line) [] gap_nil
        (by rw [hspan, hstop]; simp [byteSize, Nat.add_assoc])
      refine .cons hgap hne (by simp [text]) hspells htspan ?_
      simpa [hstop, byteSize] using hlaid

end Piece

/-- Where the last of some tokens ends; `offset` when there is none. -/
def reached (offset : Nat) (ts : List Token) : Nat := (ts.getLast?.map (·.span.stop)).getD offset

lemma reached_cons (offset : Nat) (t : Token) (ts : List Token) :
    reached offset (t :: ts) = reached t.span.stop ts := by
  rw [reached, List.getLast?_cons]
  cases h : ts.getLast? <;> simp [reached, h]

namespace Laid
variable {offset : Nat} {cs : List Char} {ts : List Token}

lemma offset_le (h : Laid offset cs ts) : ∀ t ∈ ts, offset ≤ t.span.start := by
  induction h with
  | last hgap hkind hspan => simp [hspan]
  | @cons offset gap text rest t ts hgap hkind htext hspells hspan hrest ih =>
    have hstart : offset ≤ t.span.start := by simp [hspan]
    refine List.forall_mem_cons.2 ⟨hstart, fun u hu => ?_⟩
    exact Nat.le_trans (Nat.le_trans hstart (Nat.le_add_right _ _)) (ih u hu)

lemma ordered (h : Laid offset cs ts) : ts.Pairwise fun t u => t.span.stop ≤ u.span.start := by
  induction h with
  | last hgap hkind hspan => exact List.pairwise_singleton _ _
  | cons hgap hkind htext hspells hspan hrest ih => exact List.pairwise_cons.2 ⟨hrest.offset_le, ih⟩

lemma ne_nil (h : Laid offset cs ts) : ts ≠ [] := by
  cases h <;> exact nofun

lemma byteSize_through {before gap text : List Char} {t : Token} (hb : byteSize before = offset)
    (hspan : t.span = ⟨offset + byteSize gap, byteSize text⟩) :
    byteSize (before ++ gap ++ text) = t.span.stop := by
  rw [hspan, byteSize_append, byteSize_append, hb]
  rfl

/-- All tokens but the last one have a text of their own. -/
lemma stretches (h : Laid offset cs ts) (before : List Char) (hb : byteSize before = offset) :
    ∃ found last, ts = found ++ [last] ∧ last.kind = .endOfFile ∧
      last.span = ⟨byteSize (before ++ cs), 0⟩ ∧
      ∀ t ∈ found, t.kind ≠ .endOfFile ∧ 0 < t.span.length ∧
        ∃ text, Between (before ++ cs) t.span.start t.span.stop text ∧ Spells t text := by
  induction h generalizing before with
  | @last offset gap t hgap hkind hspan =>
    exact ⟨[], t, rfl, hkind, by rw [hspan, byteSize_append, hb], by simp⟩
  | @cons offset gap text rest t ts hgap hkind htext hspells hspan hrest ih =>
    obtain ⟨found, last, rfl, hlast, hend, hfound⟩ := ih _ (byteSize_through hb hspan)
    simp only [List.append_assoc] at hend hfound
    refine ⟨t :: found, last, rfl, hlast, hend, List.forall_mem_cons.2 ⟨?_, hfound⟩⟩
    refine ⟨hkind, ?_, text, ?_, hspells⟩
    · rw [hspan]
      exact byteSize_pos htext
    · exact ⟨before ++ gap, rest, by simp, by simp [hspan, hb], by simp [hspan, Span.stop]⟩

/-- Before every token stands a gap that reaches back to the token before it. -/
lemma gaps (h : Laid offset cs ts) (before : List Char) (hb : byteSize before = offset)
    {us : List Token} {t : Token} {vs : List Token} (hts : ts = us ++ t :: vs) :
    ∃ gap, Between (before ++ cs) (reached offset us) t.span.start gap ∧
      if vs = [] then LastGap gap else Gap gap := by
  induction h generalizing before us with
  | @last offset gap u hgap hkind hspan =>
    obtain ⟨rfl, rfl, rfl⟩ : us = [] ∧ u = t ∧ vs = [] := by
      cases us with
      | nil => simpa [eq_comm] using hts
      | cons v us => simp at hts
    exact ⟨gap, ⟨before, [], by simp, hb, by simp [hspan, reached]⟩, by simpa using hgap⟩
  | @cons offset gap text rest u ts hgap hkind htext hspells hspan hrest ih =>
    cases us with
    | nil =>
      obtain ⟨rfl, rfl⟩ := List.cons.inj hts
      refine ⟨gap, ⟨before, text ++ rest, by simp, hb, by simp [hspan, reached]⟩, ?_⟩
      rw [if_neg hrest.ne_nil]
      exact hgap
    | cons v us =>
      obtain ⟨rfl, htail⟩ := List.cons.inj hts
      have hgaps := ih _ (byteSize_through hb hspan) htail
      rw [reached_cons]
      simpa using hgaps

end Laid

lemma laid_of_tokenize {source : String} {tokens : List Token} (h : tokenize source = .ok tokens) :
    Laid 0 source.toList tokens := by
  unfold tokenize Scanner.tokenize Scanner.ofString at h
  cases hrest : (Piece.split source.toList).2 with
  | cons c cs => simp [hrest] at h
  | nil =>
    have hcut := Piece.cut_split _ hrest
    simp only [hrest, Scanner.take, hcut.joined_eq, List.nil_append] at h
    obtain rfl := Except.ok.inj h
    refine hcut.laid 0 1 [] gap_nil rfl ?_
    simp [byteSize, Token.endOfFile, Span.empty]

/-- No text of a source is lost. Only the last token is empty, and it stands at the end. The others
follow one another in the source, each on a text that its value tells, and what stands before each
of them, back to the one before it, is a gap. -/
theorem tokenize_covers {source : String} {tokens : List Token} (h : tokenize source = .ok tokens) :
    (∃ found last, tokens = found ++ [last] ∧ last.kind = .endOfFile ∧
      last.span = ⟨source.utf8ByteSize, 0⟩ ∧
      ∀ t ∈ found, t.kind ≠ .endOfFile ∧ 0 < t.span.length ∧
        ∃ text, Between source.toList t.span.start t.span.stop text ∧ Spells t text) ∧
    (tokens.Pairwise fun t u => t.span.stop ≤ u.span.start) ∧
    ∀ before t after, tokens = before ++ t :: after →
      ∃ gap, Between source.toList (reached 0 before) t.span.start gap ∧
        if after = [] then LastGap gap else Gap gap := by
  have hlaid := laid_of_tokenize h
  refine ⟨?_, hlaid.ordered, fun before t after hts => ?_⟩
  · have hstretches := hlaid.stretches [] rfl
    simpa using hstretches
  · have hgaps := hlaid.gaps [] rfl hts
    simpa using hgaps

/-- A tab, a comment with its line ending and a comment without its end stand between and behind
the tokens. -/
theorem tokenize_covers_open_comment :
    ∃ tokens, tokenize "x=\t'¡' // b\r\n/*c" = .ok tokens ∧
      (tokens.Pairwise fun t u => t.span.stop ≤ u.span.start) ∧
      ∀ before t after, tokens = before ++ t :: after →
        ∃ gap, Between "x=\t'¡' // b\r\n/*c".toList (reached 0 before) t.span.start gap ∧
          if after = [] then LastGap gap else Gap gap := by
  have hread : (tokenize "x=\t'¡' // b\r\n/*c").toOption.isSome := by decide +kernel
  cases h : tokenize "x=\t'¡' // b\r\n/*c" with
  | error e => simp [h, Except.toOption] at hread
  | ok tokens =>
    obtain ⟨-, hordered, hgaps⟩ := tokenize_covers h
    exact ⟨tokens, rfl, hordered, hgaps⟩

end Exclaim
