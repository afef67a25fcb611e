import Exclaim.Proofs.Source.LineCount

/-! The line on which the text of a token starts. A token is on the line on which its text ends, so
the two lines differ by the line endings inside of the text. Only line breaks and strings have
any. -/
namespace Exclaim

/-- How many lines the text of a token ends. -/
def Token.lineEndings (t : Token) : Nat :=
  match t.kind with
  | .lineBreak => 1
  | .string => Exclaim.lineEndings t.value.toList
  | _ => 0

lemma Token.lineEndings_of_kind {t : Token} (hbreak : t.kind ≠ .lineBreak)
    (hstring : t.kind ≠ .string) : t.lineEndings = 0 := by
  unfold Token.lineEndings
  split
  · next h => exact absurd h hbreak
  · next h => exact absurd h hstring
  · rfl

namespace Piece

lemma ne_of_not_isSpecial {kind : TokenKind} (h : ¬ IsSpecial kind) :
    kind ≠ .lineBreak ∧ kind ≠ .string := by
  refine ⟨?_, ?_⟩
  · rintro rfl
    exact h (by decide)
  · rintro rfl
    exact h (by decide)

/-- The lines that a piece ends can be read off its token. -/
lemma linesEnded_of_token? {p : Piece} {rest : List Char} {offset line : Nat} {t : Token}
    (hp : p.Proper rest) (ht : p.token? offset line = some t) :
    p.linesEnded = t.lineEndings := by
  obtain ⟨head, tail, form⟩ := p
  cases form with
  | blank | lineComment | blockComment => exact absurd ht nofun
  | lexeme kind operation =>
    obtain rfl := Option.some.inj ht
    obtain ⟨hbreak, hstring⟩ := ne_of_not_isSpecial hp
    exact (Token.lineEndings_of_kind hbreak hstring).symm
  | quoted closed =>
    obtain rfl := Option.some.inj ht
    rfl
  | spaces =>
    obtain rfl := Option.some.inj ht
    rfl
  | lineBreak =>
    obtain rfl := Option.some.inj ht
    rfl

end Piece

namespace Scanner

variable {source : List Char} {s s' : Scanner}

/-- Every token found so far lies as many lines behind its start as it ends. -/
def Spans (source : List Char) (s : Scanner) : Prop :=
  ∀ t ∈ s.held, t.line = ((LineMap.ofText source).location t.span.start).line + t.lineEndings

lemma Spans.step (h : Spans source s) (hagrees : Agrees source s) (hstep : s.step? = some s') :
    Spans source s' := by
  obtain ⟨c, cs, p, -, hp, -, -, htake⟩ := step?_eq_some hstep
  intro t ht
  rw [htake] at ht
  simp only [take, Piece.tokens, List.append_nil, List.mem_append, Option.mem_toList] at ht
  rcases ht with ht | ht
  · exact h t ht
  · obtain ⟨-, rest, -, hproper⟩ := Piece.first?_spec hp
    have hended := Piece.linesEnded_of_token? hproper ht
    obtain ⟨⟨kind, operation⟩, -, rfl⟩ := Option.map_eq_some_iff.1 ht
    rw [← hended]
    change s.line + _ = ((LineMap.ofText source).location s.offset).line + _
    rw [hagrees.line_eq]

lemma Spans.steps (h : Spans source s) (hagrees : Agrees source s) (hsteps : Steps s s') :
    Spans source s' := by
  induction hsteps with
  | refl => exact h
  | tail hbefore hstep ih => exact ih.step (hagrees.steps hbefore) hstep

end Scanner

lemma Token.lineEndings_eq_zero_iff (t : Token) :
    t.lineEndings = 0 ↔ t.kind ≠ .lineBreak ∧ (t.kind = .string → OnOneLine t.value.toList) := by
  rw [← Exclaim.lineEndings_eq_zero_iff]
  unfold Token.lineEndings
  cases t.kind <;> simp

/-- A token is as many lines behind the start of its text as the text ends. So it is on the line on
which it starts unless it is a line break or a string over several lines. -/
theorem token_line_of_start {source : String} {tokens : List Token}
    (h : tokenize source = .ok tokens) {t : Token} (ht : t ∈ tokens) :
    t.line = ((LineMap.ofString source).location t.span.start).line + t.lineEndings ∧
    (t.line = ((LineMap.ofString source).location t.span.start).line ↔
      t.kind ≠ .lineBreak ∧ (t.kind = .string → OnOneLine t.value.toList)) := by
  obtain ⟨last, hsteps, -, -, rfl⟩ := Scanner.steps_of_tokenize_ok (Prod.ext h rfl)
  have hagrees := Scanner.agrees_ofString source
  have hlines : t.line =
      ((LineMap.ofString source).location t.span.start).line + t.lineEndings := by
    rcases List.mem_append.1 ht with ht | ht
    · have hstart : Scanner.Spans source.toList (.ofString source) := by
        intro t ht
        simp [Scanner.ofString] at ht
      exact hstart.steps hagrees hsteps t ht
    · obtain rfl := List.mem_singleton.1 ht
      exact (hagrees.steps hsteps).line_eq
  refine ⟨hlines, ?_⟩
  rw [← t.lineEndings_eq_zero_iff]
  omega

/-- A string that starts on the first line and ends on the second one. -/
theorem token_line_of_start_string :
    ∃ tokens t, tokenize "'a\nb'!" = .ok tokens ∧ t ∈ tokens ∧ t.kind = .string ∧
      t.line = ((LineMap.ofString "'a\nb'!").location t.span.start).line + t.lineEndings ∧
      (t.line = ((LineMap.ofString "'a\nb'!").location t.span.start).line ↔
        t.kind ≠ .lineBreak ∧ (t.kind = .string → OnOneLine t.value.toList)) := by
  have htokens : tokenize "'a\nb'!" = .ok [
      { kind := .string, value := "a\nb", span := ⟨0, 5⟩, line := 2 },
      { kind := .exclamation, value := "!", span := ⟨5, 1⟩, line := 2 },
      .endOfFile 6 2] := by decide +kernel
  exact ⟨_, _, htokens, List.mem_cons_self, rfl, token_line_of_start htokens List.mem_cons_self⟩

/-- Not every token is on the line on which it starts. -/
theorem token_line_ne_start :
    ¬ ∀ source tokens, tokenize source = .ok tokens → ∀ t ∈ tokens,
      t.line = ((LineMap.ofString source).location t.span.start).line := by
  intro hall
  have htokens : tokenize "'a\nb'" = .ok [
      { kind := .string, value := "a\nb", span := ⟨0, 5⟩, line := 2 }, .endOfFile 5 2] := by
    decide +kernel
  have hline := hall _ _ htokens _ List.mem_cons_self
  exact absurd hline (by decide +kernel)

end Exclaim
