import Exclaim.Proofs.Number.DigitRun
import Exclaim.Proofs.Source.Steps

/-! How the tokens of a source are spelled. -/
namespace Exclaim

/-- Numbers are runs of digits, marks are spelled as their kind is, except that decrement has the
kind of increment, and only a combined assignment has an operation, which is one that combines. -/
structure Token.Genuine (t : Token) : Prop where
  number : t.kind = .number → IsDigitRun t.value
  mark : ∀ text ∈ t.kind.spelling?, t.value = text ∨ t.kind = .plusPlus ∧ t.value = "--"
  operation : ∀ kind ∈ t.operation, t.kind = .combinedAssignment ∧ kind.combines

lemma Token.genuine_endOfFile (position line : Nat) : (endOfFile position line).Genuine where
  number := by simp [endOfFile]
  mark := by simp [endOfFile, TokenKind.spelling?]
  operation := by simp [endOfFile]

namespace Token.Genuine

variable {t : Token}

lemma value_eq (h : t.Genuine) {text : String} (hs : t.kind.spelling? = some text)
    (hk : t.kind ≠ .plusPlus) : t.value = text :=
  (h.mark text hs).resolve_right fun hp => hk hp.1

lemma unary_spelling (h : t.Genuine)
    (hk : t.kind ∈ [TokenKind.subtract, .logicalNot, .bitwiseNot]) :
    (t.kind, t.value) ∈ [(TokenKind.subtract, "-"), (.logicalNot, ";"), (.bitwiseNot, "~")] := by
  simp only [List.mem_cons, List.not_mem_nil, or_false] at hk
  rcases hk with hk | hk | hk
  · have hv : t.value = "-" := h.value_eq (by rw [hk]; rfl) (by simp [hk])
    simp [hk, hv]
  · have hv : t.value = ";" := h.value_eq (by rw [hk]; rfl) (by simp [hk])
    simp [hk, hv]
  · have hv : t.value = "~" := h.value_eq (by rw [hk]; rfl) (by simp [hk])
    simp [hk, hv]

lemma state_spelling (h : t.Genuine) (hk : t.kind ∈ [TokenKind.plusPlus, .minusMinus]) :
    t.value ∈ ["++", "--"] := by
  simp only [List.mem_cons, List.not_mem_nil, or_false] at hk
  rcases hk with hk | hk
  · rcases h.mark "++" (by rw [hk]; rfl) with hv | ⟨-, hv⟩ <;> simp [hv]
  · rcases h.mark "--" (by rw [hk]; rfl) with hv | ⟨-, hv⟩ <;> simp [hv]

end Token.Genuine

namespace Piece

variable {c : Char} {cs : List Char} {p : Piece}

lemma mark_of_symbol? {spelling : String} {kind : TokenKind}
    (h : symbol? cs = some (spelling, kind)) :
    kind ≠ .number ∧
      ∀ text ∈ kind.spelling?, spelling = text ∨ kind = .plusPlus ∧ spelling = "--" := by
  have hall : ∀ entry ∈ symbols, entry.2 ≠ .number ∧ ∀ text ∈ entry.2.spelling?,
      entry.1 = text ∨ entry.2 = .plusPlus ∧ entry.1 = "--" := by decide
  exact hall _ (List.mem_of_find?_eq_some h)

/-- An operator is spelled as its kind is, or it is a combined assignment. -/
lemma form_of_operator? {text : List Char} {form : Form} (h : operator? cs = some (text, form)) :
    (∃ kind, form = .lexeme kind none ∧ kind ≠ .number ∧
      kind.spelling? = some (String.ofList text)) ∨
    ∃ kind : TokenKind, form = .lexeme .combinedAssignment (some kind) ∧ kind.combines := by
  have hall : ∀ entry ∈ Operator.table, entry.2 ≠ .number := by decide
  obtain ⟨found, hfound, ⟨hcombines, -, -, hmade⟩ | ⟨-, rfl, hmade⟩⟩ := operator?_eq_some h
  · exact .inr ⟨found.2, hmade, hcombines⟩
  · have hmem : found ∈ Operator.table := List.mem_of_find?_eq_some hfound
    refine .inl ⟨found.2, hmade, hall _ hmem, ?_⟩
    rw [String.ofList_toList]
    exact Operator.spelling_of_mem_table hmem

lemma isDigitRun_takeWhile (hc : c.isDigit) (cs : List Char) :
    IsDigitRun (String.ofList (c :: cs.takeWhile Char.isDigit)) := by
  unfold IsDigitRun
  rw [String.toList_ofList]
  refine ⟨by simp, fun d hd => ?_⟩
  rcases List.mem_cons.1 hd with rfl | hd
  · exact hc
  · exact List.mem_takeWhile_imp hd

/-- Every piece that is a token is a genuine one. -/
lemma genuine_of_token? (h : first? c cs = some p) {offset line : Nat} {t : Token}
    (ht : p.token? offset line = some t) : t.Genuine := by
  obtain ⟨⟨kind, operation⟩, hkind, rfl⟩ := Option.map_eq_some_iff.1 ht
  cases found_of_first? h with
  | lineComment hc hcs => simp [kind?] at hkind
  | blockComment hc hcs => simp [kind?] at hkind
  | quoted hc =>
    obtain ⟨rfl, rfl⟩ := Prod.mk.inj (Option.some.inj hkind)
    exact ⟨by simp, by simp [TokenKind.spelling?], by simp⟩
  | number hc =>
    obtain ⟨rfl, rfl⟩ := Prod.mk.inj (Option.some.inj hkind)
    exact ⟨fun _ => isDigitRun_takeWhile hc cs, by simp [TokenKind.spelling?], by simp⟩
  | symbol hfound =>
    obtain ⟨rfl, rfl⟩ := Prod.mk.inj (Option.some.inj hkind)
    obtain ⟨hne, ⟨rest, hrest⟩, -⟩ := symbol?_spec hfound
    obtain ⟨hnumber, hmark⟩ := mark_of_symbol? hfound
    refine ⟨fun hk => absurd hk hnumber, ?_, by simp⟩
    change ∀ text ∈ _, String.ofList _ = text ∨ _ ∧ String.ofList _ = "--"
    rw [text, head_cons_tail hrest hne, String.ofList_toList]
    exact hmark
  | operator hfound =>
    obtain ⟨hne, ⟨rest, hrest⟩, -⟩ := operator?_spec hfound
    obtain ⟨found, rfl, hnumber, hmark⟩ | ⟨found, rfl, hcombines⟩ := form_of_operator? hfound
    · obtain ⟨rfl, rfl⟩ := Prod.mk.inj (Option.some.inj hkind)
      rw [← head_cons_tail hrest hne] at hmark
      refine ⟨fun hk => absurd hk hnumber, fun text htext => .inl ?_, by simp⟩
      exact Option.some.inj (hmark.symm.trans htext)
    · obtain ⟨rfl, rfl⟩ := Prod.mk.inj (Option.some.inj hkind)
      refine ⟨by simp, by simp [TokenKind.spelling?], fun kind hk => ⟨rfl, ?_⟩⟩
      exact Option.some.inj hk ▸ hcombines
  | spaces hc =>
    obtain ⟨rfl, rfl⟩ := Prod.mk.inj (Option.some.inj hkind)
    exact ⟨by simp, by simp [TokenKind.spelling?], by simp⟩
  | lineBreak hc =>
    obtain ⟨rfl, rfl⟩ := Prod.mk.inj (Option.some.inj hkind)
    exact ⟨by simp, by simp [TokenKind.spelling?], by simp⟩
  | word hc =>
    obtain ⟨rfl, rfl⟩ := Prod.mk.inj (Option.some.inj hkind)
    exact ⟨by simp, by simp [TokenKind.spelling?], by simp⟩
  | blank hc => simp [kind?] at hkind

end Piece

/-- All tokens of a source are genuine. -/
lemma genuine_of_tokenize {source : String} {tokens : List Token}
    (h : tokenize source = .ok tokens) : ∀ t ∈ tokens, t.Genuine := by
  intro t ht
  rcases standsIn_of_tokenize h ht with ⟨before, c, cs, p, line, -, hp, hmade⟩ |
    ⟨position, line, rfl⟩
  · exact Piece.genuine_of_token? hp hmade
  · exact Token.genuine_endOfFile position line

end Exclaim
