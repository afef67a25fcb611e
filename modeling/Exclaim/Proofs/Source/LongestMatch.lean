import Mathlib.Data.List.Nodup
import Exclaim.Proofs.Source.Steps

/-! Operators are read as far as they go. The arrow and the two steps, the operators, and the `=`
behind an operator are looked for in three places, and what is found is the longest of all these
spellings that the text starts with. -/
namespace Exclaim

namespace Operator

/-- A text with the kind and the operation of the token that it makes. -/
structure Spelling where
  text : List Char
  kind : TokenKind
  operation : Option TokenKind := none
deriving DecidableEq

/-- An operator. -/
def Spelling.plain (entry : String × TokenKind) : Spelling :=
  { text := entry.1.toList, kind := entry.2 }

/-- An operator with `=` behind it. -/
def Spelling.combined (entry : String × TokenKind) : Spelling :=
  { text := entry.1.toList ++ ['='], kind := .combinedAssignment, operation := entry.2 }

@[simp] lemma Spelling.text_plain (entry : String × TokenKind) :
    (plain entry).text = entry.1.toList := rfl

@[simp] lemma Spelling.text_combined (entry : String × TokenKind) :
    (combined entry).text = entry.1.toList ++ ['='] := rfl

/-- The arrow and the two steps. -/
def pairs : List Spelling := [
  { text := ['=', '>'], kind := .arrow },
  { text := ['+', '+'], kind := .plusPlus },
  { text := ['-', '-'], kind := .plusPlus }]

/-- The spellings of operators in one set. -/
def spellings : List Spelling :=
  table.map .plain ++ (table.filter (·.2.combines)).map .combined ++ pairs

/-- A text starts with a spelling, and all others that it starts with are shorter. -/
structure Longest (cs : List Char) (s : Spelling) : Prop where
  mem : s ∈ spellings
  starts : s.text <+: cs
  shorter : ∀ other ∈ spellings, other.text <+: cs → other ≠ s → other.text.length < s.text.length

section Spellings
variable {cs : List Char} {s other : Spelling} {entry : String × TokenKind}

lemma mem_spellings : s ∈ spellings ↔
    (∃ entry ∈ table, s = .plain entry) ∨
      (∃ entry ∈ table, entry.2.combines ∧ s = .combined entry) ∨ s ∈ pairs := by
  simp only [spellings, List.mem_append, List.mem_map, List.mem_filter, or_assoc, and_assoc,
    eq_comm]

/-- Tokens whose texts vary have other kinds than the spellings. -/
lemma notMem_kinds {kind : TokenKind}
    (h : kind ∈ [TokenKind.endOfFile, .number, .string, .identifier, .whiteSpace, .lineBreak]) :
    kind ∉ spellings.map (·.kind) := by
  revert kind
  decide

/-- The text of a spelling tells which one it is. -/
lemma eq_of_text_eq (h : s ∈ spellings) (h' : other ∈ spellings) (htext : other.text = s.text) :
    other = s := by
  have hnodup : (spellings.map (·.text)).Nodup := by decide
  exact List.inj_on_of_nodup_map hnodup h' h htext

lemma Longest.of_le (hmem : s ∈ spellings) (hstarts : s.text <+: cs)
    (hle : ∀ other ∈ spellings, other.text <+: cs → other.text.length ≤ s.text.length) :
    Longest cs s := by
  refine ⟨hmem, hstarts, fun other hother hprefix hne => ?_⟩
  have hlength := hle other hother hprefix
  apply lt_of_le_of_ne hlength
  intro heq
  have htext := List.prefix_of_prefix_length_le hprefix hstarts hlength
  exact hne (eq_of_text_eq hmem hother (htext.eq_of_length heq))

/-- Which operator a combined assignment applies can be read off its spelling. -/
lemma combined_iff (h : s ∈ spellings) (hentry : entry ∈ table) :
    s.kind = .combinedAssignment ∧ s.operation = some entry.2 ↔
      entry.2.combines ∧ s.text = entry.1.toList ++ ['='] := by
  constructor
  · rintro ⟨-, hoperation⟩
    rcases mem_spellings.1 h with ⟨found, -, rfl⟩ | ⟨found, hfound, hcombines, rfl⟩ | hpair
    · simp [Spelling.plain] at hoperation
    · have hkind : found.2 = entry.2 := Option.some.inj hoperation
      have hspelling := spelling_of_mem_table hfound
      rw [hkind, spelling_of_mem_table hentry] at hspelling
      rw [Spelling.text_combined, ← Option.some.inj hspelling, ← hkind]
      exact ⟨hcombines, rfl⟩
    · have hall : ∀ pair ∈ pairs, pair.operation = none := by decide
      simp [hall s hpair] at hoperation
  · rintro ⟨hcombines, htext⟩
    have hmem := mem_spellings.2 (.inr (.inl ⟨entry, hentry, hcombines, rfl⟩))
    obtain rfl := eq_of_text_eq hmem h htext
    exact ⟨rfl, rfl⟩

/-- The first operator found is the longest one. -/
lemma length_le_of_first? {found : String × TokenKind} (h : first? cs = some found)
    (hentry : entry ∈ table) (hstarts : entry.1.toList <+: cs) :
    entry.1.toList.length ≤ found.1.toList.length := by
  obtain ⟨-, before, after, htable, hbefore⟩ := List.find?_eq_some_iff_append.1 h
  have hsorted := table_longest_first
  rw [htable] at hentry hsorted
  rcases List.mem_append.1 hentry with hentry | hentry
  · have hnone := hbefore _ hentry
    simp [List.isPrefixOf_iff_prefix.2 hstarts] at hnone
  · rcases List.mem_cons.1 hentry with rfl | hentry
    · exact le_rfl
    · have hbehind := (List.pairwise_append.1 hsorted).2.1
      exact (List.pairwise_cons.1 hbehind).1 _ hentry

/-- No spelling goes on behind a pair. -/
lemma longest_of_mem_pairs (h : s ∈ pairs) (hstarts : s.text <+: cs) : Longest cs s := by
  have hends : ∀ pair ∈ pairs, ∀ other ∈ spellings, pair.text <+: other.text →
      other.text.length ≤ pair.text.length := by decide
  apply Longest.of_le (mem_spellings.2 (.inr (.inr h))) hstarts
  intro other hother hprefix
  rcases List.prefix_or_prefix_of_prefix hstarts hprefix with hle | hle
  · exact hends s h other hother hle
  · exact hle.length_le

section Found
variable {found : String × TokenKind} (h : first? cs = some found)
  (hpairs : ∀ pair ∈ pairs, ¬ pair.text <+: cs)
include h hpairs

/-- An operator that combines takes the `=` behind it along. -/
lemma longest_combined (hcombines : found.2.combines) (hnext : found.1.toList ++ ['='] <+: cs) :
    Longest cs (.combined found) := by
  have hmem : found ∈ table := List.mem_of_find?_eq_some h
  apply Longest.of_le (mem_spellings.2 (.inr (.inl ⟨found, hmem, hcombines, rfl⟩))) hnext
  intro other hother hprefix
  rw [Spelling.text_combined, List.length_append]
  rcases mem_spellings.1 hother with ⟨entry, hentry, rfl⟩ | ⟨entry, hentry, -, rfl⟩ | hpair
  · have hle := length_le_of_first? h hentry hprefix
    exact Nat.le_add_right_of_le hle
  · have hle := length_le_of_first? h hentry ((List.prefix_append _ _).trans hprefix)
    simpa using hle
  · exact absurd hprefix (hpairs other hpair)

/-- Any other operator is all that is read of it. -/
lemma longest_plain (hnext : found.2.combines → ¬ found.1.toList ++ ['='] <+: cs) :
    Longest cs (.plain found) := by
  have hmem : found ∈ table := List.mem_of_find?_eq_some h
  have hplain := mem_spellings.2 (.inl ⟨found, hmem, rfl⟩)
  have hfound : found.1.toList <+: cs := Piece.starts_of_find? h
  apply Longest.of_le hplain hfound
  intro other hother hprefix
  rcases mem_spellings.1 hother with ⟨entry, hentry, rfl⟩ | ⟨entry, hentry, hcombines, rfl⟩ | hpair
  · exact length_le_of_first? h hentry hprefix
  · have hstarts := (List.prefix_append entry.1.toList ['=']).trans hprefix
    have hle := length_le_of_first? h hentry hstarts
    have hne : entry.1.toList.length ≠ found.1.toList.length := by
      -- An operator of the same length would be the one found, and `=` does not follow that.
      intro hlength
      have htext := (List.prefix_of_prefix_length_le hstarts hfound hle).eq_of_length hlength
      have hsame := eq_of_text_eq hplain (mem_spellings.2 (.inl ⟨entry, hentry, rfl⟩)) htext
      have hkind : entry.2 = found.2 := (Spelling.mk.inj hsame).2.1
      rw [hkind] at hcombines
      rw [Spelling.text_combined, htext] at hprefix
      exact hnext hcombines hprefix
    rw [Spelling.text_combined, Spelling.text_plain, List.length_append, List.length_singleton]
    omega
  · exact absurd hprefix (hpairs other hpair)

end Found
end Spellings
end Operator

namespace Piece

open Operator

variable {c : Char} {cs : List Char} {p : Piece} {kind : TokenKind}
  {operation : Option TokenKind}

/-- A mark is a symbol or, where no symbol is found, an operator. -/
lemma mark_of_first? (h : first? c cs = some p) (hform : p.form = .lexeme kind operation)
    (hnumber : kind ≠ .number) (hword : kind ≠ .identifier) :
    (∃ spelling, symbol? (c :: cs) = some (spelling, kind) ∧ p.text = spelling.toList ∧
      operation = none) ∨
    symbol? (c :: cs) = none ∧ operator? (c :: cs) = some (p.text, .lexeme kind operation) := by
  unfold first? at h
  split at h
  · simp [← Option.some.inj h] at hform
  split at h
  · simp [← Option.some.inj h] at hform
  split at h
  · simp [← Option.some.inj h] at hform
  split at h
  · simp [← Option.some.inj h, hnumber.symm] at hform
  split at h
  · next spelling found hsymbol =>
    obtain rfl := Option.some.inj h
    obtain ⟨hne, ⟨rest, hrest⟩, -⟩ := symbol?_spec hsymbol
    obtain ⟨rfl, rfl⟩ := Form.lexeme.inj hform
    exact .inl ⟨spelling, hsymbol, head_cons_tail hrest hne, rfl⟩
  · next hnone =>
    have hsymbol : symbol? (c :: cs) = none :=
      Option.eq_none_iff_forall_ne_some.2 fun entry heq => hnone entry.1 entry.2 heq
    split at h
    · next text form hoperator =>
      obtain rfl := Option.some.inj h
      obtain ⟨hne, ⟨rest, hrest⟩, -⟩ := operator?_spec hoperator
      have htext : Piece.text ⟨c, text.tail, form⟩ = text := head_cons_tail hrest hne
      obtain rfl : form = .lexeme kind operation := hform
      rw [htext]
      exact .inr ⟨hsymbol, hoperator⟩
    split at h
    · simp [← Option.some.inj h] at hform
    split at h
    · simp [← Option.some.inj h] at hform
    split at h
    · simp [← Option.some.inj h, hword.symm] at hform
    split at h
    · simp [← Option.some.inj h] at hform
    · exact absurd h (by simp)

lemma form_of_kind? (h : p.kind? = some (kind, operation))
    (hkind : kind ∈ spellings.map (·.kind)) : p.form = .lexeme kind operation := by
  obtain ⟨head, tail, form⟩ := p
  cases form with
  | blank | lineComment | blockComment => exact absurd h nofun
  | lexeme =>
    obtain ⟨rfl, rfl⟩ := Prod.mk.inj (Option.some.inj h)
    rfl
  | quoted | spaces | lineBreak =>
    obtain ⟨rfl, -⟩ := Prod.mk.inj (Option.some.inj h)
    exact absurd hkind (notMem_kinds (by simp))

/-- A piece with the kind of a spelling is the longest one. -/
lemma longest_of_first? (h : first? c cs = some p) (hform : p.form = .lexeme kind operation)
    (hkind : kind ∈ spellings.map (·.kind)) :
    Longest (c :: cs) { text := p.text, kind, operation } := by
  have hnumber : kind ≠ .number := by
    rintro rfl
    exact notMem_kinds (by simp) hkind
  have hword : kind ≠ .identifier := by
    rintro rfl
    exact notMem_kinds (by simp) hkind
  rcases mark_of_first? h hform hnumber hword with ⟨spelling, hsymbol, htext, rfl⟩ |
    ⟨hnone, hoperator⟩
  · have hall : ∀ entry ∈ symbols, entry.2 ∈ spellings.map (·.kind) →
        { text := entry.1.toList, kind := entry.2 } ∈ pairs := by decide
    have hpair := hall _ (List.mem_of_find?_eq_some hsymbol) hkind
    rw [htext]
    exact longest_of_mem_pairs hpair (starts_of_find? hsymbol)
  · have hpairs : ∀ pair ∈ pairs, ¬ pair.text <+: c :: cs := by
      have hall : ∀ pair ∈ pairs, ∃ entry ∈ symbols, entry.1.toList = pair.text := by decide
      intro pair hpair hprefix
      obtain ⟨entry, hentry, htext⟩ := hall pair hpair
      have hno := List.find?_eq_none.1 hnone entry hentry
      rw [htext] at hno
      exact hno (List.isPrefixOf_iff_prefix.2 hprefix)
    obtain ⟨found, hfound, ⟨hcombines, hnext, htext, hmade⟩ | ⟨hnext, htext, hmade⟩⟩ :=
      operator?_eq_some hoperator
    · obtain ⟨rfl, rfl⟩ := Form.lexeme.inj hmade
      rw [htext]
      exact longest_combined hfound hpairs hcombines hnext
    · obtain ⟨rfl, rfl⟩ := Form.lexeme.inj hmade
      rw [htext]
      exact longest_plain hfound hpairs hnext

end Piece

/-- An operator, an arrow, a step or a combined assignment stands in the source on the longest
spelling that the source goes on with from there, and its kind and operation are those of that
spelling. So it is a combined assignment of an operator exactly where that operator, which
combines, has `=` behind it in that spelling. -/
theorem tokenize_longest {source : String} {tokens : List Token} (h : tokenize source = .ok tokens)
    {t : Token} (ht : t ∈ tokens) (hkind : t.kind ∈ Operator.spellings.map (·.kind)) :
    ∃ before text after, source.toList = before ++ (text ++ after) ∧
      byteSize before = t.span.start ∧ byteSize text = t.span.length ∧ t.value.toList = text ∧
      Operator.Longest (text ++ after) { text, kind := t.kind, operation := t.operation } ∧
      ∀ base kind, (base, kind) ∈ Operator.table →
        (t.kind = .combinedAssignment ∧ t.operation = some kind ↔
          kind.combines ∧ text = base.toList ++ ['=']) := by
  rcases standsIn_of_tokenize h ht with ⟨before, c, cs, p, line, hsource, hp, htoken⟩ |
    ⟨position, line, rfl⟩
  · obtain ⟨⟨kind, operation⟩, hfound, rfl⟩ := Option.map_eq_some_iff.1 htoken
    have hform := Piece.form_of_kind? hfound hkind
    have hlongest := Piece.longest_of_first? hp hform hkind
    obtain ⟨rfl, after, rfl, -⟩ := Piece.first?_spec hp
    have hvalue : p.value = String.ofList p.text := by simp [Piece.value, hform]
    refine ⟨before, p.text, after, hsource, rfl, rfl, ?_, hlongest, ?_⟩
    · rw [hvalue, String.toList_ofList]
    · intro base kind hentry
      exact Operator.combined_iff hlongest.mem hentry
  · exact absurd hkind (Operator.notMem_kinds (by simp [Token.endOfFile]))

/-- Shifting and assigning are one token, though `<`, `<<`, `<<<` and `<=` are operators too. -/
theorem tokenize_longest_shift :
    ∃ tokens t, tokenize "a<<<=b" = .ok tokens ∧ t ∈ tokens ∧
      t.kind ∈ Operator.spellings.map (·.kind) ∧
      ∃ before text after, "a<<<=b".toList = before ++ (text ++ after) ∧
        byteSize before = t.span.start ∧ byteSize text = t.span.length ∧ t.value.toList = text ∧
        Operator.Longest (text ++ after) { text, kind := t.kind, operation := t.operation } ∧
        ∀ base kind, (base, kind) ∈ Operator.table →
          (t.kind = .combinedAssignment ∧ t.operation = some kind ↔
            kind.combines ∧ text = base.toList ++ ['=']) := by
  let shift : Token :=
    { kind := .combinedAssignment, value := "<<<=", operation := some .bitShiftUnsignedLeft,
      span := ⟨1, 4⟩, line := 1 }
  have htokens : tokenize "a<<<=b" = .ok [
      { kind := .identifier, value := "a", span := ⟨0, 1⟩, line := 1 }, shift,
      { kind := .identifier, value := "b", span := ⟨5, 1⟩, line := 1 }, .endOfFile 6 1] := by
    decide +kernel
  have hmem : shift ∈ [
      { kind := .identifier, value := "a", span := ⟨0, 1⟩, line := 1 }, shift,
      { kind := .identifier, value := "b", span := ⟨5, 1⟩, line := 1 }, .endOfFile 6 1] := by
    simp
  have hkind : shift.kind ∈ Operator.spellings.map (·.kind) := by decide
  exact ⟨_, shift, htokens, hmem, hkind, tokenize_longest htokens hmem hkind⟩

end Exclaim
