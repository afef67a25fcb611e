import Mathlib.Data.List.DropRight
import Exclaim.Proofs.Number.NumeralGrammar
import Exclaim.Proofs.Value.NumberText

/-! Which texts count as numbers. Blanks at the ends do not matter; what is between them has to be
nothing at all, one of three words, or a numeral. The test on characters keeps out the other words
that the reader of numbers knows, and keeps out no numeral. -/
namespace Exclaim

namespace Numeral
variable {cs : List Char}

lemma isNaN_toFloat (n : Numeral) : n.toFloat.isNaN = false := by
  unfold toFloat nearest
  simp only
  split_ifs
  all_goals exact Binary.isNaN_ofMagnitude _ _

lemma mem_of_mem_splitSign {c : Char} (h : c ∈ (splitSign cs).2) : c ∈ cs := by
  unfold splitSign at h
  split at h
  · exact List.mem_cons_of_mem _ h
  · exact List.mem_cons_of_mem _ h
  · exact h

end Numeral

namespace Value

section Trim

/-- `core` is what is left of a text without the blanks at its two ends. -/
structure Trims (text core : List Char) : Prop where
  parts : ∃ before after, text = before ++ core ++ after ∧ (∀ c ∈ before, isBlank c) ∧
    ∀ c ∈ after, isBlank c
  head : ∀ c ∈ core.head?, isBlank c = false
  last : ∀ c ∈ core.getLast?, isBlank c = false

lemma trims_trimBlank (text : List Char) : Trims text (trimBlank text) := by
  have hcore : trimBlank text = (text.dropWhile isBlank).rdropWhile isBlank := rfl
  have hparts : text = text.takeWhile isBlank ++ trimBlank text ++
      (text.dropWhile isBlank).rtakeWhile isBlank := by
    rw [hcore, List.append_assoc, List.rdropWhile_append_rtakeWhile,
      List.takeWhile_append_dropWhile]
  refine ⟨⟨_, _, hparts, fun c hc => List.mem_takeWhile_imp hc,
    fun c hc => List.mem_rtakeWhile_imp hc⟩, fun c hc => ?_, fun c hc => ?_⟩
  · obtain ⟨rest, hrest⟩ := List.rdropWhile_prefix isBlank (text.dropWhile isBlank)
    have hhead := List.head?_dropWhile_not isBlank text
    rw [← hrest, ← hcore] at hhead
    generalize trimBlank text = core at hc hhead
    cases core with
    | nil => simp at hc
    | cons d core =>
      obtain rfl : d = c := by simpa using hc
      simpa using hhead
  · obtain ⟨hne, rfl⟩ := List.mem_getLast?_eq_getLast hc
    exact Bool.eq_false_iff.2 (List.rdropWhile_last_not isBlank (text.dropWhile isBlank) hne)

end Trim

section Filter
variable {c : Char} {cs : List Char}

lemma toLower_ne_of_isNumeralChar (h : isNumeralChar c) : c.toLower ≠ 'n' := by
  simp only [isNumeralChar, Bool.or_eq_true, decide_eq_true_eq, List.mem_cons, List.not_mem_nil,
    or_false] at h
  rcases h with hdigit | rfl | rfl | rfl | rfl | rfl
  · rw [toLower_of_isDigit hdigit]
    rintro rfl
    exact absurd hdigit (by decide)
  all_goals decide

/-- The reader of numbers knows no word of these characters. -/
lemma readNumber?_of_all {s : String} (h : s.toList.all isNumeralChar) :
    readNumber? s = (Numeral.read? s.toList).map Numeral.toFloat := by
  have hletter : 'n' ∉ (Numeral.splitSign s.toList).2.map Char.toLower := by
    intro hmem
    obtain ⟨c, hc, hlower⟩ := List.mem_map.1 hmem
    have hnumeral := List.all_eq_true.1 h c (Numeral.mem_of_mem_splitSign hc)
    exact toLower_ne_of_isNumeralChar hnumeral hlower
  have hword : ∀ word : List Char, 'n' ∈ word →
      (Numeral.splitSign s.toList).2.map Char.toLower ≠ word := by
    rintro word hn rfl
    exact hletter hn
  unfold readNumber?
  simp only
  rw [if_neg (not_or.2 ⟨hword _ (by decide), hword _ (by decide)⟩), if_neg (hword _ (by decide))]

/-- The grammar of numerals has no other characters. -/
lemma all_isNumeralChar_of_mem_grammar (h : cs ∈ Numeral.grammar.matches') :
    cs.all isNumeralChar := by
  have hletters : (Numeral.letters Numeral.grammar).all isNumeralChar := by decide
  exact List.all_eq_true.2 fun c hc =>
    List.all_eq_true.1 hletters c (Numeral.mem_letters h c hc)

end Filter

/-- Infinity and how it is spelled with a sign. -/
def infinityWords : List (List Char) :=
  ["Infinity".toList, "+Infinity".toList, "-Infinity".toList]

lemma mem_infinityWords {cs : List Char} : cs ∈ infinityWords ↔
    (cs = "Infinity".toList ∨ cs = "+Infinity".toList) ∨ cs = "-Infinity".toList := by
  simp [infinityWords, or_assoc]

/-- The texts that count as numbers once they have no blanks at their ends. -/
def SpellsNumber (cs : List Char) : Prop :=
  cs = [] ∨ cs ∈ infinityWords ∨ cs ∈ Numeral.grammar.matches'

lemma spellsNumber_iff_mem_grammar {cs : List Char} (hempty : cs ≠ [])
    (hwords : cs ∉ infinityWords) : SpellsNumber cs ↔ cs ∈ Numeral.grammar.matches' := by
  simp only [SpellsNumber, hempty, hwords, false_or]

lemma isNaN_textToNumber_eq_false_iff (s : String) :
    (textToNumber s).isNaN = false ↔ SpellsNumber (trimBlank s.toList) := by
  have hnan : Binary.nan.isNaN ≠ false := by decide
  unfold textToNumber
  simp only
  generalize trimBlank s.toList = cs
  split_ifs with hempty hplus hminus hall
  · exact iff_of_true (Binary.isNaN_ofMagnitude _ _) (.inl hempty)
  · exact iff_of_true (Binary.isNaN_ofMagnitude _ _)
      (.inr (.inl (mem_infinityWords.2 (.inl hplus))))
  · exact iff_of_true (Binary.isNaN_ofMagnitude _ _)
      (.inr (.inl (mem_infinityWords.2 (.inr hminus))))
  all_goals
    rw [spellsNumber_iff_mem_grammar hempty fun h => (mem_infinityWords.1 h).elim hplus hminus]
  · rw [readNumber?_of_all (by rwa [String.toList_ofList]), String.toList_ofList,
      ← Numeral.isSome_read?_iff]
    cases Numeral.read? cs with
    | some n => exact iff_of_true (Numeral.isNaN_toFloat n) rfl
    | none => exact iff_of_false hnan Bool.false_ne_true
  · exact iff_of_false hnan fun h => hall (all_isNumeralChar_of_mem_grammar h)

/-- One character that no numeral has keeps a text from being a number. -/
lemma isNaN_textToNumber_of_mem {s : String} {c : Char} (hc : c ∈ trimBlank s.toList)
    (hnumeral : ¬ isNumeralChar c) (hwords : trimBlank s.toList ∉ infinityWords) :
    (textToNumber s).isNaN := by
  rw [← Bool.not_eq_false]
  intro hnumber
  rcases (isNaN_textToNumber_eq_false_iff s).1 hnumber with h | h | h
  · exact List.not_mem_nil (h ▸ hc)
  · exact hwords h
  · exact hnumeral (List.all_eq_true.1 (all_isNumeralChar_of_mem_grammar h) c hc)

/-- A text counts as a number exactly if what is between the blanks at its ends is nothing, infinity
with any sign or none, or a numeral. So no other way to write `inf`, `infinity` or `nan` does, and
no text with blanks or underscores among its characters, or in hexadecimal form. -/
theorem text_number_grammar (s : String) :
    Trims s.toList (trimBlank s.toList) ∧
      ((text s).toNumber.isNaN = false ↔ SpellsNumber (trimBlank s.toList)) ∧
      ((Numeral.splitSign (trimBlank s.toList)).2.map Char.toLower ∈
          ["inf".toList, "infinity".toList, "nan".toList] →
        trimBlank s.toList ∉ infinityWords → (text s).toNumber.isNaN) ∧
      ∀ c ∈ trimBlank s.toList, isBlank c ∨ c = '_' ∨ c = 'x' ∨ c = 'X' →
        (text s).toNumber.isNaN := by
  refine ⟨trims_trimBlank _, isNaN_textToNumber_eq_false_iff s, fun hword hwords => ?_,
    fun c hc hkind => ?_⟩
  · have hletter : 'n' ∈ (Numeral.splitSign (trimBlank s.toList)).2.map Char.toLower :=
      (by decide : ∀ word ∈ ["inf".toList, "infinity".toList, "nan".toList], 'n' ∈ word) _ hword
    obtain ⟨c, hc, hlower⟩ := List.mem_map.1 hletter
    refine isNaN_textToNumber_of_mem (Numeral.mem_of_mem_splitSign hc) ?_ hwords
    exact fun hnumeral => toLower_ne_of_isNumeralChar hnumeral hlower
  · refine isNaN_textToNumber_of_mem hc ?_ ?_
    · rcases hkind with hblank | rfl | rfl | rfl
      · exact fun hnumeral => by simp [isBlank_of_isNumeralChar hnumeral] at hblank
      all_goals decide
    · intro hword
      have hwords : infinityWords.all (·.all fun d =>
          !(isBlank d || d == '_' || d == 'x' || d == 'X')) := by decide
      have hclear := List.all_eq_true.1 (List.all_eq_true.1 hwords _ hword) c hc
      simp only [Bool.not_eq_true', Bool.or_eq_false_iff, beq_eq_false_iff_ne] at hclear
      rcases hkind with hblank | rfl | rfl | rfl
      · simp [hclear] at hblank
      all_goals simp at hclear

theorem text_number_grammar_spaced :
    ' ' ∈ trimBlank "\t1 000\n".toList ∧ (text "\t1 000\n").toNumber.isNaN :=
  ⟨by decide, (text_number_grammar "\t1 000\n").2.2.2 ' ' (by decide) (.inl (by decide))⟩

end Value
end Exclaim
