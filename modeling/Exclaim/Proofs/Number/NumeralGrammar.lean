import Mathlib.Computability.RegularExpressions
import Exclaim.Proofs.Number.ReadBack

/-! The grammar of numerals as a regular expression. A text is read as a numeral exactly when it
matches: each part of the reader takes what the matching part of the expression describes, and no
part can begin with what the part before it could have taken. -/
namespace Exclaim.Numeral

/-- One of some characters. -/
def oneOf (choices : List Char) : RegularExpression Char := (choices.map .char).sum

/-- Something, or nothing. -/
def optional (r : RegularExpression Char) : RegularExpression Char := 1 + r

def digit : RegularExpression Char := oneOf ['0', '1', '2', '3', '4', '5', '6', '7', '8', '9']

def digits : RegularExpression Char := digit * digit.star

def sign : RegularExpression Char := optional (oneOf ['+', '-'])

/-- Digits, perhaps with a point and more digits behind them, or a point and digits. -/
def significand : RegularExpression Char :=
  digits * optional (.char '.' * optional digits) + .char '.' * digits

def power : RegularExpression Char := optional (oneOf ['e', 'E'] * (sign * digits))

def grammar : RegularExpression Char := sign * (significand * power)

section Matches
variable {cs : List Char} {choices : List Char} {r s : RegularExpression Char}

lemma mem_mul : cs ∈ (r * s).matches' ↔ ∃ as ∈ r.matches', ∃ bs ∈ s.matches', as ++ bs = cs := by
  rw [RegularExpression.matches'_mul]
  exact Language.mem_mul

lemma mem_char {c : Char} : cs ∈ (RegularExpression.char c).matches' ↔ cs = [c] := Iff.rfl

lemma mem_oneOf : cs ∈ (oneOf choices).matches' ↔ ∃ c ∈ choices, cs = [c] := by
  unfold oneOf
  induction choices with
  | nil => simp
  | cons c choices ih =>
    rw [List.map_cons, List.sum_cons, RegularExpression.matches'_add, Language.mem_add, ih,
      mem_char]
    simp

lemma cons_mem_oneOf_mul {c : Char} :
    c :: cs ∈ (oneOf choices * r).matches' ↔ c ∈ choices ∧ cs ∈ r.matches' := by
  rw [mem_mul]
  constructor
  · rintro ⟨mark, hmark, ds, hds, happend⟩
    obtain ⟨d, hd, rfl⟩ := mem_oneOf.1 hmark
    obtain ⟨rfl, rfl⟩ := List.cons.inj happend
    exact ⟨hd, hds⟩
  · rintro ⟨hc, hcs⟩
    exact ⟨[c], mem_oneOf.2 ⟨c, hc, rfl⟩, cs, hcs, rfl⟩

lemma mem_optional : cs ∈ (optional r).matches' ↔ cs = [] ∨ cs ∈ r.matches' := by
  rw [optional, RegularExpression.matches'_add, Language.mem_add,
    RegularExpression.matches'_epsilon, Language.mem_one]

/-- The characters that an expression is made of. -/
def letters : RegularExpression Char → List Char
  | .zero | .epsilon => []
  | .char c => [c]
  | .plus r s | .comp r s => letters r ++ letters s
  | .star r => letters r

/-- A text has no other characters than an expression that it matches. -/
lemma mem_letters (h : cs ∈ r.matches') : ∀ c ∈ cs, c ∈ letters r := by
  induction r generalizing cs with
  | zero => exact h.elim
  | epsilon =>
    obtain rfl : cs = [] := h
    simp
  | char d =>
    obtain rfl : cs = [d] := h
    exact fun c hc => hc
  | plus r s ihr ihs =>
    rcases h with h | h
    · exact fun c hc => List.mem_append_left _ (ihr h c hc)
    · exact fun c hc => List.mem_append_right _ (ihs h c hc)
  | comp r s ihr ihs =>
    obtain ⟨as, has, bs, hbs, rfl⟩ := mem_mul.1 h
    exact List.forall_mem_append.2 ⟨fun c hc => List.mem_append_left _ (ihr has c hc),
      fun c hc => List.mem_append_right _ (ihs hbs c hc)⟩
  | star r ih =>
    obtain ⟨parts, rfl, hparts⟩ := Language.mem_kstar.1 h
    intro c hc
    obtain ⟨part, hpart, hmem⟩ := List.mem_flatten.1 hc
    exact ih (hparts part hpart) c hmem

lemma mem_digit : cs ∈ digit.matches' ↔ ∃ c : Char, c.isDigit ∧ cs = [c] := by
  have hdigit : ∀ c : Char,
      c ∈ ['0', '1', '2', '3', '4', '5', '6', '7', '8', '9'] ↔ c.isDigit := by
    refine fun c => ⟨fun h => ?_, fun h => ?_⟩
    · fin_cases h <;> rfl
    · obtain ⟨hlow, hhigh⟩ : 48 ≤ c.toNat ∧ c.toNat ≤ 57 := by
        simpa [Char.isDigit, UInt32.le_iff_toNat_le] using h
      rw [← c.ofNat_toNat]
      interval_cases c.toNat <;> decide
  simp only [digit, mem_oneOf, hdigit]

lemma mem_star_digit : cs ∈ digit.star.matches' ↔ ∀ c ∈ cs, c.isDigit := by
  rw [RegularExpression.matches'_star, Language.mem_kstar]
  constructor
  · rintro ⟨parts, rfl, hparts⟩ c hc
    obtain ⟨part, hpart, hmem⟩ := List.mem_flatten.1 hc
    obtain ⟨d, hd, rfl⟩ := mem_digit.1 (hparts part hpart)
    rwa [List.mem_singleton.1 hmem]
  · intro h
    refine ⟨cs.map ([·]), (List.flatMap_singleton' cs).symm, fun part hpart => ?_⟩
    obtain ⟨c, hc, rfl⟩ := List.mem_map.1 hpart
    exact mem_digit.2 ⟨c, h c hc, rfl⟩

lemma mem_digits : cs ∈ digits.matches' ↔ cs ≠ [] ∧ ∀ c ∈ cs, c.isDigit := by
  rw [digits, mem_mul]
  constructor
  · rintro ⟨first, hfirst, rest, hrest, rfl⟩
    obtain ⟨c, hc, rfl⟩ := mem_digit.1 hfirst
    exact ⟨by simp, List.forall_mem_cons.2 ⟨hc, mem_star_digit.1 hrest⟩⟩
  · rintro ⟨hne, hdigits⟩
    cases cs with
    | nil => exact absurd rfl hne
    | cons c cs =>
      obtain ⟨hc, hcs⟩ := List.forall_mem_cons.1 hdigits
      exact ⟨[c], mem_digit.2 ⟨c, hc, rfl⟩, cs, mem_star_digit.2 hcs, rfl⟩

lemma mem_sign : cs ∈ sign.matches' ↔ cs = [] ∨ cs = ['+'] ∨ cs = ['-'] := by
  rw [sign, mem_optional, mem_oneOf]
  simp

/-- A significand has digits before or behind its point, and before it if there is no point. -/
lemma mem_significand : cs ∈ significand.matches' ↔ ∃ whole fraction : List Char,
    (∀ c ∈ whole, c.isDigit) ∧ (∀ c ∈ fraction, c.isDigit) ∧ ¬ (whole = [] ∧ fraction = []) ∧
      (cs = whole ++ '.' :: fraction ∨ fraction = [] ∧ cs = whole) := by
  rw [significand, RegularExpression.matches'_add, Language.mem_add]
  simp only [mem_mul, mem_optional, mem_char, mem_digits]
  constructor
  · rintro (⟨whole, ⟨hne, hwhole⟩, tail, htail, rfl⟩ | ⟨_, rfl, fraction, ⟨hne, hfraction⟩, rfl⟩)
    · rcases htail with rfl | ⟨_, rfl, fraction, hfraction, rfl⟩
      · exact ⟨whole, [], hwhole, by simp, by simp [hne], .inr ⟨rfl, List.append_nil _⟩⟩
      · have hdigits : ∀ c ∈ fraction, c.isDigit := by
          rcases hfraction with rfl | ⟨-, hdigits⟩
          · simp
          · exact hdigits
        exact ⟨whole, fraction, hwhole, hdigits, by simp [hne], .inl rfl⟩
    · exact ⟨[], fraction, by simp, hfraction, by simp [hne], .inl rfl⟩
  · rintro ⟨whole, fraction, hwhole, hfraction, hne, rfl | ⟨rfl, rfl⟩⟩
    · by_cases hwhole' : whole = []
      · subst hwhole'
        exact .inr ⟨_, rfl, fraction, ⟨fun h => hne ⟨rfl, h⟩, hfraction⟩, rfl⟩
      · refine .inl ⟨whole, ⟨hwhole', hwhole⟩, _, .inr ⟨_, rfl, fraction, ?_, rfl⟩, rfl⟩
        exact Classical.or_iff_not_imp_left.2 fun h => ⟨h, hfraction⟩
    · exact .inl ⟨cs, ⟨fun h => hne ⟨h, rfl⟩, hwhole⟩, [], .inl rfl, List.append_nil _⟩

lemma exists_head_significand (h : cs ∈ significand.matches') :
    ∃ c ds, cs = c :: ds ∧ (c.isDigit ∨ c = '.') := by
  obtain ⟨whole, fraction, hwhole, -, hne, hform⟩ := mem_significand.1 h
  cases whole with
  | cons c whole =>
    have hc : c.isDigit := hwhole c (by simp)
    rcases hform with rfl | ⟨-, rfl⟩
    · exact ⟨c, _, rfl, .inl hc⟩
    · exact ⟨c, _, rfl, .inl hc⟩
  | nil =>
    rcases hform with rfl | ⟨hfraction, -⟩
    · exact ⟨'.', fraction, rfl, .inr rfl⟩
    · exact absurd ⟨rfl, hfraction⟩ hne

lemma head_power (h : cs ∈ power.matches') : ∀ c ∈ cs.head?, c = 'e' ∨ c = 'E' := by
  rw [power, mem_optional] at h
  cases cs with
  | nil => simp
  | cons c cs =>
    rintro _ ⟨rfl⟩
    exact List.mem_pair.1 (cons_mem_oneOf_mul.1 (h.resolve_left (by simp))).1

end Matches

section Reader
variable {cs : List Char} {r : RegularExpression Char}

/-- Taking a sign off is what `sign` in front means, where nothing behind it could be one. -/
lemma mem_sign_mul (h : ∀ ds ∈ r.matches', ∀ c ∈ ds.head?, c ≠ '+' ∧ c ≠ '-') :
    cs ∈ (sign * r).matches' ↔ (splitSign cs).2 ∈ r.matches' := by
  rw [mem_mul]
  constructor
  · rintro ⟨mark, hmark, ds, hds, rfl⟩
    rcases mem_sign.1 hmark with rfl | rfl | rfl
    · cases ds with
      | nil => exact hds
      | cons d ds =>
        obtain ⟨hplus, hminus⟩ := h _ hds d rfl
        have hsplit : splitSign (d :: ds) = (false, d :: ds) := by
          unfold splitSign
          split <;> simp_all
        rwa [List.nil_append, hsplit]
    · exact hds
    · exact hds
  · intro hmem
    unfold splitSign at hmem
    split at hmem
    · exact ⟨['-'], mem_sign.2 (.inr (.inr rfl)), _, hmem, rfl⟩
    · exact ⟨['+'], mem_sign.2 (.inr (.inl rfl)), _, hmem, rfl⟩
    · exact ⟨[], mem_sign.2 (.inl rfl), cs, hmem, rfl⟩

lemma ne_sign_of_isDigit {c : Char} (h : c.isDigit) : c ≠ '+' ∧ c ≠ '-' := by
  constructor <;> rintro rfl <;> exact absurd h (by decide)

lemma splitDigits_append_self (cs : List Char) : (splitDigits cs).1 ++ (splitDigits cs).2 = cs :=
  List.takeWhile_append_dropWhile

lemma isDigit_splitDigits (cs : List Char) : ∀ c ∈ (splitDigits cs).1, c.isDigit :=
  fun _ hc => List.mem_takeWhile_imp hc

/-- A run of digits that nothing follows. -/
lemma mem_digits_iff_split : cs ∈ digits.matches' ↔
    ¬ ((splitDigits cs).1 = [] ∨ (splitDigits cs).2 ≠ []) := by
  have hrest : (splitDigits cs).2 = [] ↔ ∀ c ∈ cs, c.isDigit := List.dropWhile_eq_nil_iff
  rw [mem_digits, not_or, not_not, hrest, and_congr_left_iff]
  intro hdigits
  rw [splitDigits_of_all hdigits]

/-- A power is read as one. -/
lemma isSome_readExponent?_iff : (readExponent? cs).isSome ↔ cs ∈ power.matches' := by
  rw [power, mem_optional]
  cases cs with
  | nil => simp [readExponent?]
  | cons c cs =>
    have hsigned : cs ∈ (sign * digits).matches' ↔ (splitSign cs).2 ∈ digits.matches' :=
      mem_sign_mul fun ds hds c hc =>
        ne_sign_of_isDigit ((mem_digits.1 hds).2 c (List.mem_of_mem_head? hc))
    rw [cons_mem_oneOf_mul, hsigned, mem_digits_iff_split, List.mem_pair]
    unfold readExponent?
    simp only
    split_ifs <;> simp_all

/-- Where a run of digits and a point after them end. -/
lemma splitFraction_cases (cs : List Char) :
    (∃ ds, cs = '.' :: ds ∧ splitFraction cs = splitDigits ds) ∨ splitFraction cs = ([], cs) := by
  unfold splitFraction
  split
  · next ds => exact .inl ⟨ds, rfl, rfl⟩
  · exact .inr rfl

/-- A significand and a power are told apart by the reader. -/
lemma mem_significand_mul_power :
    cs ∈ (significand * power).matches' ↔
      ¬ ((splitDigits cs).1 = [] ∧ (splitFraction (splitDigits cs).2).1 = []) ∧
        (splitFraction (splitDigits cs).2).2 ∈ power.matches' := by
  rw [mem_mul]
  constructor
  · rintro ⟨ds, hds, rest, hrest, rfl⟩
    obtain ⟨whole, fraction, hwhole, hfraction, hne, hform⟩ := mem_significand.1 hds
    have hstop : ∀ c ∈ rest.head?, c.isDigit = false ∧ c ≠ '.' := by
      intro c hc
      rcases head_power hrest c hc with rfl | rfl <;> exact ⟨rfl, by decide⟩
    rcases hform with rfl | ⟨rfl, rfl⟩
    · rw [List.append_assoc, List.cons_append, splitDigits_append hwhole (by simp)]
      simp only [splitFraction]
      rw [splitDigits_append hfraction fun c hc => (hstop c hc).1]
      exact ⟨hne, hrest⟩
    · rw [splitDigits_append hwhole fun c hc => (hstop c hc).1]
      have hnone : splitFraction rest = ([], rest) := by
        rcases splitFraction_cases rest with ⟨_, rfl, -⟩ | hnone
        · exact absurd rfl (hstop '.' rfl).2
        · exact hnone
      rw [hnone]
      exact ⟨hne, hrest⟩
  · rintro ⟨hne, hrest⟩
    have hsplit := splitDigits_append_self cs
    have hwhole := isDigit_splitDigits cs
    rcases splitFraction_cases (splitDigits cs).2 with ⟨ds, hpoint, hfraction⟩ | hnone
    · rw [hfraction] at hne hrest
      refine ⟨(splitDigits cs).1 ++ '.' :: (splitDigits ds).1,
        mem_significand.2 ⟨_, _, hwhole, isDigit_splitDigits ds, hne, .inl rfl⟩, _, hrest, ?_⟩
      rw [List.append_assoc, List.cons_append, splitDigits_append_self, ← hpoint, hsplit]
    · rw [hnone] at hne hrest
      exact ⟨_, mem_significand.2 ⟨_, [], hwhole, by simp, hne, .inr ⟨rfl, rfl⟩⟩, _, hrest, hsplit⟩

/-- The reader of numerals takes the texts of the grammar, and no others. -/
theorem isSome_read?_iff : (read? cs).isSome ↔ cs ∈ grammar.matches' := by
  have hhead : ∀ ds ∈ (significand * power).matches', ∀ c ∈ ds.head?, c ≠ '+' ∧ c ≠ '-' := by
    intro ds hds c hc
    obtain ⟨first, hfirst, rest, -, rfl⟩ := mem_mul.1 hds
    obtain ⟨d, tail, rfl, hd⟩ := exists_head_significand hfirst
    obtain rfl : d = c := by simpa using hc
    rcases hd with hd | rfl
    · exact ne_sign_of_isDigit hd
    · decide
  rw [grammar, mem_sign_mul hhead, mem_significand_mul_power, ← isSome_readExponent?_iff]
  unfold read?
  simp only
  split_ifs with hnone
  · simp [hnone]
  · simp [hnone]

end Reader
end Exclaim.Numeral
