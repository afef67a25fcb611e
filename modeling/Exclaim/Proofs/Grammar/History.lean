import Exclaim.Proofs.Grammar.Extension

/-! What a grammar finds for a token, told by the registrations that it was built with. The latest
one for the token's kind counts; for an identifier the latest one for exactly its word, and without
such a one the latest for all words. -/
namespace Exclaim

/-- An element of a history that has a property, and nothing behind it has. -/
def IsLatest {α : Type} (p : α → Prop) (history : List α) (a : α) : Prop :=
  ∃ older newer, history = older ++ a :: newer ∧ p a ∧ ∀ b ∈ newer, ¬ p b

section Latest
variable {α : Type} {p : α → Prop} [DecidablePred p] {history : List α}

lemma find?_reverse_eq_some_iff {a : α} :
    history.reverse.find? (fun b => decide (p b)) = some a ↔ IsLatest p history a := by
  rw [List.find?_eq_some_iff_append]
  constructor
  · rintro ⟨ha, newer, older, hsplit, hnewer⟩
    refine ⟨older.reverse, newer.reverse, ?_, by simpa using ha, by simpa using hnewer⟩
    rw [← List.reverse_reverse history, hsplit]
    simp
  · rintro ⟨older, newer, rfl, ha, hnewer⟩
    exact ⟨by simpa using ha, newer.reverse, older.reverse, by simp, by simpa using hnewer⟩

lemma find?_reverse_eq_none_iff :
    history.reverse.find? (fun b => decide (p b)) = none ↔ ∀ a ∈ history, ¬ p a := by
  simp

end Latest

namespace Registry
variable {Rule : Type} {history : List (Entry Rule)} {t : Token} {found : Option (Entry Rule)}

/-- The registry with entries that were registered one after another. -/
def ofHistory (history : List (Entry Rule)) : Registry Rule := history.foldl register []

/-- What the history of a registry has for a token. -/
inductive Finds (history : List (Entry Rule)) (t : Token) : Option (Entry Rule) → Prop
  | kind {entry : Entry Rule} (hkind : t.kind ≠ .identifier)
      (hlatest : IsLatest (fun e => e.kind = t.kind) history entry) : Finds history t (some entry)
  | word {entry : Entry Rule} (hkind : t.kind = .identifier)
      (hlatest : IsLatest (fun e => e.kind = .identifier ∧ e.word = t.value) history entry) :
      Finds history t (some entry)
  | anyWord {entry : Entry Rule} (hkind : t.kind = .identifier)
      (hword : ∀ e ∈ history, ¬ (e.kind = .identifier ∧ e.word = t.value))
      (hlatest : IsLatest (fun e => e.kind = .identifier ∧ e.word = "") history entry) :
      Finds history t (some entry)
  | nothing (hnone : ∀ e ∈ history, ¬ e.Fits t) : Finds history t none

lemma ofHistory_eq_reverse (history : List (Entry Rule)) : ofHistory history = history.reverse := by
  unfold ofHistory register
  simp

lemma find?_of_ne (hkind : t.kind ≠ .identifier) :
    find? (ofHistory history) t = history.reverse.find? fun e => decide (e.kind = t.kind) := by
  unfold find?
  rw [if_neg hkind, List.head?_filter, ofHistory_eq_reverse]
  rfl

lemma find?_of_identifier (hkind : t.kind = .identifier) :
    find? (ofHistory history) t =
      (history.reverse.find? fun e => decide (e.kind = .identifier ∧ e.word = t.value)).or
        (history.reverse.find? fun e => decide (e.kind = .identifier ∧ e.word = "")) := by
  unfold find?
  rw [if_pos hkind, List.find?_filter, List.find?_filter, ofHistory_eq_reverse, hkind]
  simp only [beq_iff_eq]

/-- A registry has for every token what its history has. -/
lemma finds_find? (history : List (Entry Rule)) (t : Token) :
    Finds history t (find? (ofHistory history) t) := by
  by_cases hkind : t.kind = .identifier
  · rw [find?_of_identifier hkind]
    cases hword : history.reverse.find? fun e =>
        decide (e.kind = .identifier ∧ e.word = t.value) with
    | some entry => exact .word hkind (find?_reverse_eq_some_iff.1 hword)
    | none =>
      rw [find?_reverse_eq_none_iff] at hword
      rw [Option.none_or]
      cases hany : history.reverse.find? fun e => decide (e.kind = .identifier ∧ e.word = "") with
      | some entry => exact .anyWord hkind hword (find?_reverse_eq_some_iff.1 hany)
      | none =>
        rw [find?_reverse_eq_none_iff] at hany
        refine .nothing fun e he hfits => ?_
        have hid : e.kind = .identifier := hfits.kind ▸ hkind
        rcases hfits.word hkind with hempty | hvalue
        · exact hany e he ⟨hid, hempty⟩
        · exact hword e he ⟨hid, hvalue.symm⟩
  · rw [find?_of_ne hkind]
    cases hfind : history.reverse.find? fun e => decide (e.kind = t.kind) with
    | some entry => exact .kind hkind (find?_reverse_eq_some_iff.1 hfind)
    | none =>
      rw [find?_reverse_eq_none_iff] at hfind
      exact .nothing fun e he hfits => hfind e he hfits.kind.symm

/-- A history has one answer for a token. -/
lemma find?_of_finds (h : Finds history t found) : find? (ofHistory history) t = found := by
  cases h with
  | kind hkind hlatest => rw [find?_of_ne hkind, find?_reverse_eq_some_iff.2 hlatest]
  | word hkind hlatest =>
    rw [find?_of_identifier hkind, find?_reverse_eq_some_iff.2 hlatest, Option.some_or]
  | anyWord hkind hword hlatest =>
    rw [find?_of_identifier hkind, find?_reverse_eq_none_iff.2 hword, Option.none_or,
      find?_reverse_eq_some_iff.2 hlatest]
  | nothing hnone =>
    by_cases hkind : t.kind = .identifier
    · have hword : ∀ e ∈ history, ¬ (e.kind = .identifier ∧ e.word = t.value) :=
        fun e he hid => hnone e he ⟨hkind.trans hid.1.symm, fun _ => .inr hid.2.symm⟩
      have hany : ∀ e ∈ history, ¬ (e.kind = .identifier ∧ e.word = "") :=
        fun e he hid => hnone e he ⟨hkind.trans hid.1.symm, fun _ => .inl hid.2⟩
      rw [find?_of_identifier hkind, find?_reverse_eq_none_iff.2 hword,
        find?_reverse_eq_none_iff.2 hany, Option.none_or]
    · rw [find?_of_ne hkind, find?_reverse_eq_none_iff.2]
      exact fun e he heq => hnone e he ⟨heq.symm, fun hid => absurd hid hkind⟩

lemma find?_eq_iff : find? (ofHistory history) t = found ↔ Finds history t found :=
  ⟨fun h => h ▸ finds_find? history t, find?_of_finds⟩

end Registry

namespace Registration

/-- The entry that a registration makes for statements, if it makes one. -/
def asStatement? : Registration → Option (Entry StatementRule)
  | .statement kind rule => some { kind, rule }
  | .statementWord word rule => some { kind := .identifier, word, rule }
  | _ => none

/-- The entry that a registration makes for the start of expressions, if it makes one. -/
def asOpening? : Registration → Option (Entry OpeningRule)
  | .opening kind power rule => some { kind, power, rule }
  | .openingWord word power rule => some { kind := .identifier, word, power, rule }
  | _ => none

/-- The entry that a registration makes for the continuation of expressions, if it makes one. -/
def asJoining? : Registration → Option (Entry JoiningRule)
  | .joining kind power rule => some { kind, power, rule }
  | _ => none

def ofStatement (e : Entry StatementRule) : Registration :=
  if e.word = "" then .statement e.kind e.rule else .statementWord e.word e.rule

def ofOpening (e : Entry OpeningRule) : Registration :=
  if e.word = "" then .opening e.kind e.power e.rule else .openingWord e.word e.power e.rule

def ofJoining (e : Entry JoiningRule) : Registration := .joining e.kind e.power e.rule

end Registration

namespace Grammar

/-- The grammar with rules that were registered one after another. -/
def ofHistory (history : List Registration) : Grammar := history.foldl register .empty

variable (history : List Registration)

/-- A registration goes into the registry that it makes an entry for. -/
lemma registries_foldl (g : Grammar) :
    (history.foldl register g).statements =
      (history.filterMap (·.asStatement?)).foldl Registry.register g.statements ∧
    (history.foldl register g).openings =
      (history.filterMap (·.asOpening?)).foldl Registry.register g.openings ∧
    (history.foldl register g).joinings =
      (history.filterMap (·.asJoining?)).foldl Registry.register g.joinings := by
  induction history generalizing g with
  | nil => exact ⟨rfl, rfl, rfl⟩
  | cons r history ih =>
    rw [List.foldl_cons]
    obtain ⟨hstatements, hopenings, hjoinings⟩ := ih (g.register r)
    rw [hstatements, hopenings, hjoinings]
    cases r <;> exact ⟨rfl, rfl, rfl⟩

/-- The entries of the language's grammar as registrations, the oldest first. -/
def stockHistory : List Registration :=
  (stockStatements.map Registration.ofStatement).reverse ++
    (stockOpenings.map Registration.ofOpening).reverse ++
    (stockJoinings.map Registration.ofJoining).reverse

lemma ofHistory_stockHistory : ofHistory stockHistory = stock := by
  rfl

lemma statements_ofHistory : (ofHistory history).statements =
    Registry.ofHistory (history.filterMap (·.asStatement?)) :=
  (registries_foldl history .empty).1

lemma openings_ofHistory : (ofHistory history).openings =
    Registry.ofHistory (history.filterMap (·.asOpening?)) :=
  (registries_foldl history .empty).2.1

lemma joinings_ofHistory : (ofHistory history).joinings =
    Registry.ofHistory (history.filterMap (·.asJoining?)) :=
  (registries_foldl history .empty).2.2

end Grammar

/-- What is read off the entry for a token is read off what the history has for it. -/
lemma Registry.map_find?_eq_iff {Rule α : Type} {r : Registry Rule} {history : List (Entry Rule)}
    (hr : r = ofHistory history) (t : Token) (view : Entry Rule → α) (answer : Option α) :
    (r.find? t).map view = answer ↔ ∃ found, Finds history t found ∧ found.map view = answer := by
  subst hr
  constructor
  · intro h
    exact ⟨_, finds_find? history t, h⟩
  · rintro ⟨found, hfinds, h⟩
    rw [find?_of_finds hfinds, h]

lemma filterMap_filter_isSome {α β : Type} (f : α → Option β) (l : List α) :
    (l.filter fun a => (f a).isSome).filterMap f = l.filterMap f := by
  induction l with
  | nil => rfl
  | cons a l ih => cases h : f a <;> simp [h, ih]

/-- A registry has for a token what its history has for it, whatever its rules are. The three
registries of a grammar have their own histories: a registration counts in one of them, and what
the grammar has in the others is the same without it. -/
theorem lookups_follow_history (history : List Registration) (t : Token) :
    (∀ (Rule : Type) (entries : List (Entry Rule)) (found : Option (Entry Rule)),
      (Registry.ofHistory entries).find? t = found ↔ Registry.Finds entries t found) ∧
    (∀ answer, (Grammar.ofHistory history).statement? t = answer ↔
      ∃ found, Registry.Finds (history.filterMap (·.asStatement?)) t found ∧
        found.map (·.rule) = answer) ∧
    (∀ answer, (Grammar.ofHistory history).opening? t = answer ↔
      ∃ found, Registry.Finds (history.filterMap (·.asOpening?)) t found ∧
        found.map (fun entry => (entry.rule, entry.power)) = answer) ∧
    (∀ answer, (Grammar.ofHistory history).joining? t = answer ↔
      ∃ found, Registry.Finds (history.filterMap (·.asJoining?)) t found ∧
        found.map (fun entry => (entry.rule, entry.power)) = answer) ∧
    (Grammar.ofHistory (history.filter (·.asStatement?.isSome))).statement? t =
      (Grammar.ofHistory history).statement? t ∧
    (Grammar.ofHistory (history.filter (·.asOpening?.isSome))).opening? t =
      (Grammar.ofHistory history).opening? t ∧
    (Grammar.ofHistory (history.filter (·.asJoining?.isSome))).joining? t =
      (Grammar.ofHistory history).joining? t := by
  refine ⟨fun Rule entries found => Registry.find?_eq_iff, ?_, ?_, ?_, ?_, ?_, ?_⟩
  · exact Registry.map_find?_eq_iff (Grammar.statements_ofHistory history) t _
  · exact Registry.map_find?_eq_iff (Grammar.openings_ofHistory history) t _
  · exact Registry.map_find?_eq_iff (Grammar.joinings_ofHistory history) t _
  · simp only [Grammar.statement?, Grammar.statements_ofHistory, filterMap_filter_isSome]
  · simp only [Grammar.opening?, Grammar.openings_ofHistory, filterMap_filter_isSome]
  · simp only [Grammar.joining?, Grammar.joinings_ofHistory, filterMap_filter_isSome]

/-- A word keeps its own rule when a rule for all words is registered after it. -/
example :
    let r := Registration.opening .identifier .grouping .grouping
    let g := Grammar.ofHistory (Grammar.stockHistory ++ [r])
    g.opening? (.plain .identifier "next") = some (.state, .unary) ∧
      g.opening? (.plain .identifier "x") = some (.grouping, .grouping) := by
  decide

end Exclaim
