import Exclaim.Proofs.Parse.Reads

/-! What the grammar of the language finds for a token, and how expressions are read with it. -/
namespace Exclaim

/-- What is found for a token is an entry for its kind. -/
lemma Registry.mem_of_find? {Rule : Type} {r : Registry Rule} {t : Token} {entry : Entry Rule}
    (h : Registry.find? r t = some entry) : entry ∈ r ∧ entry.kind = t.kind := by
  have hmem : entry ∈ r.filter (·.kind == t.kind) := by
    unfold Registry.find? at h
    by_cases hk : t.kind = .identifier
    · simp only [if_pos hk, Option.or_eq_some_iff] at h
      rcases h with h | ⟨-, h⟩
      · exact List.mem_of_find?_eq_some h
      · exact List.mem_of_find?_eq_some h
    · simp only [if_neg hk] at h
      exact List.mem_of_mem_head? h
  simpa using hmem

namespace Grammar

/-- Only the end of the file is read as one. -/
lemma kind_of_statement?_endOfFile {t : Token} (h : stock.statement? t = some .endOfFile) :
    t.kind = .endOfFile := by
  have hall : ∀ entry ∈ stockStatements, entry.rule = .endOfFile → entry.kind = .endOfFile := by
    decide
  obtain ⟨entry, hf, hr⟩ := Option.map_eq_some_iff.1 h
  obtain ⟨hmem, hkind⟩ := Registry.mem_of_find? hf
  rw [← hkind]
  exact hall entry hmem hr

/-- The kind of a token alone decides how an expression goes on. -/
lemma joining?_stock (t : Token) :
    stock.joining? t =
      (List.find? (·.kind == t.kind) stockJoinings).map fun entry => (entry.rule, entry.power) := by
  obtain ⟨kind, value, operation, span, line⟩ := t
  cases kind <;> rfl

lemma joining?_of_kind {t : Token} {kind : TokenKind} {found : Option (JoiningRule × Power)}
    (h : t.kind = kind)
    (hf : ((List.find? (·.kind == kind) stockJoinings).map fun entry =>
      (entry.rule, entry.power)) = found) :
    stock.joining? t = found := by
  rw [joining?_stock, h, hf]

/-- Every way to go on binds tighter than the lowest power and no tighter than an access. -/
lemma joining?_power {t : Token} {rule : JoiningRule} {power : Power}
    (h : stock.joining? t = some (rule, power)) :
    Power.lowest < power ∧ ¬ Power.access < power := by
  have hall : ∀ entry ∈ stockJoinings,
      Power.lowest < entry.power ∧ ¬ Power.access < entry.power := by decide
  rw [joining?_stock] at h
  obtain ⟨entry, hf, he⟩ := Option.map_eq_some_iff.1 h
  obtain rfl : entry.power = power := congrArg Prod.snd he
  exact hall entry (List.mem_of_find?_eq_some hf)

lemma opening?_of_kind {t : Token} {kind : TokenKind} {found : Option (OpeningRule × Power)}
    (h : t.kind = kind) (hw : kind ≠ .identifier)
    (hf : ((List.find? (·.kind == kind) stockOpenings).map fun entry =>
      (entry.rule, entry.power)) = found) :
    stock.opening? t = found := by
  obtain ⟨k, value, operation, span, line⟩ := t
  subst h hf
  cases k <;> first | rfl | exact absurd rfl hw

lemma filter_stockOpenings_identifier :
    stockOpenings.filter (·.kind == .identifier) =
      stateWords.map (fun word =>
        { kind := .identifier, word, power := .unary, rule := .state }) ++
      [{ kind := .identifier, power := .primary, rule := .primary }] := rfl

lemma opening?_stateWord {t : Token} (h : t.kind = .identifier) (hw : t.value ∈ stateWords) :
    stock.opening? t = some (.state, .unary) := by
  obtain ⟨kind, value, operation, span, line⟩ := t
  subst h
  simp only [stateWords, List.mem_cons, List.not_mem_nil, or_false] at hw
  rcases hw with rfl | rfl | rfl <;> rfl

lemma opening?_word {t : Token} (h : t.kind = .identifier) (hw : t.value ∉ stateWords) :
    stock.opening? t = some (.primary, .primary) := by
  simp only [stateWords, List.mem_cons, List.not_mem_nil, or_false, not_or] at hw
  obtain ⟨hp, hn, hc⟩ := hw
  unfold opening? Registry.find?
  rw [if_pos h, h, show stock.openings = stockOpenings from rfl, filter_stockOpenings_identifier]
  by_cases he : t.value = "" <;>
    simp [stateWords, he, Ne.symm hp, Ne.symm hn, Ne.symm hc]

end Grammar

namespace Parse

variable {inner : Inner} {limit power : Power} {n : Nat} {left e : Expression}
  {t : Token} {ts us : List Token} {Q : Cursor → Prop}

/-- Nothing binds tighter than the limit at the start of some tokens. -/
def Stops (limit : Power) (ts : List Token) : Prop :=
  ∀ t ∈ ts.head?, ∀ rule power, Grammar.stock.joining? t = some (rule, power) → ¬ limit < power

lemma stops_of_none (h : ∀ t ∈ ts.head?, Grammar.stock.joining? t = none) : Stops limit ts := by
  intro t ht rule power hj
  rw [h t ht] at hj
  exact absurd hj (by simp)

lemma stops_access : Stops .access ts := fun _ _ _ _ hj => (Grammar.joining?_power hj).2

lemma reads_climb_stop (h : Stops limit ts) :
    Reads (Ahead ts) (climb .stock inner limit (n + 1) left) left (Before ts) := by
  refine reads_skipLayout.bind (reads_cursor_bind fun c hc => ?_)
  have hn : c.current = c.next := hc.2.current_eq
  cases hj : Grammar.stock.joining? c.current with
  | none => exact .pure _
  | some found =>
    obtain ⟨rule, power⟩ := found
    cases ts with
    | nil =>
      have hlast : Grammar.stock.joining? c.last = none := Grammar.joining?_of_kind c.last_kind rfl
      rw [hn, Cursor.next_of_ahead_nil hc.1, hlast] at hj
      exact absurd hj (by simp)
    | cons t ts =>
      rw [hn, Cursor.next_of_ahead_cons hc.1] at hj
      simp only [if_neg (h t rfl rule power hj)]
      exact .pure _

lemma reads_climb_step {rule : JoiningRule} {next : Expression}
    (hj : Grammar.stock.joining? t = some (rule, power)) (hp : limit < power)
    (hr : Reads (Before (t :: ts)) (joining inner n left power rule) next (Ahead us))
    (hc : Reads (Ahead us) (climb .stock inner limit n next) e Q) :
    Reads (Ahead (t :: ts)) (climb .stock inner limit (n + 1) left) e Q := by
  refine reads_skipLayout.bind (reads_cursor_bind fun c h => ?_)
  rw [h.2.current_eq, Cursor.next_of_ahead_cons h.1, hj]
  simp only [if_pos hp]
  exact (reads_note _ _).bind (hr.bind hc)

lemma reads_expression {rule : OpeningRule}
    (ho : Grammar.stock.opening? t = some (rule, power))
    (hr : Reads (Before (t :: ts)) (opening (expression .stock n) rule) left (Ahead us))
    (hc : Reads (Ahead us) (climb .stock (expression .stock n) limit n left) e Q) :
    Reads (Ahead (t :: ts)) (expression .stock (n + 1) limit) e Q := by
  refine reads_skipLayout.bind (reads_cursor_bind fun c h => ?_)
  rw [h.2.current_eq, Cursor.next_of_ahead_cons h.1, ho]
  exact (reads_note _ _).bind (hr.bind hc)

lemma reads_parseExpression
    (h : ∀ n, ts.length < n → Reads (Ahead ts) (expression .stock n limit) e Q) :
    Reads (Ahead ts) (parseExpression .stock limit) e Q :=
  reads_budget_bind h

end Parse
end Exclaim
