import Exclaim.Proofs.Parse.Concatenation

/-! A grammar with one more rule. The new rule hides older ones for the tokens that it is for, and
nothing changes for all others. -/
namespace Exclaim

/-- A rule that is added to a grammar: for all tokens of a kind, or for one word. -/
inductive Registration where
  | statement (kind : TokenKind) (rule : StatementRule)
  | statementWord (word : String) (rule : StatementRule)
  | opening (kind : TokenKind) (power : Power) (rule : OpeningRule)
  | openingWord (word : String) (power : Power) (rule : OpeningRule)
  | joining (kind : TokenKind) (power : Power) (rule : JoiningRule)
deriving DecidableEq, Repr

def Grammar.register (g : Grammar) : Registration → Grammar
  | .statement kind rule => g.addStatement { kind, rule }
  | .statementWord word rule => g.addStatement { kind := .identifier, word, rule }
  | .opening kind power rule => g.addOpening { kind, power, rule }
  | .openingWord word power rule => g.addOpening { kind := .identifier, word, power, rule }
  | .joining kind power rule => g.addJoining { kind, power, rule }

/-- Whether an entry may be found for a token. -/
structure Entry.Fits {Rule : Type} (entry : Entry Rule) (t : Token) : Prop where
  kind : t.kind = entry.kind
  word : t.kind = .identifier → entry.word = "" ∨ t.value = entry.word

namespace Registration

/-- The tokens that a rule is for. The empty word stands for all words. -/
def Concerns (r : Registration) (t : Token) : Prop :=
  match r with
  | .statement kind _ | .opening kind _ _ | .joining kind _ _ => t.kind = kind
  | .statementWord word _ | .openingWord word _ _ =>
      t.kind = .identifier ∧ (word = "" ∨ t.value = word)

instance (r : Registration) (t : Token) : Decidable (r.Concerns t) :=
  match r with
  | .statement .. | .opening .. | .joining .. => inferInstanceAs (Decidable (_ = _))
  | .statementWord .. | .openingWord .. => inferInstanceAs (Decidable (_ ∧ (_ ∨ _)))

end Registration

/-- A new entry that does not fit a token does not change what is found for it, however old the
entries behind it are. -/
lemma Registry.find?_register {Rule : Type} (r : Registry Rule) {entry : Entry Rule} {t : Token}
    (h : ¬ entry.Fits t) :
    Registry.find? (Registry.register r entry) t = Registry.find? r t := by
  unfold Registry.register Registry.find?
  by_cases hk : t.kind = entry.kind
  · obtain ⟨hid, hword⟩ := Classical.not_imp.1 fun himp => h ⟨hk, himp⟩
    obtain ⟨hempty, hvalue⟩ := not_or.1 hword
    simp [← hk, hid, hempty, Ne.symm hvalue]
  · simp [Ne.symm hk]

namespace Grammar
variable (g : Grammar) {t : Token}

lemma statement?_addStatement {entry : Entry StatementRule} (h : ¬ entry.Fits t) :
    (g.addStatement entry).statement? t = g.statement? t :=
  congrArg (Option.map _) (g.statements.find?_register h)

lemma opening?_addOpening {entry : Entry OpeningRule} (h : ¬ entry.Fits t) :
    (g.addOpening entry).opening? t = g.opening? t :=
  congrArg (Option.map _) (g.openings.find?_register h)

lemma joining?_addJoining {entry : Entry JoiningRule} (h : ¬ entry.Fits t) :
    (g.addJoining entry).joining? t = g.joining? t :=
  congrArg (Option.map _) (g.joinings.find?_register h)

end Grammar

/-- Two grammars that differ by one rule agree on the tokens that it does not concern. -/
lemma Parse.agrees_register (g : Grammar) (r : Registration) {T : Course}
    (h : ∀ t, T.Knows t → ¬ r.Concerns t) : Agrees T (g.register r) g := by
  cases r with
  | statement kind rule =>
    exact ⟨fun t ht => g.statement?_addStatement fun hf => h t ht hf.kind,
      fun _ _ => rfl, fun _ _ => rfl⟩
  | statementWord word rule =>
    exact ⟨fun t ht => g.statement?_addStatement fun hf => h t ht ⟨hf.kind, hf.word hf.kind⟩,
      fun _ _ => rfl, fun _ _ => rfl⟩
  | opening kind power rule =>
    exact ⟨fun _ _ => rfl, fun t ht => g.opening?_addOpening fun hf => h t ht hf.kind,
      fun _ _ => rfl⟩
  | openingWord word power rule =>
    exact ⟨fun _ _ => rfl,
      fun t ht => g.opening?_addOpening fun hf => h t ht ⟨hf.kind, hf.word hf.kind⟩,
      fun _ _ => rfl⟩
  | joining kind power rule =>
    exact ⟨fun _ _ => rfl, fun _ _ => rfl,
      fun t ht => g.joining?_addJoining fun hf => h t ht hf.kind⟩

/-- Two grammars whose lookups agree on all tokens read them alike: they give the same program or
the same error. -/
lemma Parse.parseTokens_congr {g g' : Grammar} {tokens : List Token} {known : Token → Prop}
    (hg : Agrees (.level 0 known) g g') (hknown : ∀ t ∈ (Cursor.ofTokens tokens).tokens, known t) :
    parseTokens g tokens = parseTokens g' tokens := by
  have hbeside : Beside (.level 0 known) (ParseState.ofTokens tokens).cursor
      (ParseState.ofTokens tokens).cursor := by
    refine .level rfl rfl rfl fun t ht => hknown t ?_
    rcases List.mem_cons.1 ht with rfl | ht
    · exact List.mem_append_right _ (List.mem_singleton_self _)
    · exact List.mem_append_left _ (Cursor.mem_body_of_mem_ahead ht)
  have hroom : (ParseState.ofTokens tokens).cursor.ahead.length + 1 ≤
      (ParseState.ofTokens tokens).cursor.remaining + 2 :=
    Nat.succ_le_succ (Nat.le_succ_of_le (Cursor.length_ahead_le _))
  have hfollows := follows_programBody hg hroom hroom (Nat.lt_succ_self _) hbeside
  rw [parseTokens_eq, parseTokens_eq]
  revert hfollows
  rcases (programBody g _).run (.ofTokens tokens) with ⟨e | program, s⟩
  · intro hfollows
    obtain ⟨s', hrun⟩ := hfollows 0 known rfl
    rw [hrun]
    cases e <;> rfl
  · intro hfollows
    obtain ⟨s', hrun, -⟩ := hfollows (.inl (Nat.zero_le _))
    rw [hrun]

/-- A grammar with one more rule reads all token sequences as before that have no token which the
rule is for, whatever other rules the grammar has. A rule for the end of the file is for a token of
every sequence, because one without it is completed. -/
theorem parseTokens_register (g : Grammar) (r : Registration) {tokens : List Token}
    (h : ∀ t ∈ (Cursor.ofTokens tokens).tokens, ¬ r.Concerns t) :
    parseTokens (g.register r) tokens = parseTokens g tokens :=
  Parse.parseTokens_congr (Parse.agrees_register g r fun _ => id) h

/-- `x!` is read as before when `loop` starts a statement, and when also `+` binds less tightly.
`loop!` is not. -/
theorem parseTokens_register_word :
    let x : Token := .plain .identifier "x"
    let loop : Token := .plain .identifier "loop"
    let stop : Token := .plain .exclamation "!"
    let last : Token := .plain .endOfFile ""
    let g := Grammar.stock.register (.statementWord "loop" .returning)
    parseTokens g [x, stop, last] = parseTokens .stock [x, stop, last] ∧
      parseTokens (g.register (.joining .add .assignment .binary)) [x, stop, last] =
        parseTokens g [x, stop, last] ∧
      parseTokens g [loop, stop, last] ≠ parseTokens .stock [loop, stop, last] := by
  intro x loop stop last g
  have hfails : (parseTokens g [loop, stop, last]).toOption.isSome = false := by
    decide +kernel +revert
  have hread : (parseTokens .stock [loop, stop, last]).toOption.isSome := by
    decide +kernel +revert
  have hword : ∀ t ∈ (Cursor.ofTokens [x, stop, last]).tokens,
      ¬ (Registration.statementWord "loop" .returning).Concerns t := by decide +revert
  have hkind : ∀ t ∈ (Cursor.ofTokens [x, stop, last]).tokens,
      ¬ (Registration.joining .add .assignment .binary).Concerns t := by decide +revert
  refine ⟨parseTokens_register _ _ hword, parseTokens_register _ _ hkind, fun heq => ?_⟩
  rw [← heq, hfails] at hread
  exact absurd hread (by decide)

end Exclaim
