import Mathlib.Data.List.TakeWhile
import Exclaim.Proofs.Parse.Reads

/-! What an expectation does, from every cursor and with every options. It looks at one token, the
first from the cursor on that counts, and nothing but that token decides how it ends. -/
namespace Exclaim

namespace Cursor

/-- The index of the current token. Behind the end it stays at the last one. -/
def clamped (c : Cursor) : Nat := min c.position c.body.length

/-- From the current token on, `passed` are passed over and `t` is the first token that counts. An
end of file counts even if its kind is ignored. These are the tokens that one offset after the other
shows, also where the offsets lead behind the end. -/
structure Examines (c : Cursor) (ignored : List TokenKind) (passed : List Token) (t : Token) :
    Prop where
  stands : ∃ rest, c.tokens.drop c.clamped = passed ++ t :: rest
  shows : ∀ k ≤ passed.length, (passed ++ [t])[k]? = some (c.atOffset k)
  passes : ∀ u ∈ passed, u.kind ≠ .endOfFile ∧ u.kind ∈ ignored
  counts : t.kind = .endOfFile ∨ t.kind ∉ ignored

variable {c : Cursor} {passed rest : List Token}

lemma drop_tokens (c : Cursor) : c.tokens.drop c.clamped = c.upcoming ++ [c.last] := by
  unfold tokens clamped upcoming
  rcases Nat.le_total c.position c.body.length with hle | hle
  · rw [Nat.min_eq_left hle, List.drop_append_of_le_length hle]
  · rw [Nat.min_eq_right hle, List.drop_left, List.drop_of_length_le hle, List.nil_append]

/-- The token behind some of the upcoming ones, counted from where the cursor really stands. -/
lemma tokenAt_of_upcoming (h : c.upcoming = passed ++ rest) :
    c.tokenAt (c.position + passed.length) = rest.head?.getD c.last := by
  have hindex : c.body[c.position + passed.length]? = rest.head? := by
    rw [← List.getElem?_drop, show c.body.drop c.position = passed ++ rest from h,
      List.getElem?_append_right (Nat.le_refl _), Nat.sub_self, List.head?_eq_getElem?]
  rw [tokenAt, hindex]

lemma atOffset_of_upcoming (h : c.upcoming = passed ++ rest) {k : Nat} (hk : k ≤ passed.length) :
    (passed ++ [rest.head?.getD c.last])[k]? = some (c.atOffset k) := by
  have hsplit : c.upcoming = passed.take k ++ (passed.drop k ++ rest) := by
    rw [h, ← List.append_assoc, List.take_append_drop]
  have hoffset : c.atOffset k = c.tokenAt (c.position + (passed.take k).length) := by
    rw [atOffset, List.length_take_of_le hk, ← Int.natCast_add, Int.toNat_natCast]
  rw [hoffset, tokenAt_of_upcoming hsplit, ← List.head?_drop, List.drop_append_of_le_length hk]
  cases passed.drop k <;> rfl

/-- The upcoming tokens that are passed over, and the first one behind them that counts. -/
lemma upcoming_eq_append (c : Cursor) (ignored : List TokenKind) : ∃ passed rest,
    c.upcoming = passed ++ rest ∧ passed.length = c.ignoredCount ignored ∧
      (∀ u ∈ passed, u.kind ≠ .endOfFile ∧ u.kind ∈ ignored) ∧
      ∀ t ∈ rest.head?, t.kind = .endOfFile ∨ t.kind ∉ ignored := by
  let passes : Token → Bool := fun t => t.kind != .endOfFile && ignored.contains t.kind
  refine ⟨_, _, (List.takeWhile_append_dropWhile (p := passes)).symm, rfl, fun u hu => ?_,
    fun t ht => ?_⟩
  · simpa [passes] using List.mem_takeWhile_imp hu
  · have hnot := List.head?_dropWhile_not passes c.upcoming
    rw [Option.mem_def.1 ht] at hnot
    simpa [passes, Classical.or_iff_not_imp_left] using hnot

/-- Whatever the cursor and the ignored kinds, there is a token that counts: the last one is an end
of file. Counting the tokens before it finds it. -/
lemma exists_examines (c : Cursor) (ignored : List TokenKind) : ∃ passed,
    passed.length = c.ignoredCount ignored ∧
      c.Examines ignored passed (c.tokenAt (c.position + passed.length)) := by
  obtain ⟨passed, rest, hsplit, hlength, hpasses, hfirst⟩ := c.upcoming_eq_append ignored
  refine ⟨passed, hlength, ?_⟩
  rw [tokenAt_of_upcoming hsplit]
  have hdrop : c.tokens.drop c.clamped = passed ++ (rest ++ [c.last]) := by
    rw [drop_tokens, hsplit, List.append_assoc]
  have hshows := fun k (hk : k ≤ passed.length) => atOffset_of_upcoming hsplit hk
  cases rest with
  | nil => exact ⟨⟨[], hdrop⟩, hshows, hpasses, .inl c.last_kind⟩
  | cons t rest => exact ⟨⟨rest ++ [c.last], hdrop⟩, hshows, hpasses, hfirst t rfl⟩

end Cursor

namespace Parse

/-- What an expectation asks of a token. -/
def Expected.Admits : Expected → Token → Prop
  | .kinds ks, t => t.kind ∈ ks
  | .words ws, t => t.kind = .identifier ∧ t.value ∈ ws

variable {expected : Expected} {t : Token}

lemma Expected.isMet_iff : expected.isMet t ↔ expected.Admits t := by
  cases expected <;> simp [isMet, Admits]

instance : Decidable (expected.Admits t) := decidable_of_iff _ Expected.isMet_iff

/-- How an expectation ends, in terms of the token that it counts to. Only a mismatch that is fatal
fails, and it leaves the cursor alone. -/
lemma run_expectWith_options (expected : Expected) (options : ExpectOptions) (s : ParseState)
    {skipped : Nat} (hskipped : skipped = s.cursor.ignoredCount options.ignored)
    (ht : s.cursor.tokenAt (s.cursor.position + skipped) = t) :
    ((expectWith expected options).run s).1 =
        (if options.fatal ∧ ¬ expected.Admits t then .error (expected.mismatch t)
          else .ok (decide (expected.Admits t), t)) ∧
      ((expectWith expected options).run s).2.cursor =
        (if options.advance ∧ ¬ (options.fatal ∧ ¬ expected.Admits t) then
          { s.cursor with position := s.cursor.position + skipped + 1 } else s.cursor) := by
  obtain ⟨ignored, advance, fatal⟩ := options
  unfold expectWith
  rw [run_bind, run_cursor]
  simp only [← hskipped, ht]
  by_cases hadmits : expected.Admits t
  · rw [Expected.isMet_iff.2 hadmits]
    simp only [hadmits, not_true_eq_false, and_false, not_false_eq_true, and_true, if_false,
      decide_true]
    cases advance <;> exact ⟨rfl, rfl⟩
  · have hmiss : expected.isMet t = false := by rwa [← Bool.not_eq_true, Expected.isMet_iff]
    rw [hmiss]
    simp only [hadmits, not_false_eq_true, and_true, decide_false]
    cases advance <;> cases fatal <;> exact ⟨rfl, rfl⟩

/-- A look ahead leaves the cursor where it is, and taking the next token after it is decided by the
same token. -/
lemma exists_test_take (expected : Expected) (Fits : Token → Prop) [DecidablePred Fits]
    (hfits : ∀ t, expected.Admits t ↔ Fits t) (s : ParseState) :
    let test : Parse Bool := return (← expectWith expected .probe).1
    let take : Parse Token := return (← expectWith expected {}).2
    ∃ passed t, s.cursor.Examines [.whiteSpace, .lineBreak] passed t ∧
      (test.run s).1 = .ok (decide (Fits t)) ∧ (test.run s).2.cursor = s.cursor ∧
      (take.run (test.run s).2).1 =
        if Fits t then .ok t else .error (expected.mismatch t) := by
  intro test take
  obtain ⟨passed, hlength, hexamines⟩ := s.cursor.exists_examines [.whiteSpace, .lineBreak]
  obtain ⟨log, htest⟩ := run_test expected s
  rw [hlength, s.cursor.ignoredCount_layout, s.cursor.tokenAt_layoutCount] at hexamines
  have hmet : expected.isMet s.cursor.next = decide (Fits s.cursor.next) := by
    rw [Bool.eq_iff_iff, decide_eq_true_iff, Expected.isMet_iff, hfits]
  refine ⟨passed, s.cursor.next, hexamines, ?_, ?_, ?_⟩
  · rw [htest, hmet]
  · rw [htest]
  · rw [htest, run_take, apply_ite Prod.fst, hmet]
    simp only [decide_eq_true_eq]

/-- The contract of expectations, from every state, also from behind the end. They look at the first
token that counts, fail exactly when a mismatch is fatal, and only then or when they are told to
leave the cursor; otherwise they move it behind that token, as far as the token is from the current
one. So a check never moves the cursor, and it says whether the expectation that follows it takes
the token or fails. -/
theorem expectation_contract (s : ParseState) :
    (∀ (expected : Expected) (options : ExpectOptions), ∃ passed t,
      s.cursor.Examines options.ignored passed t ∧
        ((expectWith expected options).run s).1 =
          (if options.fatal ∧ ¬ expected.Admits t then .error (expected.mismatch t)
            else .ok (decide (expected.Admits t), t)) ∧
        ((expectWith expected options).run s).2.cursor =
          (if options.advance ∧ ¬ (options.fatal ∧ ¬ expected.Admits t) then
            { s.cursor with position := s.cursor.position + passed.length + 1 } else s.cursor)) ∧
      (∀ kinds, ∃ passed t, s.cursor.Examines [.whiteSpace, .lineBreak] passed t ∧
        ((check kinds).run s).1 = .ok (decide (t.kind ∈ kinds)) ∧
        ((check kinds).run s).2.cursor = s.cursor ∧
        ((expect kinds).run ((check kinds).run s).2).1 =
          (if t.kind ∈ kinds then .ok t else .error (.unexpectedKind kinds t))) ∧
      (∀ words, ∃ passed t, s.cursor.Examines [.whiteSpace, .lineBreak] passed t ∧
        ((checkWord words).run s).1 = .ok (decide (t.kind = .identifier ∧ t.value ∈ words)) ∧
        ((checkWord words).run s).2.cursor = s.cursor ∧
        ((expectWord words).run ((checkWord words).run s).2).1 =
          (if t.kind = .identifier ∧ t.value ∈ words then .ok t
            else .error (.unexpectedWord words t))) := by
  refine ⟨fun expected options => ?_, fun kinds => ?_, fun words => ?_⟩
  · obtain ⟨passed, hlength, hexamines⟩ := s.cursor.exists_examines options.ignored
    exact ⟨passed, _, hexamines, run_expectWith_options expected options s hlength rfl⟩
  · exact exists_test_take (.kinds kinds) (fun t => t.kind ∈ kinds) (fun _ => Iff.rfl) s
  · exact exists_test_take (.words words) (fun t => t.kind = .identifier ∧ t.value ∈ words)
      (fun _ => Iff.rfl) s

/-- The end of the file counts though it is ignored, and the cursor moves on from behind the end. -/
example :
    ((expectWith (.kinds [.endOfFile]) { ignored := [.endOfFile] }).run
      { cursor := { Cursor.ofTokens [] with position := 7 } }).2.cursor.position = 8 := by
  rfl

end Parse
end Exclaim
