import Mathlib.Logic.Relation
import Exclaim.Proofs.Source.Pieces

/-! Reading a source piece by piece. What holds at the start and is kept by every step holds of all
tokens that are found. -/
namespace Exclaim

namespace Piece

section Split
variable {c : Char} {cs : List Char} {p : Piece}

lemma split_of_none (h : first? c cs = none) : split (c :: cs) = ([], c :: cs) := by
  rw [split, h]

lemma split_of_some (h : first? c cs = some p) :
    split (c :: cs) = (p :: (split (cs.drop p.tail.length)).1,
      (split (cs.drop p.tail.length)).2) := by
  rw [split, h]

end Split
end Piece

namespace Scanner

/-- The scanner moved over one piece; none when its rest starts with none. -/
def step? (s : Scanner) : Option Scanner :=
  match s.rest with
  | [] => none
  | c :: cs => (Piece.first? c cs).map fun p => s.take [p] (cs.drop p.tail.length)

/-- One scanner comes from another by some number of steps. -/
abbrev Steps : Scanner → Scanner → Prop := Relation.ReflTransGen fun s s' => s.step? = some s'

section Steps
variable {s s' : Scanner}

lemma take_nil (s : Scanner) : s.take [] s.rest = s := by
  simp [take, Piece.joined, byteSize, Piece.lastLine, Piece.tokens, Piece.allWarnings,
    Piece.allRecords]

lemma take_cons (s : Scanner) (p : Piece) (ps : List Piece) (middle rest : List Char) :
    s.take (p :: ps) rest = (s.take [p] middle).take ps rest := by
  simp [take, Piece.joined, Piece.lastLine, Piece.tokens, Piece.allWarnings, Piece.allRecords,
    Nat.add_assoc]

/-- What a step does: it passes the piece that the rest starts with. -/
lemma step?_eq_some (h : s.step? = some s') :
    ∃ c cs p, s.rest = c :: cs ∧ Piece.first? c cs = some p ∧ c :: cs = p.text ++ s'.rest ∧
      s'.rest = cs.drop p.tail.length ∧ s' = s.take [p] s'.rest := by
  unfold step? at h
  split at h
  · exact absurd h (by simp)
  · next c cs hrest =>
    obtain ⟨p, hp, rfl⟩ := Option.map_eq_some_iff.1 h
    obtain ⟨rfl, tail, rfl, -⟩ := Piece.first?_spec hp
    exact ⟨p.head, _, p, hrest, hp, by simp [take, Piece.text], rfl, rfl⟩

/-- A step leaves to be done what is left of the same reading. -/
lemma tokenize_step (h : s.step? = some s') : s'.tokenize = s.tokenize := by
  obtain ⟨c, cs, p, hrest, hp, -, hdrop, htake⟩ := step?_eq_some h
  have hsplit : Piece.split s.rest = (p :: (Piece.split s'.rest).1, (Piece.split s'.rest).2) := by
    rw [hrest, Piece.split_of_some hp, hdrop]
  have hmoved : ∀ ps rest, s.take (p :: ps) rest = s'.take ps rest := by
    intro ps rest
    rw [take_cons s p ps s'.rest, ← htake]
  simp only [tokenize, hsplit, hmoved]

lemma Steps.tokenize_eq (h : Steps s s') : s'.tokenize = s.tokenize := by
  induction h with
  | refl => rfl
  | tail _ hstep ih => rw [tokenize_step hstep, ih]

/-- Reading takes steps until none is left. -/
lemma steps_take_split (s : Scanner) :
    Steps s (s.take (Piece.split s.rest).1 (Piece.split s.rest).2) := by
  generalize hcs : s.rest = cs
  induction cs using Piece.split.induct generalizing s with
  | case1 =>
    have hs := take_nil s
    rw [hcs] at hs
    rw [Piece.split, hs]
  | case2 c cs hp =>
    have hs := take_nil s
    rw [hcs] at hs
    rw [Piece.split_of_none hp, hs]
  | case3 c cs p hp ih =>
    have hstep : s.step? = some (s.take [p] (cs.drop p.tail.length)) := by
      simp only [step?, hcs, hp, Option.map_some]
    have hrest := ih (s.take [p] (cs.drop p.tail.length)) rfl
    rw [← take_cons] at hrest
    rw [Piece.split_of_some hp]
    exact .head hstep hrest

lemma steps_of_tokenize_ok {tokens : List Token} (h : s.tokenize = (.ok tokens, s')) :
    ∃ last, Steps s last ∧ last.rest = [] ∧ s'.line = last.line ∧
      tokens = last.held ++ [Token.endOfFile last.offset last.line] := by
  refine ⟨_, steps_take_split s, ?_⟩
  unfold tokenize at h
  cases hrest : (Piece.split s.rest).2 with
  | nil =>
    simp only [hrest] at h
    obtain ⟨htokens, rfl⟩ := Prod.mk.inj h
    exact ⟨rfl, rfl, (Except.ok.inj htokens).symm⟩
  | cons c cs => simp [hrest] at h

lemma steps_of_tokenize_error {e : ScanError} (h : s.tokenize = (.error e, s')) :
    Steps s s' ∧ e.offset = s'.offset ∧ e.line = s'.line := by
  have hsteps := steps_take_split s
  unfold tokenize at h
  cases hrest : (Piece.split s.rest).2 with
  | nil => simp [hrest] at h
  | cons c cs =>
    rw [hrest] at hsteps
    simp only [hrest] at h
    obtain ⟨he, rfl⟩ := Prod.mk.inj h
    obtain rfl := Except.error.inj he
    exact ⟨hsteps, rfl, rfl⟩

end Steps
end Scanner

/-- A token stands in a source when it is the piece that the source starts with from some place
on. -/
def Token.StandsIn (source : List Char) (t : Token) : Prop :=
  ∃ before c cs p line, source = before ++ c :: cs ∧ Piece.first? c cs = some p ∧
    p.token? (byteSize before) line = some t

namespace Scanner

/-- The scanner has passed a first part of the source, and its tokens stand in the source. -/
def Follows (source : List Char) (s : Scanner) : Prop :=
  (∃ before, source = before ++ s.rest ∧ s.offset = byteSize before) ∧
    ∀ t ∈ s.held, t.StandsIn source

lemma follows_ofString (source : String) : Follows source.toList (ofString source) :=
  ⟨⟨[], rfl, rfl⟩, by simp [ofString]⟩

section Follows
variable {source : List Char} {s s' : Scanner}

lemma Follows.step (h : Follows source s) (hstep : s.step? = some s') : Follows source s' := by
  obtain ⟨⟨before, hsource, hoffset⟩, hheld⟩ := h
  obtain ⟨c, cs, p, hrest, hp, htext, -, htake⟩ := step?_eq_some hstep
  constructor
  · refine ⟨before ++ p.text, ?_, ?_⟩
    · rw [hsource, hrest, htext, List.append_assoc]
    · rw [htake, byteSize_append, ← hoffset]
      simp [take, Piece.joined]
  · intro t ht
    rw [htake] at ht
    simp only [take, Piece.tokens, List.append_nil, List.mem_append, Option.mem_toList] at ht
    rcases ht with ht | ht
    · exact hheld t ht
    · rw [hrest] at hsource
      rw [hoffset] at ht
      exact ⟨before, c, cs, p, s.line, hsource, hp, ht⟩

lemma Follows.steps (h : Follows source s) (hsteps : Steps s s') : Follows source s' := by
  induction hsteps with
  | refl => exact h
  | tail _ hstep ih => exact ih.step hstep

end Follows
end Scanner

/-- All tokens of a source but its end stand in it. -/
lemma standsIn_of_tokenize {source : String} {tokens : List Token}
    (h : tokenize source = .ok tokens) {t : Token} (ht : t ∈ tokens) :
    t.StandsIn source.toList ∨ ∃ position line, t = .endOfFile position line := by
  obtain ⟨last, hsteps, -, -, rfl⟩ := Scanner.steps_of_tokenize_ok (Prod.ext h rfl)
  have hlast := (Scanner.follows_ofString source).steps hsteps
  rcases List.mem_append.1 ht with ht | ht
  · exact .inl (hlast.2 t ht)
  · exact .inr ⟨_, _, List.mem_singleton.1 ht⟩

end Exclaim
