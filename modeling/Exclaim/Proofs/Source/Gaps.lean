import Mathlib.Data.List.Induction
import Exclaim.Proofs.Source.Alone
import Exclaim.Proofs.Source.Coverage
import Exclaim.Proofs.Source.LineCount

/-! Runs of pieces. A run can be taken apart at any place, what is left of it is the run of the text
behind that place, and the gap behind the last token is read as pieces that are skipped. -/
namespace Exclaim

/-- Two bytes of a source have one text between them. -/
lemma Between.unique {source text text' : List Char} {start stop : Nat}
    (h : Between source start stop text) (h' : Between source start stop text') : text = text' := by
  obtain ⟨before, after, hsource, hbefore, hstop⟩ := h
  obtain ⟨before', after', hsource', hbefore', hstop'⟩ := h'
  rw [hsource, List.append_assoc, List.append_assoc] at hsource'
  obtain ⟨-, hrest⟩ := append_inj_of_byteSize_eq hsource' (hbefore.trans hbefore'.symm)
  exact (append_inj_of_byteSize_eq hrest (by omega)).1

section Gaps
variable {gap part : List Char}

lemma Gap.cons (hpart : Skippable part) (h : Gap gap) : Gap (part ++ gap) := by
  obtain ⟨parts, rfl, hparts⟩ := h
  exact ⟨part :: parts, rfl, List.forall_mem_cons.2 ⟨hpart, hparts⟩⟩

lemma Skippable.ne_nil (h : Skippable part) : part ≠ [] := by
  cases h <;> exact nofun

/-- Of what is skipped, only a line feed by itself starts with one. -/
lemma Skippable.eq_lineFeed (h : Skippable part) (hhead : part.head? = some '\n') :
    part = ['\n'] := by
  cases h with
  | lineFeed => rfl
  | tab => simp at hhead
  | lineComment hbody hending => simp at hhead
  | blockComment hbody => simp at hhead

lemma Gap.tail_of_lineFeed (h : Gap ('\n' :: gap)) : Gap gap := by
  obtain ⟨parts, hcs, hparts⟩ := h
  cases parts with
  | nil => simp at hcs
  | cons part parts =>
    obtain ⟨hpart, hrest⟩ := List.forall_mem_cons.1 hparts
    have hhead : part.head? = some '\n' := by
      rw [← List.head?_append_of_ne_nil part hpart.ne_nil, ← List.flatten_cons, ← hcs]
      rfl
    rw [hpart.eq_lineFeed hhead] at hcs
    exact ⟨parts, (List.cons.inj hcs).2, hrest⟩

end Gaps

namespace Piece

section Runs
variable {cs left : List Char} {p : Piece} {ps qs : List Piece} {offset line : Nat} {t : Token}

@[simp] lemma joined_nil : joined [] = [] := rfl

@[simp] lemma joined_cons (p : Piece) (ps : List Piece) :
    joined (p :: ps) = p.text ++ joined ps := by
  simp [joined]

@[simp] lemma joined_append (ps qs : List Piece) : joined (ps ++ qs) = joined ps ++ joined qs := by
  simp [joined]

lemma tokens_append (offset line : Nat) (ps qs : List Piece) :
    tokens offset line (ps ++ qs) =
      tokens offset line ps ++ tokens (offset + byteSize (joined ps)) (lastLine line ps) qs := by
  induction ps generalizing offset line with
  | nil => simp [tokens, byteSize, lastLine]
  | cons p ps ih => simp [tokens, ih, lastLine, Nat.add_assoc]

/-- A token of a run is the token of one of its pieces. -/
lemma exists_piece_of_mem_tokens (h : t ∈ tokens offset line ps) :
    ∃ init p after start, ps = init ++ p :: after ∧
      p.token? (offset + byteSize (joined init)) start = some t := by
  induction ps generalizing offset line with
  | nil => simp [tokens] at h
  | cons p ps ih =>
    rcases List.mem_append.1 h with h | h
    · exact ⟨[], p, ps, line, rfl, by simpa [byteSize] using h⟩
    · obtain ⟨init, q, after, start, rfl, ht⟩ := ih h
      exact ⟨p :: init, q, after, start, rfl, by simpa [Nat.add_assoc] using ht⟩

/-- Behind the piece on which the last token stands there are pieces without tokens only. -/
lemma exists_append_of_reached (offset line : Nat) (ps : List Piece) :
    ∃ first rest, ps = first ++ rest ∧
      reached offset (tokens offset line ps) = offset + byteSize (joined first) ∧
      ∀ p ∈ rest, p.kind? = none := by
  induction ps using List.reverseRecOn with
  | nil => exact ⟨[], [], rfl, rfl, by simp⟩
  | append_singleton ps p ih =>
    rw [tokens_append]
    cases hkind : p.kind? with
    | none =>
      obtain ⟨first, rest, rfl, hreached, hrest⟩ := ih
      refine ⟨first, rest ++ [p], by simp, ?_, ?_⟩
      · simpa [tokens, token?, hkind] using hreached
      · simpa [or_imp, forall_and, hkind] using hrest
    | some made =>
      refine ⟨ps ++ [p], [], by simp, ?_, by simp⟩
      simp [tokens, token?, hkind, reached, Span.stop, Nat.add_assoc]

/-- The first piece of a run is the one that its text starts with. -/
lemma split_eq_cons (h : split cs = (p :: ps, left)) :
    ∃ rest, cs = p.text ++ rest ∧ first? p.head (p.tail ++ rest) = some p ∧
      split rest = (ps, left) := by
  cases cs with
  | nil => simp [split] at h
  | cons c cs =>
    cases hp : first? c cs with
    | none => simp [split_of_none hp] at h
    | some q =>
      rw [split_of_some hp] at h
      obtain ⟨hpieces, hleft⟩ := Prod.mk.inj h
      obtain ⟨rfl, hps⟩ := List.cons.inj hpieces
      obtain ⟨rfl, rest, rfl, -⟩ := first?_spec hp
      rw [List.drop_left] at hps hleft
      exact ⟨rest, rfl, hp, Prod.ext hps hleft⟩

lemma split_eq_append (h : split cs = (ps ++ qs, left)) :
    ∃ rest, cs = joined ps ++ rest ∧ split rest = (qs, left) := by
  induction ps generalizing cs with
  | nil => exact ⟨cs, rfl, h⟩
  | cons p ps ih =>
    obtain ⟨rest, rfl, -, hrest⟩ := split_eq_cons h
    obtain ⟨rest, rfl, hqs⟩ := ih hrest
    exact ⟨rest, by simp, hqs⟩

/-- Pieces without tokens that stand before another piece are a gap. -/
lemma Cut.gap (h : Cut cs (ps ++ p :: qs)) (hps : ∀ q ∈ ps, q.kind? = none) : Gap (joined ps) := by
  induction ps generalizing cs with
  | nil => exact gap_nil
  | cons q ps ih =>
    obtain ⟨hq, hrest⟩ := List.forall_mem_cons.1 hps
    cases h with
    | @cons _ rest _ hproper hcut =>
      have hnone : q.token? 0 0 = none := by rw [token?, hq, Option.map_none]
      rcases skipped_of_token? hproper hnone with hskip | ⟨-, rfl⟩
      · rw [joined_cons]
        exact (ih hcut hrest).cons hskip
      · simpa [text] using hcut.joined_eq

end Runs

section Comments
variable {body rest : List Char}

/-- A block comment ends at the first place where it can. -/
lemma throughCommentEnd_of_not_infix (h : ¬ ['*', '/'] <:+: body) (rest : List Char) :
    throughCommentEnd (body ++ '*' :: '/' :: rest) = (body ++ ['*', '/'], true) := by
  induction body with
  | nil => rfl
  | cons c body ih =>
    obtain ⟨hfirst, hbody⟩ := not_or.1 (mt List.infix_cons_iff.2 h)
    have hend : ¬ (c = '*' ∧ (body ++ '*' :: '/' :: rest).head? = some '/') := by
      rintro ⟨rfl, hhead⟩
      cases body with
      | nil => simp at hhead
      | cons d body =>
        obtain rfl : d = '/' := by simpa using hhead
        exact hfirst (by simp)
    rw [List.cons_append, throughCommentEnd_cons, if_neg hend, ih hbody]
    rfl

lemma throughCommentEnd_open (h : ¬ ['*', '/'] <:+: body) :
    throughCommentEnd body = (body, false) := by
  obtain ⟨found, rest, -, ⟨-, hbody⟩ | ⟨htext, rfl, -⟩⟩ := throughCommentEnd_spec body
  · exact absurd ⟨found, rest, hbody.symm⟩ h
  · exact htext

/-- A block comment that lacks its end is all that is read. -/
lemma split_comment_open (h : ¬ ['*', '/'] <:+: body) :
    split ('/' :: '*' :: body) = ([⟨'/', '*' :: body, .blockComment false⟩], []) := by
  have hfirst : first? '/' ('*' :: body) = some ⟨'/', '*' :: body, .blockComment false⟩ := by
    rw [first?_blockComment rfl, List.tail_cons, throughCommentEnd_open h]
  rw [split_of_some hfirst, List.drop_length, split]

lemma throughLineEnding_append (h : ∀ c ∈ body, c ≠ '\r' ∧ c ≠ '\n') (cs : List Char) :
    throughLineEnding (body ++ cs) = body ++ throughLineEnding cs := by
  induction body with
  | nil => rfl
  | cons c body ih =>
    obtain ⟨⟨hr, hn⟩, hbody⟩ := List.forall_mem_cons.1 h
    rw [List.cons_append, throughLineEnding_cons _ hr hn, ih hbody]
    rfl

end Comments

section Skipped
variable {gap rest : List Char}

/-- A carriage return at the end of a line comment takes a line feed along, which belongs to the gap
too when the text behind the gap starts with none. -/
lemma exists_throughLineEnding_of_gap {ending : List Char}
    (hending : ending ∈ [['\r'], ['\n'], ['\r', '\n']]) (h : Gap gap)
    (hrest : rest.head? ≠ some '\n') :
    ∃ taken after, ending ++ gap = taken ++ after ∧ Gap after ∧
      throughLineEnding (ending ++ (gap ++ rest)) = taken := by
  have hcases : ending = ['\r'] ∨ ending = ['\n'] ∨ ending = ['\r', '\n'] := by
    simpa using hending
  rcases hcases with rfl | rfl | rfl
  · by_cases hhead : (gap ++ rest).head? = some '\n'
    · cases gap with
      | nil => exact absurd hhead hrest
      | cons c gap =>
        obtain rfl : c = '\n' := by simpa using hhead
        exact ⟨['\r', '\n'], gap, rfl, h.tail_of_lineFeed, by simp [throughLineEnding_return,
          lineEnding_return]⟩
    · refine ⟨['\r'], gap, rfl, h, ?_⟩
      rw [List.singleton_append, throughLineEnding_return, lineEnding_return, if_neg hhead]
  · exact ⟨['\n'], gap, rfl, h, throughLineEnding_feed _⟩
  · refine ⟨['\r', '\n'], gap, rfl, h, ?_⟩
    simp [throughLineEnding_return, lineEnding_return]

/-- A gap starts with a piece that is skipped, and behind that a gap is left. -/
lemma exists_first?_of_gap (h : Gap gap) (hne : gap ≠ []) (hrest : rest.head? ≠ some '\n') :
    ∃ p after, gap = p.text ++ after ∧ Gap after ∧
      first? p.head (p.tail ++ (after ++ rest)) = some p := by
  obtain ⟨parts, rfl, hparts⟩ := h
  cases parts with
  | nil => exact absurd rfl hne
  | cons part parts =>
    obtain ⟨hpart, hafter⟩ := List.forall_mem_cons.1 hparts
    have hgap : Gap parts.flatten := ⟨parts, rfl, hafter⟩
    rw [List.flatten_cons]
    cases hpart with
    | lineFeed =>
      have hblank := first?_blank (.inl rfl) (parts.flatten ++ rest)
      exact ⟨⟨'\n', [], .blank⟩, parts.flatten, rfl, hgap, hblank⟩
    | tab =>
      have hblank := first?_blank (.inr rfl) (parts.flatten ++ rest)
      exact ⟨⟨'\t', [], .blank⟩, parts.flatten, rfl, hgap, hblank⟩
    | @lineComment body ending hbody hending =>
      obtain ⟨taken, after, hcut, hgap, htaken⟩ :=
        exists_throughLineEnding_of_gap hending hgap hrest
      refine ⟨⟨'/', '/' :: (body ++ taken), .lineComment⟩, after, ?_, hgap, ?_⟩
      · simp [text, hcut]
      · have hline : throughLineEnding ('/' :: (body ++ (taken ++ (after ++ rest)))) =
            '/' :: (body ++ taken) := by
          rw [throughLineEnding_cons _ (by decide) (by decide), throughLineEnding_append hbody,
            ← List.append_assoc taken, ← hcut, List.append_assoc, htaken]
        simp only [List.cons_append, List.append_assoc]
        rw [first?_lineComment rfl, hline]
    | @blockComment body hbody =>
      refine ⟨⟨'/', '*' :: (body ++ ['*', '/']), .blockComment true⟩, parts.flatten, rfl, hgap, ?_⟩
      simp only [List.cons_append, List.append_assoc, List.nil_append]
      rw [first?_blockComment rfl, List.tail_cons, throughCommentEnd_of_not_infix hbody]

/-- A gap is cut by itself, and what stands behind it as if it stood alone. -/
lemma split_gap (h : Gap gap) (hrest : rest.head? ≠ some '\n') :
    ∃ ps, joined ps = gap ∧ split (gap ++ rest) = (ps ++ (split rest).1, (split rest).2) := by
  induction hn : gap.length using Nat.strong_induction_on generalizing gap with
  | _ n ih =>
    by_cases hne : gap = []
    · subst hne
      exact ⟨[], rfl, rfl⟩
    · obtain ⟨p, after, rfl, hafter, hp⟩ := exists_first?_of_gap h hne hrest
      have hlt : after.length < n := by
        simp only [← hn, text, List.length_append, List.length_cons]
        omega
      obtain ⟨ps, hjoined, hsplit⟩ := ih after.length hlt hafter rfl
      refine ⟨p :: ps, by rw [joined_cons, hjoined], ?_⟩
      simp only [text, List.cons_append, List.append_assoc]
      rw [split_of_some hp, List.drop_left, hsplit]

end Skipped
end Piece
end Exclaim
