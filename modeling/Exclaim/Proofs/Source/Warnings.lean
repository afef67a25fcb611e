import Exclaim.Proofs.Source.Gaps

/-! The warnings of a scanner: one for every character of a word that does not belong there, and
then at most one for what the source leaves open. Whatever lacks its end takes the rest of the
source, so nothing stands behind it. -/
namespace Exclaim

/-- The characters of a text that starts at byte `offset`, each with the byte it starts at. -/
def placed (offset : Nat) : List Char → List (Char × Nat)
  | [] => []
  | c :: cs => (c, offset) :: placed (offset + c.utf8Size) cs

/-- Whether a character is beyond ASCII and none that an identifier may go on with. -/
def isStranger (continues : Char → Bool) (c : Char) : Bool := 0x7f < c.toNat && !continues c

/-- Whether a byte belongs to an identifier. -/
def inWord (tokens : List Token) (offset : Nat) : Bool :=
  tokens.any fun t => t.kind == .identifier && t.span.start ≤ offset && offset < t.span.stop

/-- The characters of a text that do not belong in the identifiers they stand in, with their
places. -/
def misplaced (continues : Char → Bool) (tokens : List Token) (offset : Nat) (cs : List Char) :
    List (Char × Nat) :=
  (placed offset cs).filter fun found => isStranger continues found.1 && inWord tokens found.2

/-- The warning of a character that does not belong in a word, with its place. -/
def strangerWarning (found : Char × Nat) : Diagnostic :=
  Message.nonStandardCharacter.raise [String.ofList [found.1], codePoint found.1]
    (some ⟨found.2, found.1.utf8Size⟩)

/-- The text of a string is a quote by itself, or it does not end with the quote that opens it. -/
def Token.LacksEnd (source : List Char) (t : Token) : Prop :=
  ∃ text, Between source t.span.start t.span.stop text ∧
    (text.length = 1 ∨ text.getLast? ≠ text.head?)

/-- What a source leaves open, as a warning: its last string lacks its end, or a block comment that
stands behind the last token, and perhaps behind a gap, reaches up to the end. -/
inductive LeftOpen (source : List Char) (tokens : List Token) : Diagnostic → Prop
  | string {t : Token} (hlast : (tokens.filter (·.kind == .string)).getLast? = some t)
      (hopen : t.LacksEnd source) :
      LeftOpen source tokens (Message.unterminatedString.raise [] (some t.span))
  | comment {before gap body : List Char} (hsource : source = before ++ (gap ++ '/' :: '*' :: body))
      (hbefore : byteSize before = reached 0 tokens.dropLast) (hgap : Gap gap)
      (hbody : ¬ ['*', '/'] <:+: body) :
      LeftOpen source tokens (Message.unterminatedComment.raise []
        (some ⟨byteSize (before ++ gap), byteSize ('/' :: '*' :: body)⟩))

section Placed
variable {offset : Nat} {cs : List Char}

lemma placed_append (offset : Nat) (cs ds : List Char) :
    placed offset (cs ++ ds) = placed offset cs ++ placed (offset + byteSize cs) ds := by
  induction cs generalizing offset with
  | nil => simp [placed, byteSize]
  | cons c cs ih => simp [placed, ih, byteSize, Nat.add_assoc]

lemma bounds_of_mem_placed {found : Char × Nat} (h : found ∈ placed offset cs) :
    offset ≤ found.2 ∧ found.2 < offset + byteSize cs := by
  induction cs generalizing offset with
  | nil => simp [placed] at h
  | cons c cs ih =>
    have hpos := c.utf8Size_pos
    simp only [byteSize]
    rcases List.mem_cons.1 h with rfl | h
    · simp only
      omega
    · have := ih h
      omega

lemma inWord_append (ts us : List Token) (offset : Nat) :
    inWord (ts ++ us) offset = (inWord ts offset || inWord us offset) :=
  List.any_append

lemma inWord_of_outside {ts : List Token}
    (h : ∀ t ∈ ts, offset < t.span.start ∨ t.span.stop ≤ offset) : inWord ts offset = false := by
  refine List.any_eq_false.2 fun t ht => ?_
  have := h t ht
  simp only [Bool.and_eq_true, decide_eq_true_eq, not_and]
  omega

/-- Two texts with tokens of their own do not meddle with each other. -/
lemma misplaced_append {continues : Char → Bool} {ts us : List Token} {cs ds : List Char}
    (hts : ∀ t ∈ ts, t.span.stop ≤ offset + byteSize cs)
    (hus : ∀ u ∈ us, offset + byteSize cs ≤ u.span.start) :
    misplaced continues (ts ++ us) offset (cs ++ ds) =
      misplaced continues ts offset cs ++
        misplaced continues us (offset + byteSize cs) ds := by
  rw [misplaced, placed_append, List.filter_append]
  congr 1
  · refine List.filter_congr fun found hfound => ?_
    obtain ⟨-, hhigh⟩ := bounds_of_mem_placed hfound
    have hus : inWord us found.2 = false :=
      inWord_of_outside fun u hu => .inl (Nat.lt_of_lt_of_le hhigh (hus u hu))
    rw [inWord_append, hus, Bool.or_false]
  · refine List.filter_congr fun found hfound => ?_
    obtain ⟨hlow, -⟩ := bounds_of_mem_placed hfound
    have hts : inWord ts found.2 = false :=
      inWord_of_outside fun t ht => .inr (Nat.le_trans (hts t ht) hlow)
    rw [inWord_append, hts, Bool.false_or]

end Placed

namespace Piece

section Words
variable {continues : Char → Bool} {p : Piece} {ps : List Piece} {offset line : Nat} {t : Token}

lemma strangers_eq_filter (offset : Nat) (cs : List Char) :
    strangers continues offset cs =
      (placed offset cs).filter fun found => isStranger continues found.1 := by
  induction cs generalizing offset with
  | nil => rfl
  | cons c cs ih =>
    simp only [strangers, placed, List.filter_cons, ih]
    rfl

/-- All of a piece belongs to its token. -/
lemma misplaced_token? (p : Piece) (offset line : Nat) :
    misplaced continues (p.token? offset line).toList offset p.text =
      if p.kind?.map (·.1) = some .identifier then strangers continues offset p.text
      else [] := by
  have hin : ∀ found ∈ placed offset p.text, inWord (p.token? offset line).toList found.2 =
      decide (p.kind?.map (·.1) = some .identifier) := by
    intro found hfound
    obtain ⟨hlow, hhigh⟩ := bounds_of_mem_placed hfound
    cases hkind : p.kind? with
    | none => simp [inWord, token?, hkind]
    | some made => simp [inWord, token?, hkind, Span.stop, hlow, hhigh, beq_eq_decide]
  rw [misplaced, List.filter_congr fun found hfound => by rw [hin found hfound],
    strangers_eq_filter]
  split
  · next hkind => simp [hkind]
  · next hkind => simp [hkind]

lemma start_le_of_mem_tokens (h : t ∈ tokens offset line ps) : offset ≤ t.span.start := by
  obtain ⟨init, p, after, start, -, ht⟩ := exists_piece_of_mem_tokens h
  rw [span_of_token? ht]
  exact Nat.le_add_right _ _

lemma misplaced_cons (offset line : Nat) (p : Piece) (ps : List Piece) (rest : List Char) :
    misplaced continues (tokens offset line (p :: ps)) offset (p.text ++ rest) =
      misplaced continues (p.token? offset line).toList offset p.text ++
        misplaced continues (tokens (offset + byteSize p.text) (p.nextLine line) ps)
          (offset + byteSize p.text) rest := by
  refine misplaced_append (fun t ht => ?_) fun t ht => start_le_of_mem_tokens ht
  rw [span_of_token? (Option.mem_toList.1 ht)]
  rfl

end Words

section Open
variable {continues : Char → Bool} {c : Char} {cs : List Char} {p : Piece} {ps : List Piece}
  {offset line : Nat} {d : Diagnostic}

/-- The warning of a piece that lacks its end. -/
def openWarning? (p : Piece) (offset : Nat) : Option Diagnostic :=
  match p.form with
  | .quoted false =>
      some (Message.unterminatedString.raise [] (some ⟨offset, byteSize p.text⟩))
  | .blockComment false =>
      some (Message.unterminatedComment.raise [] (some ⟨offset, byteSize p.text⟩))
  | _ => none

lemma openWarning?_eq_some (h : p.openWarning? offset = some d) :
    p.form = .quoted false ∧
        d = Message.unterminatedString.raise [] (some ⟨offset, byteSize p.text⟩) ∨
      p.form = .blockComment false ∧
        d = Message.unterminatedComment.raise [] (some ⟨offset, byteSize p.text⟩) := by
  unfold openWarning? at h
  split at h
  · next hform => exact .inl ⟨hform, (Option.some.inj h).symm⟩
  · next hform => exact .inr ⟨hform, (Option.some.inj h).symm⟩
  · exact absurd h (by simp)

/-- A piece is warned of for its strange characters when it is an identifier, and for lacking its
end. -/
lemma warnings_eq (p : Piece) (offset line : Nat) :
    p.warnings continues offset =
      (misplaced continues (p.token? offset line).toList offset p.text).map strangerWarning ++
        (p.openWarning? offset).toList := by
  rw [misplaced_token?]
  obtain ⟨head, tail, form⟩ := p
  cases form with
  | lexeme kind operation =>
    by_cases hkind : kind = .identifier
    · simp [warnings, kind?, openWarning?, hkind, strangerWarning]
    · simp [warnings, kind?, openWarning?, hkind]
  | quoted closed => cases closed <;> simp [warnings, kind?, openWarning?]
  | blockComment closed => cases closed <;> simp [warnings, kind?, openWarning?]
  | _ => simp [warnings, kind?, openWarning?]

/-- What lacks its end takes the rest of the source. -/
lemma tail_of_quoted_open (h : first? c cs = some p) (hform : p.form = .quoted false) :
    p.tail = cs := by
  cases found_of_first? h with
  | quoted hc => exact throughQuote_open (Form.quoted.inj hform)
  | operator hfound =>
    obtain ⟨-, -, kind, operation, rfl, -⟩ := operator?_spec hfound
    exact absurd hform nofun
  | _ => exact absurd hform nofun

lemma tail_of_comment_open (h : first? c cs = some p) (hform : p.form = .blockComment false) :
    c = '/' ∧ ∃ body, cs = '*' :: body ∧ p.tail = cs ∧ ¬ ['*', '/'] <:+: body := by
  cases found_of_first? h with
  | blockComment hc hcs =>
    obtain ⟨body, rfl⟩ := List.head?_eq_some_iff.1 hcs
    have hclosed : (throughCommentEnd body).2 = false := Form.blockComment.inj hform
    obtain ⟨found, rest, hbody, ⟨htext, -⟩ | ⟨htext, rfl, -⟩⟩ := throughCommentEnd_spec body
    · simp [htext] at hclosed
    · exact ⟨hc, body, rfl, by simp [htext], hbody⟩
  | operator hfound =>
    obtain ⟨-, -, kind, operation, rfl, -⟩ := operator?_spec hfound
    exact absurd hform nofun
  | _ => exact absurd hform nofun

lemma tail_of_openWarning? (h : first? c cs = some p) (hopen : p.openWarning? offset = some d) :
    p.tail = cs := by
  rcases openWarning?_eq_some hopen with ⟨hform, -⟩ | ⟨hform, -⟩
  · exact tail_of_quoted_open h hform
  · obtain ⟨-, body, -, htail, -⟩ := tail_of_comment_open h hform
    exact htail

/-- No piece is left behind one that lacks its end. -/
lemma nil_of_openWarning? {rest : List Char} (h : first? p.head (p.tail ++ rest) = some p)
    (hrest : split rest = (ps, [])) (hopen : p.openWarning? offset = some d) :
    rest = [] ∧ ps = [] := by
  obtain rfl : rest = [] := by simpa using tail_of_openWarning? h hopen
  rw [split] at hrest
  exact ⟨rfl, (Prod.mk.inj hrest).1.symm⟩

/-- The warning of the last piece, if that lacks its end. -/
def lastWarning? (offset : Nat) (ps : List Piece) : Option Diagnostic :=
  ps.getLast?.bind fun p => p.openWarning? (offset + byteSize (joined ps.dropLast))

lemma lastWarning?_concat (offset : Nat) (ps : List Piece) (p : Piece) :
    lastWarning? offset (ps ++ [p]) = p.openWarning? (offset + byteSize (joined ps)) := by
  simp [lastWarning?]

lemma lastWarning?_cons (offset : Nat) (p : Piece) (hps : ps ≠ []) :
    lastWarning? offset (p :: ps) = lastWarning? (offset + byteSize p.text) ps := by
  obtain ⟨init, q, rfl⟩ := List.eq_nil_or_concat' ps |>.resolve_left hps
  rw [← List.cons_append, lastWarning?_concat, lastWarning?_concat, joined_cons, byteSize_append,
    Nat.add_assoc]

/-- Piece by piece, the warnings are those of strange characters in words, and nothing follows the
warning of what lacks its end. -/
lemma allWarnings_eq (h : split cs = (ps, [])) (offset line : Nat) :
    allWarnings continues offset ps =
      (misplaced continues (tokens offset line ps) offset cs).map strangerWarning ++
        (lastWarning? offset ps).toList := by
  induction ps generalizing cs offset line with
  | nil =>
    have hjoined := joined_split cs
    rw [h] at hjoined
    obtain rfl : [] = cs := hjoined
    rfl
  | cons p ps ih =>
    obtain ⟨rest, rfl, hp, hrest⟩ := split_eq_cons h
    rw [allWarnings, warnings_eq p offset line, ih hrest _ (p.nextLine line), misplaced_cons]
    cases hopen : p.openWarning? offset with
    | some d =>
      obtain ⟨rfl, rfl⟩ := nil_of_openWarning? hp hrest hopen
      simp [lastWarning?, byteSize, misplaced, placed, hopen]
    | none =>
      have hlast : lastWarning? offset (p :: ps) = lastWarning? (offset + byteSize p.text) ps := by
        by_cases hps : ps = []
        · subst hps
          simp [lastWarning?, byteSize, hopen]
        · exact lastWarning?_cons offset p hps
      rw [hlast]
      simp

lemma exists_concat_of_lastWarning? (h : lastWarning? offset ps = some d) :
    ∃ init p, ps = init ++ [p] ∧ p.openWarning? (offset + byteSize (joined init)) = some d := by
  obtain ⟨p, hp, hopen⟩ := Option.bind_eq_some_iff.1 h
  obtain ⟨init, rfl⟩ := List.getLast?_eq_some_iff.1 hp
  exact ⟨init, p, rfl, by simpa using hopen⟩

end Open

section LeftOpen
variable {source : List Char} {init after ps : List Piece} {p : Piece} {t last : Token}
  {d : Diagnostic}

/-- A text in quotes lacks its end when the quote that opens it does not close it too. -/
lemma lacksEnd_iff {quote : Char} {body : List Char} (hbody : quote ∉ body) (closed : Bool)
    {text : List Char} (htext : text = quote :: (body ++ if closed then [quote] else [])) :
    (text.length = 1 ∨ text.getLast? ≠ text.head?) ↔ closed = false := by
  subst htext
  cases closed with
  | true => simp [List.getLast?_cons]
  | false =>
    simp only [Bool.false_eq_true, if_false, List.append_nil, iff_true]
    rcases List.eq_nil_or_concat' body with rfl | ⟨front, c, rfl⟩
    · exact .inl rfl
    · refine .inr ?_
      have hc : c ≠ quote := by
        rintro rfl
        exact hbody (by simp)
      simpa [List.getLast?_cons] using hc

/-- Only texts in quotes make strings. -/
lemma exists_quoted_of_string {rest : List Char} (hp : p.Proper rest) {offset line : Nat}
    (ht : p.token? offset line = some t) (hkind : t.kind = .string) :
    ∃ closed, p.form = .quoted closed := by
  obtain ⟨made, hmade, rfl⟩ := Option.map_eq_some_iff.1 ht
  obtain ⟨head, tail, form⟩ := p
  cases form with
  | quoted closed => exact ⟨closed, rfl⟩
  | lexeme kind operation =>
    obtain rfl := Option.some.inj hmade
    obtain rfl : kind = .string := hkind
    exact absurd (by decide) hp
  | spaces =>
    obtain rfl := Option.some.inj hmade
    exact absurd hkind (by simp)
  | lineBreak =>
    obtain rfl := Option.some.inj hmade
    exact absurd hkind (by simp)
  | _ => exact absurd hmade nofun

/-- The token of a string lacks its end when its piece does. -/
lemma form_of_string (hsplit : split source = (init ++ p :: after, [])) {line : Nat}
    (ht : p.token? (byteSize (joined init)) line = some t) (hkind : t.kind = .string) :
    ∃ closed, p.form = .quoted closed ∧ (t.LacksEnd source ↔ closed = false) := by
  obtain ⟨rest, rfl, hrest⟩ := split_eq_append hsplit
  obtain ⟨rest, rfl, hp, -⟩ := split_eq_cons hrest
  obtain ⟨-, behind, -, hproper⟩ := first?_spec hp
  obtain ⟨closed, hform⟩ := exists_quoted_of_string hproper ht hkind
  refine ⟨closed, hform, ?_⟩
  rw [Proper, hform] at hproper
  obtain ⟨quote, body, -, hbody, htext⟩ := hproper
  have hplace : Between (joined init ++ (p.text ++ rest)) t.span.start t.span.stop p.text := by
    rw [span_of_token? ht]
    exact ⟨joined init, rest, by simp, rfl, rfl⟩
  rw [← lacksEnd_iff hbody closed htext]
  constructor
  · rintro ⟨found, hfound, hlacks⟩
    rwa [hfound.unique hplace] at hlacks
  · intro hlacks
    exact ⟨p.text, hplace, hlacks⟩

/-- The pieces without tokens before the last piece are the gap before it. -/
lemma leftOpen_of_comment (hsplit : split source = (init ++ [p], []))
    (hform : p.form = .blockComment false) :
    LeftOpen source (tokens 0 1 (init ++ [p]) ++ [last])
      (Message.unterminatedComment.raise [] (some ⟨byteSize (joined init), byteSize p.text⟩)) := by
  obtain ⟨first, skipped, rfl, hreached, hskipped⟩ := exists_append_of_reached 0 1 init
  rw [List.append_assoc] at hsplit
  obtain ⟨behind, rfl, hbehind⟩ := split_eq_append hsplit
  have hgap : Gap (joined skipped) := by
    have hcut := cut_split behind (by rw [hbehind])
    rw [hbehind] at hcut
    exact hcut.gap hskipped
  obtain ⟨rest, rfl, hrest⟩ := split_eq_append hbehind
  obtain ⟨nothing, rfl, hp, -⟩ := split_eq_cons hrest
  obtain ⟨hhead, body, hcs, htail, hbody⟩ := tail_of_comment_open hp hform
  obtain rfl : nothing = [] := by simpa using htail
  have htext : p.text = '/' :: '*' :: body := by rw [text, hhead, htail, hcs]
  rw [joined_append, htext, List.append_nil]
  refine .comment rfl ?_ hgap hbody
  have hkind : p.kind? = none := by simp [kind?, hform]
  rw [List.dropLast_concat, tokens_append]
  simpa [tokens, token?, hkind] using hreached.symm

lemma lastWarning?_of_comment {before gap body : List Char} (hgap : Gap gap)
    (hbody : ¬ ['*', '/'] <:+: body) (hbefore : byteSize before = reached 0 (tokens 0 1 ps))
    (hsplit : split (before ++ (gap ++ '/' :: '*' :: body)) = (ps, [])) :
    lastWarning? 0 ps = some (Message.unterminatedComment.raise []
      (some ⟨byteSize (before ++ gap), byteSize ('/' :: '*' :: body)⟩)) := by
  obtain ⟨first, behind, rfl, hreached, -⟩ := exists_append_of_reached 0 1 ps
  obtain ⟨rest, hcut, hrest⟩ := split_eq_append hsplit
  rw [hreached, Nat.zero_add] at hbefore
  obtain ⟨rfl, rfl⟩ := append_inj_of_byteSize_eq hcut hbefore
  have hhead : ('/' :: '*' :: body).head? ≠ some '\n' := by simp
  obtain ⟨skipped, rfl, hpieces⟩ := split_gap hgap hhead
  rw [split_comment_open hbody, hrest] at hpieces
  obtain ⟨rfl, -⟩ := Prod.mk.inj hpieces
  rw [← List.append_assoc, lastWarning?_concat, Nat.zero_add, joined_append]
  rfl

section EndOfFile
variable (hlast : last.kind = .endOfFile)
include hlast

lemma leftOpen_of_quoted (hsplit : split source = (init ++ [p], []))
    (hform : p.form = .quoted false) :
    LeftOpen source (tokens 0 1 (init ++ [p]) ++ [last])
      (Message.unterminatedString.raise [] (some ⟨byteSize (joined init), byteSize p.text⟩)) := by
  obtain ⟨t, ht, hkind⟩ : ∃ t, p.token? (byteSize (joined init)) (lastLine 1 init) = some t ∧
      t.kind = .string := by
    simp [token?, kind?, hform]
  obtain ⟨closed, hclosed, hlacks⟩ := form_of_string hsplit ht hkind
  rw [← span_of_token? ht]
  refine .string ?_ (hlacks.2 (Form.quoted.inj (hclosed.symm.trans hform)))
  simp [tokens_append, tokens, ht, hkind, hlast]

lemma leftOpen_of_lastWarning? (hsplit : split source = (ps, []))
    (h : lastWarning? 0 ps = some d) : LeftOpen source (tokens 0 1 ps ++ [last]) d := by
  obtain ⟨init, p, rfl, hopen⟩ := exists_concat_of_lastWarning? h
  rw [Nat.zero_add] at hopen
  rcases openWarning?_eq_some hopen with ⟨hform, rfl⟩ | ⟨hform, rfl⟩
  · exact leftOpen_of_quoted hlast hsplit hform
  · exact leftOpen_of_comment hsplit hform

lemma lastWarning?_of_string (hsplit : split source = (ps, []))
    (hmem : t ∈ tokens 0 1 ps ++ [last]) (hkind : t.kind = .string) (hopen : t.LacksEnd source) :
    lastWarning? 0 ps = some (Message.unterminatedString.raise [] (some t.span)) := by
  have hfound : t ∈ tokens 0 1 ps := by
    rcases List.mem_append.1 hmem with hmem | hmem
    · exact hmem
    · rw [List.mem_singleton.1 hmem, hlast] at hkind
      exact absurd hkind (by decide)
  obtain ⟨init, p, after, line, rfl, ht⟩ := exists_piece_of_mem_tokens hfound
  rw [Nat.zero_add] at ht
  obtain ⟨closed, hform, hlacks⟩ := form_of_string hsplit ht hkind
  obtain rfl := hlacks.1 hopen
  have hwarned : p.openWarning? (byteSize (joined init)) =
      some (Message.unterminatedString.raise [] (some t.span)) := by
    simp [openWarning?, hform, span_of_token? ht]
  obtain ⟨rest, -, hrest⟩ := split_eq_append hsplit
  obtain ⟨rest, -, hp, hafter⟩ := split_eq_cons hrest
  obtain ⟨-, rfl⟩ := nil_of_openWarning? hp hafter hwarned
  rw [lastWarning?_concat, Nat.zero_add, hwarned]

lemma lastWarning?_of_leftOpen (hsplit : split source = (ps, []))
    (h : LeftOpen source (tokens 0 1 ps ++ [last]) d) : lastWarning? 0 ps = some d := by
  cases h with
  | @string t htokens hopen =>
    obtain ⟨hmem, hkind⟩ := List.mem_filter.1 (List.mem_of_getLast? htokens)
    exact lastWarning?_of_string hlast hsplit hmem (beq_iff_eq.1 hkind) hopen
  | @comment before gap body hsource hbefore hgap hbody =>
    rw [List.dropLast_concat] at hbefore
    exact lastWarning?_of_comment hgap hbody hbefore (hsource ▸ hsplit)

end EndOfFile
end LeftOpen
end Piece

section Read
variable {continues : Char → Bool} {source : String} {tokens : List Token} {s : Scanner}

lemma Scanner.split_of_tokenize_ok
    (h : (Scanner.ofString source continues).tokenize = (.ok tokens, s)) :
    ∃ ps last, Piece.split source.toList = (ps, []) ∧ last.kind = .endOfFile ∧
      tokens = Piece.tokens 0 1 ps ++ [last] ∧
      s.warnings = Piece.allWarnings continues 0 ps := by
  rcases hsplit : Piece.split source.toList with ⟨ps, _ | ⟨c, rest⟩⟩
  · simp only [tokenize, ofString, hsplit, take, List.nil_append] at h
    obtain ⟨htokens, rfl⟩ := Prod.mk.inj h
    exact ⟨ps, _, rfl, rfl, (Except.ok.inj htokens).symm, rfl⟩
  · simp [tokenize, ofString, hsplit] at h

lemma misplaced_endOfFile {last : Token} (h : last.kind = .endOfFile) (tokens : List Token)
    (offset : Nat) (cs : List Char) :
    misplaced continues (tokens ++ [last]) offset cs = misplaced continues tokens offset cs := by
  have hnone : ∀ n, inWord [last] n = false := fun n => by
    simp [inWord, h, show (TokenKind.endOfFile == .identifier) = false from rfl]
  simp [misplaced, inWord_append, hnone]

/-- The warnings of a source that can be read. First, in the order of the source, comes one for each
character in an identifier that is beyond ASCII and that no identifier may go on with, whichever
characters those are. Then comes one more exactly when the source leaves something open, and nothing
follows that. -/
theorem scanner_warnings
    (h : (Scanner.ofString source continues).tokenize = (.ok tokens, s)) :
    ∃ last : Option Diagnostic,
      s.warnings =
        (misplaced continues tokens 0 source.toList).map strangerWarning ++ last.toList ∧
      ∀ d, last = some d ↔ LeftOpen source.toList tokens d := by
  obtain ⟨ps, last, hsplit, hlast, rfl, hwarnings⟩ := Scanner.split_of_tokenize_ok h
  refine ⟨Piece.lastWarning? 0 ps, ?_, fun d => ⟨?_, ?_⟩⟩
  · rw [hwarnings, misplaced_endOfFile hlast, Piece.allWarnings_eq hsplit 0 1]
  · exact Piece.leftOpen_of_lastWarning? hlast hsplit
  · exact Piece.lastWarning?_of_leftOpen hlast hsplit

end Read

/-- A character that no identifier may go on with stands in two words, in a string and in a comment
that lacks its end. -/
theorem scanner_warnings_comment :
    ∃ tokens s, (Scanner.ofString "a€'€'\t€//\r/*€").tokenize = (.ok tokens, s) ∧
      s.warnings.map (·.code) = [1129, 1129, 1010] ∧
      ∃ last : Option Diagnostic,
        s.warnings =
          (misplaced IdentifierClass.continues tokens 0 "a€'€'\t€//\r/*€".toList).map
            strangerWarning ++ last.toList ∧
        ∀ d, last = some d ↔ LeftOpen "a€'€'\t€//\r/*€".toList tokens d := by
  have hread : (Scanner.ofString "a€'€'\t€//\r/*€").tokenize.1.toOption.isSome ∧
      (Scanner.ofString "a€'€'\t€//\r/*€").tokenize.2.warnings.map (·.code) =
        [1129, 1129, 1010] := by decide +kernel
  rcases h : (Scanner.ofString "a€'€'\t€//\r/*€").tokenize with ⟨e | tokens, s⟩
  · simp [h, Except.toOption] at hread
  · rw [h] at hread
    exact ⟨tokens, s, rfl, hread.2, scanner_warnings h⟩

end Exclaim
