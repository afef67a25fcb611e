import Mathlib.Tactic.MkIffOfInductiveProp
import Exclaim.Proofs.Source.Steps

/-! Characters that start no piece. The pieces before such a character end before it and do not
depend on what stands behind them, so the failure to read a source is a matter of the text up to
that character alone. -/
namespace Exclaim

namespace Piece

/-- No piece starts with the character, and only comments and quotations go on with it. -/
@[mk_iff] structure IsStray (c : Char) : Prop where
  notMark : ∀ entry ∈ symbols ++ Operator.table, c ∉ entry.1.toList
  notDelimiter : c ∉ ['\x27', '\x22', ' ', '\r', '\n', '\t']
  notDigit : c.isDigit = false
  notWord : isWordChar c = false

instance : DecidablePred IsStray := fun c => decidable_of_iff _ (isStray_iff c).symm

/-- A text that is empty or starts with a stray character. -/
def Blocked (cs : List Char) : Prop := ∀ c ∈ cs.head?, IsStray c

section Stray
variable {c d : Char} {cs rest : List Char}

lemma blocked_nil : Blocked [] := by simp [Blocked]

lemma IsStray.blocked (h : IsStray d) (rest : List Char) : Blocked (d :: rest) := by
  simpa [Blocked] using h

lemma IsStray.ne (h : IsStray d) {e : Char} (he : ¬ IsStray e) : d ≠ e := by
  rintro rfl
  exact he h

section NotMark
variable (h : ∀ entry ∈ symbols ++ Operator.table, c ∉ entry.1.toList)
include h

/-- No mark starts with a character that no mark holds. -/
lemma not_starts_of_notMark {entry : String × TokenKind}
    (hentry : entry ∈ symbols ++ Operator.table) : ¬ entry.1.toList <+: c :: cs := by
  have hne : ∀ entry ∈ symbols ++ Operator.table, entry.1.toList ≠ [] := by decide
  intro hprefix
  cases htext : entry.1.toList with
  | nil => exact hne entry hentry htext
  | cons e es =>
    rw [htext] at hprefix
    obtain ⟨rfl, -⟩ := List.cons_prefix_cons.1 hprefix
    exact h entry hentry (by simp [htext])

lemma symbol?_of_notMark : symbol? (c :: cs) = none := by
  apply List.find?_eq_none.2
  intro entry hentry hprefix
  have hmem := List.mem_append_left Operator.table hentry
  exact not_starts_of_notMark h hmem (List.isPrefixOf_iff_prefix.1 hprefix)

lemma operator?_of_notMark : operator? (c :: cs) = none := by
  rw [operator?, Option.map_eq_none_iff]
  apply List.find?_eq_none.2
  intro entry hentry hprefix
  have hmem := List.mem_append_right symbols hentry
  exact not_starts_of_notMark h hmem (List.isPrefixOf_iff_prefix.1 hprefix)

end NotMark

/-- Where neither a symbol nor an operator is found, no mark holds the first character: it would be
a mark of its own. -/
lemma notMark_of_none (hsymbol : symbol? (c :: cs) = none)
    (hoperator : operator? (c :: cs) = none) :
    ∀ entry ∈ symbols ++ Operator.table, c ∉ entry.1.toList := by
  have hall : ∀ entry ∈ symbols ++ Operator.table, ∀ text ∈ entry.1.toList.map fun c => [c],
      text ∈ (symbols ++ Operator.table).map fun mark => mark.1.toList := by decide
  intro entry hentry hc
  have hsingle : [c] ∈ entry.1.toList.map fun c => [c] := List.mem_map_of_mem hc
  obtain ⟨mark, hmark, htext⟩ := List.mem_map.1 (hall entry hentry _ hsingle)
  have hstarts : mark.1.toList.isPrefixOf (c :: cs) := by simp [htext]
  rcases List.mem_append.1 hmark with hmark | hmark
  · exact List.find?_eq_none.1 hsymbol mark hmark hstarts
  · have hnone := Option.map_eq_none_iff.1 hoperator
    exact List.find?_eq_none.1 hnone mark hmark hstarts

/-- Exactly the stray characters start no piece, whatever follows them. -/
lemma first?_eq_none_iff : first? c cs = none ↔ IsStray c := by
  constructor
  · intro h
    unfold first? at h
    split at h
    · exact absurd h (by simp)
    split at h
    · exact absurd h (by simp)
    split at h
    · exact absurd h (by simp)
    next hquote =>
    split at h
    · exact absurd h (by simp)
    next hdigit =>
    split at h
    · exact absurd h (by simp)
    next hsymbol =>
    split at h
    · exact absurd h (by simp)
    next hoperator =>
    split at h
    · exact absurd h (by simp)
    next hspace =>
    split at h
    · exact absurd h (by simp)
    next hreturn =>
    split at h
    · exact absurd h (by simp)
    next hword =>
    split at h
    · exact absurd h (by simp)
    next hblank =>
    have hnosymbol : symbol? (c :: cs) = none :=
      Option.eq_none_iff_forall_ne_some.2 fun entry => hsymbol entry.1 entry.2
    have hnooperator : operator? (c :: cs) = none :=
      Option.eq_none_iff_forall_ne_some.2 fun made => hoperator made.1 made.2
    obtain ⟨hsingle, hdouble⟩ := not_or.1 hquote
    obtain ⟨hfeed, htab⟩ := not_or.1 hblank
    constructor
    · exact notMark_of_none hnosymbol hnooperator
    · simp [hsingle, hdouble, hspace, hreturn, hfeed, htab]
    · simpa using hdigit
    · simpa using hword
  · intro h
    have hslash : c ≠ '/' := h.ne (by decide)
    have hdelimiters := h.notDelimiter
    simp only [List.mem_cons, List.not_mem_nil, or_false, not_or] at hdelimiters
    obtain ⟨hsingle, hdouble, hspace, hreturn, hfeed, htab⟩ := hdelimiters
    simp [first?, hslash, hsingle, hdouble, hspace, hreturn, hfeed, htab, h.notDigit, h.notWord,
      symbol?_of_notMark h.notMark, operator?_of_notMark h.notMark]

end Stray

section Blocked
variable {cs rest : List Char} (hrest : Blocked rest)
include hrest

lemma head?_append_blocked {e : Char} (he : ¬ IsStray e) :
    (cs ++ rest).head? = some e ↔ cs.head? = some e := by
  cases cs with
  | nil =>
    simp only [List.nil_append, List.head?_nil, reduceCtorEq, iff_false]
    intro hhead
    exact he (hrest e hhead)
  | cons c cs => simp

lemma takeWhile_append_blocked {f : Char → Bool} (hf : ∀ d, IsStray d → f d = false) :
    (cs ++ rest).takeWhile f = cs.takeWhile f := by
  have hstop : rest.takeWhile f = [] := by
    cases rest with
    | nil => rfl
    | cons d rest => simp [hf d (hrest d rfl)]
  induction cs with
  | nil => exact hstop
  | cons c cs ih => simp [List.takeWhile_cons, ih]

/-- A mark ends before a stray character. -/
lemma prefix_append_blocked {text : List Char} (htext : ∀ c ∈ text, ¬ IsStray c) :
    text <+: cs ++ rest ↔ text <+: cs := by
  constructor
  · intro h
    induction text generalizing cs with
    | nil => exact List.nil_prefix
    | cons e es ih =>
      obtain ⟨he, hes⟩ := List.forall_mem_cons.1 htext
      cases cs with
      | nil =>
        obtain ⟨tail, rfl⟩ := h
        exact absurd (hrest e rfl) he
      | cons c cs =>
        obtain ⟨rfl, htail⟩ := List.cons_prefix_cons.1 h
        exact List.cons_prefix_cons.2 ⟨rfl, ih hes htail⟩
  · intro h
    exact h.trans (List.prefix_append _ _)

lemma find?_append_blocked {entries : List (String × TokenKind)}
    (hsub : entries ⊆ symbols ++ Operator.table) :
    (entries.find? fun entry => entry.1.toList.isPrefixOf (cs ++ rest)) =
      entries.find? fun entry => entry.1.toList.isPrefixOf cs := by
  induction entries with
  | nil => rfl
  | cons entry entries ih =>
    obtain ⟨hentry, hentries⟩ := List.cons_subset.1 hsub
    have htext : ∀ c ∈ entry.1.toList, ¬ IsStray c := fun c hc hstray =>
      hstray.notMark entry hentry hc
    have hsame : entry.1.toList.isPrefixOf (cs ++ rest) = entry.1.toList.isPrefixOf cs := by
      rw [Bool.eq_iff_iff, List.isPrefixOf_iff_prefix, List.isPrefixOf_iff_prefix]
      exact prefix_append_blocked hrest htext
    rw [List.find?_cons, List.find?_cons, hsame, ih hentries]

lemma symbol?_append_blocked : symbol? (cs ++ rest) = symbol? cs :=
  find?_append_blocked hrest (List.subset_append_left _ _)

lemma operator?_append_blocked : operator? (cs ++ rest) = operator? cs := by
  have hfirst : Operator.first? (cs ++ rest) = Operator.first? cs :=
    find?_append_blocked hrest (List.subset_append_right _ _)
  rw [operator?, operator?, hfirst]
  apply Option.map_congr
  rintro ⟨spelling, kind⟩ hfound
  have hlength : spelling.toList.length ≤ cs.length := (starts_of_find? hfound).length_le
  have hnext : ((cs.drop spelling.toList.length ++ rest).head? == some '=') =
      ((cs.drop spelling.toList.length).head? == some '=') := by
    rw [Bool.eq_iff_iff, beq_iff_eq, beq_iff_eq]
    exact head?_append_blocked hrest (by decide)
  simp only [List.drop_append_of_le_length hlength, hnext]

/-- All pieces but comments and quotations end before a stray character. -/
lemma first?_append_of_plain {c : Char} (hline : ¬ (c = '/' ∧ cs.head? = some '/'))
    (hblock : ¬ (c = '/' ∧ cs.head? = some '*')) (hquote : ¬ (c = '\x27' ∨ c = '\x22')) :
    first? c (cs ++ rest) = first? c cs := by
  have hslash : ¬ IsStray '/' := by decide
  have hstar : ¬ IsStray '*' := by decide
  have hfeed : ¬ IsStray '\n' := by decide
  have hspaces : ∀ d, IsStray d → (d == ' ') = false := fun d hd =>
    beq_false_of_ne (hd.ne (by decide))
  simp only [first?, if_neg hline, if_neg hblock, if_neg hquote, ← List.cons_append,
    head?_append_blocked hrest hslash, head?_append_blocked hrest hstar,
    head?_append_blocked hrest hfeed, symbol?_append_blocked hrest, operator?_append_blocked hrest,
    takeWhile_append_blocked hrest fun d hd => IsStray.notDigit hd,
    takeWhile_append_blocked hrest fun d hd => IsStray.notWord hd,
    takeWhile_append_blocked hrest hspaces]

end Blocked

section Openers
variable {c : Char} {cs : List Char}

lemma first?_lineComment (hcs : cs.head? = some '/') :
    first? '/' cs = some ⟨'/', throughLineEnding cs, .lineComment⟩ := by
  simp [first?, hcs]

lemma first?_blockComment (hcs : cs.head? = some '*') :
    first? '/' cs = some ⟨'/', '*' :: (throughCommentEnd cs.tail).1,
      .blockComment (throughCommentEnd cs.tail).2⟩ := by
  simp [first?, hcs]

lemma first?_quoted (hc : c = '\x27' ∨ c = '\x22') :
    first? c cs = some ⟨c, (throughQuote c cs).1, .quoted (throughQuote c cs).2⟩ := by
  have hslash : c ≠ '/' := by rcases hc with rfl | rfl <;> decide
  simp [first?, hc, hslash]

end Openers

lemma lineEnding_return (cs : List Char) :
    lineEnding ('\r' :: cs) = if cs.head? = some '\n' then ['\r', '\n'] else ['\r'] := by
  cases cs with
  | nil => rfl
  | cons c cs => by_cases hc : c = '\n' <;> simp [lineEnding, hc]

lemma throughLineEnding_cons {c : Char} (cs : List Char) (hr : c ≠ '\r') (hn : c ≠ '\n') :
    throughLineEnding (c :: cs) = c :: throughLineEnding cs := by
  simp [throughLineEnding, hr, hn]

lemma throughLineEnding_return (cs : List Char) :
    throughLineEnding ('\r' :: cs) = lineEnding ('\r' :: cs) := by
  simp [throughLineEnding]

lemma throughLineEnding_feed (cs : List Char) : throughLineEnding ('\n' :: cs) = ['\n'] := by
  simp [throughLineEnding, lineEnding]

lemma throughCommentEnd_cons (c : Char) (cs : List Char) :
    throughCommentEnd (c :: cs) =
      if c = '*' ∧ cs.head? = some '/' then (['*', '/'], true)
      else (c :: (throughCommentEnd cs).1, (throughCommentEnd cs).2) := by
  split
  · next h =>
    obtain ⟨rfl, hcs⟩ := h
    obtain ⟨tail, rfl⟩ := List.head?_eq_some_iff.1 hcs
    rfl
  · next h =>
    rw [throughCommentEnd]
    rintro tail rfl rfl
    exact h ⟨rfl, rfl⟩

section Closed
variable {d : Char} {cs after rest : List Char} (hd : IsStray d)
include hd

/-- What ends before a stray character ends there whatever follows, and what ends behind it is
longer than the text before it. -/
lemma throughQuote_of_length_le {quote : Char} (hquote : ¬ IsStray quote)
    (h : (throughQuote quote (cs ++ d :: after)).1.length ≤ cs.length) :
    throughQuote quote (cs ++ rest) = throughQuote quote (cs ++ d :: after) := by
  induction cs with
  | nil =>
    have hne : d ≠ quote := hd.ne hquote
    simp [throughQuote, hne] at h
  | cons c cs ih =>
    by_cases hc : c = quote
    · simp [throughQuote, hc]
    · simp only [List.cons_append, throughQuote, if_neg hc, List.length_cons,
        Nat.add_le_add_iff_right] at h ⊢
      rw [ih h]

variable (hrest : Blocked rest)
include hrest

lemma throughLineEnding_of_length_le
    (h : (throughLineEnding (cs ++ d :: after)).length ≤ cs.length) :
    throughLineEnding (cs ++ rest) = throughLineEnding (cs ++ d :: after) := by
  have hr : ¬ IsStray '\r' := by decide
  have hn : ¬ IsStray '\n' := by decide
  induction cs with
  | nil =>
    rw [List.nil_append, throughLineEnding_cons after (hd.ne hr) (hd.ne hn)] at h
    simp at h
  | cons c cs ih =>
    by_cases hcr : c = '\r'
    · subst hcr
      simp only [List.cons_append, throughLineEnding_return, lineEnding_return,
        head?_append_blocked hrest hn, head?_append_blocked (hd.blocked after) hn]
    by_cases hcn : c = '\n'
    · subst hcn
      simp only [List.cons_append, throughLineEnding_feed]
    · simp only [List.cons_append, throughLineEnding_cons _ hcr hcn, List.length_cons,
        Nat.add_le_add_iff_right] at h ⊢
      rw [ih h]

lemma throughCommentEnd_of_length_le
    (h : (throughCommentEnd (cs ++ d :: after)).1.length ≤ cs.length) :
    throughCommentEnd (cs ++ rest) = throughCommentEnd (cs ++ d :: after) := by
  have hslash : ¬ IsStray '/' := by decide
  induction cs with
  | nil =>
    have hne : d ≠ '*' := hd.ne (by decide)
    simp [throughCommentEnd_cons, hne] at h
  | cons c cs ih =>
    simp only [List.cons_append, throughCommentEnd_cons, head?_append_blocked hrest hslash,
      head?_append_blocked (hd.blocked after) hslash] at h ⊢
    split at h
    · next hend => rw [if_pos hend, if_pos hend]
    · next hend =>
      simp only [List.length_cons, Nat.add_le_add_iff_right] at h
      rw [if_neg hend, if_neg hend, ih h]

/-- A piece that ends before a stray character is found there whatever follows. -/
lemma first?_append_blocked {c : Char} {p : Piece} (h : first? c (cs ++ d :: after) = some p)
    (hlength : p.tail.length ≤ cs.length) : first? c (cs ++ rest) = some p := by
  have hblocked := hd.blocked after
  by_cases hline : c = '/' ∧ cs.head? = some '/'
  · obtain ⟨rfl, hcs⟩ := hline
    have hslash : ¬ IsStray '/' := by decide
    rw [first?_lineComment ((head?_append_blocked hblocked hslash).2 hcs)] at h
    rw [first?_lineComment ((head?_append_blocked hrest hslash).2 hcs)]
    obtain rfl := Option.some.inj h
    rw [throughLineEnding_of_length_le hd hrest hlength]
  by_cases hblock : c = '/' ∧ cs.head? = some '*'
  · obtain ⟨rfl, hcs⟩ := hblock
    have hstar : ¬ IsStray '*' := by decide
    rw [first?_blockComment ((head?_append_blocked hblocked hstar).2 hcs)] at h
    rw [first?_blockComment ((head?_append_blocked hrest hstar).2 hcs)]
    obtain rfl := Option.some.inj h
    obtain ⟨ds, rfl⟩ := List.head?_eq_some_iff.1 hcs
    have hbody : (throughCommentEnd (ds ++ d :: after)).1.length ≤ ds.length :=
      Nat.le_of_succ_le_succ hlength
    simp only [List.cons_append, List.tail_cons, throughCommentEnd_of_length_le hd hrest hbody]
  by_cases hquote : c = '\x27' ∨ c = '\x22'
  · have hstray : ¬ IsStray c := by rcases hquote with rfl | rfl <;> decide
    rw [first?_quoted hquote] at h ⊢
    obtain rfl := Option.some.inj h
    rw [throughQuote_of_length_le hd hstray hlength]
  · rw [first?_append_of_plain hblocked hline hblock hquote] at h
    rw [first?_append_of_plain hrest hline hblock hquote]
    exact h

end Closed

section Split
variable {d : Char} {cs after rest : List Char} {ps : List Piece}

/-- The pieces of a text and what is left over are the whole text. -/
lemma joined_split (cs : List Char) : joined (split cs).1 ++ (split cs).2 = cs := by
  fun_induction split cs with
  | case1 => rfl
  | case2 c cs h => rfl
  | case3 c cs p h rest ih =>
    obtain ⟨rfl, tail, rfl, -⟩ := first?_spec h
    rw [List.drop_left] at ih
    simpa [rest, joined, text] using ih

/-- What is left over is blocked. -/
lemma blocked_split (cs : List Char) : Blocked (split cs).2 := by
  fun_induction split cs with
  | case1 => exact blocked_nil
  | case2 c cs h => exact (first?_eq_none_iff.1 h).blocked cs
  | case3 c cs p h rest ih => exact ih

lemma split_blocked (h : Blocked rest) : split rest = ([], rest) := by
  cases rest with
  | nil => rw [split]
  | cons d rest => exact split_of_none (first?_eq_none_iff.2 (h d rfl))

/-- The pieces before a stray character are the pieces of the text before it, and they stay the same
whatever takes the place of the rest, as long as no piece goes on there. -/
lemma split_append_blocked (hd : IsStray d) (hrest : Blocked rest)
    (h : split (cs ++ d :: after) = (ps, d :: after)) : split (cs ++ rest) = (ps, rest) := by
  induction ps generalizing cs with
  | nil =>
    have hjoined := joined_split (cs ++ d :: after)
    rw [h] at hjoined
    obtain rfl : [] = cs := List.append_cancel_right hjoined
    exact split_blocked hrest
  | cons p ps ih =>
    have hjoined := joined_split (cs ++ d :: after)
    rw [h] at hjoined
    obtain rfl : p.text ++ joined ps = cs := List.append_cancel_right hjoined
    simp only [text, List.cons_append, List.append_assoc] at h ⊢
    cases hp : first? p.head (p.tail ++ (joined ps ++ d :: after)) with
    | none => simp [split_of_none hp] at h
    | some q =>
      rw [split_of_some hp] at h
      obtain ⟨hpieces, hleft⟩ := Prod.mk.inj h
      obtain ⟨rfl, hps⟩ := List.cons.inj hpieces
      rw [List.drop_left] at hps hleft
      have hfound : first? q.head (q.tail ++ (joined ps ++ rest)) = some q := by
        rw [← List.append_assoc] at hp ⊢
        exact first?_append_blocked hd hrest hp (by simp)
      rw [split_of_some hfound, List.drop_left, ih (Prod.ext hps hleft)]

end Split
end Piece

namespace Scanner

variable {s s' : Scanner} {ps : List Piece} {c : Char} {after : List Char} {e : ScanError}

lemma tokenize_of_split_nil (h : Piece.split s.rest = (ps, [])) :
    ∃ tokens, s.tokenize.1 = .ok tokens := by
  simp only [tokenize, h]
  exact ⟨_, rfl⟩

lemma tokenize_of_split_cons (h : Piece.split s.rest = (ps, c :: after)) :
    s.tokenize = (.error ⟨c, s.offset + byteSize (Piece.joined ps), Piece.lastLine s.line ps⟩,
      s.take ps (c :: after)) := by
  simp only [tokenize, h]
  rfl

/-- A reading fails at the first character that is left over. -/
lemma split_of_tokenize_error (h : s.tokenize = (.error e, s')) :
    ∃ ps after, Piece.split s.rest = (ps, e.character :: after) ∧
      s' = s.take ps (e.character :: after) := by
  rcases hsplit : Piece.split s.rest with ⟨ps, _ | ⟨c, after⟩⟩
  · simp [tokenize, hsplit] at h
  · rw [tokenize_of_split_cons hsplit] at h
    obtain ⟨he, rfl⟩ := Prod.mk.inj h
    obtain rfl := Except.error.inj he
    exact ⟨ps, after, rfl, rfl⟩

lemma isStray_of_tokenize_error (h : s.tokenize = (.error e, s')) : Piece.IsStray e.character := by
  obtain ⟨ps, after, hsplit, -⟩ := split_of_tokenize_error h
  have hblocked := Piece.blocked_split s.rest
  rw [hsplit] at hblocked
  exact hblocked _ rfl

/-- Reading on at a stray character fails there and changes nothing. -/
lemma tokenize_of_isStray (hc : Piece.IsStray c) (h : s.rest = c :: after) :
    s.tokenize = (.error ⟨c, s.offset, s.line⟩, s) := by
  have hsplit : Piece.split s.rest = ([], c :: after) := by
    rw [h]
    exact Piece.split_blocked (hc.blocked after)
  rw [tokenize_of_split_cons hsplit, ← h, take_nil]
  rfl

end Scanner

/-- A failure to read a source is a matter of the text up to the character that the error names. The
text before it can be read, the same character behind that text fails in the same way whatever comes
next, and reading on from there fails again and changes nothing. -/
theorem tokenize_error_local {source : String} {e : ScanError} {s : Scanner}
    (h : (Scanner.ofString source).tokenize = (.error e, s)) :
    ∃ before after, source = before.push e.character ++ after ∧
      before.utf8ByteSize = e.offset ∧ e.code = e.character.toNat ∧
      (∃ tokens, tokenize before = .ok tokens) ∧
      (∀ text, tokenize (before.push e.character ++ text) = .error e) ∧
      s.tokenize = (.error e, s) := by
  obtain ⟨-, hoffset, hline⟩ := Scanner.steps_of_tokenize_error h
  obtain ⟨ps, after, hsplit, hs⟩ := Scanner.split_of_tokenize_error h
  change Piece.split source.toList = _ at hsplit
  have hstray := Scanner.isStray_of_tokenize_error h
  have hsource : source.toList = Piece.joined ps ++ e.character :: after := by
    have hjoined := Piece.joined_split source.toList
    rw [hsplit] at hjoined
    exact hjoined.symm
  have hrest : ∀ rest, Piece.Blocked rest → Piece.split (Piece.joined ps ++ rest) = (ps, rest) := by
    intro rest hblocked
    rw [hsource] at hsplit
    exact Piece.split_append_blocked hstray hblocked hsplit
  refine ⟨String.ofList (Piece.joined ps), String.ofList after, ?_, ?_, rfl, ?_, ?_, ?_⟩
  · rw [← String.toList_inj]
    simp [hsource]
  · rw [← byteSize_toList, String.toList_ofList, hoffset, hs]
    simp [Scanner.take, Scanner.ofString]
  · have hall := hrest [] Piece.blocked_nil
    rw [List.append_nil] at hall
    exact Scanner.tokenize_of_split_nil (by simpa [Scanner.ofString] using hall)
  · intro text
    have hsame := hrest _ (hstray.blocked text.toList)
    rw [tokenize, Scanner.tokenize_of_split_cons (by simpa [Scanner.ofString] using hsame)]
    apply congrArg Except.error
    rw [hs] at hoffset hline
    change ScanError.mk e.character (0 + _) (Piece.lastLine 1 ps) = ⟨e.character, e.offset, e.line⟩
    rw [hoffset, hline]
    rfl
  · rw [Scanner.tokenize_of_isStray hstray (congrArg Scanner.rest hs), ← hoffset, ← hline]

/-- Quoted and commented characters of the same kind stand before the one that cannot be read. -/
theorem tokenize_error_local_quoted :
    ∃ e s, (Scanner.ofString "'#'<<=/*#*/x\r#y").tokenize = (.error e, s) ∧ e.offset = 13 ∧
      ∃ before after, "'#'<<=/*#*/x\r#y" = before.push e.character ++ after ∧
        before.utf8ByteSize = e.offset ∧ e.code = e.character.toNat ∧
        (∃ tokens, tokenize before = .ok tokens) ∧
        (∀ text, tokenize (before.push e.character ++ text) = .error e) ∧
        s.tokenize = (.error e, s) := by
  have hstray : (Scanner.ofString "'#'<<=/*#*/x\r#y").tokenize.1.toOption = none ∧
      (Scanner.ofString "'#'<<=/*#*/x\r#y").tokenize.2.offset = 13 := by decide +kernel
  rcases h : (Scanner.ofString "'#'<<=/*#*/x\r#y").tokenize with ⟨e | tokens, s⟩
  · rw [h] at hstray
    obtain ⟨-, hoffset, -⟩ := Scanner.steps_of_tokenize_error h
    exact ⟨e, s, rfl, hoffset.trans hstray.2, tokenize_error_local h⟩
  · simp [h, Except.toOption] at hstray

end Exclaim
