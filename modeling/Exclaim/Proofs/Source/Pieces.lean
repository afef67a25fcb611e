import Mathlib.Data.List.Basic
import Mathlib.Data.List.TakeWhile
import Exclaim.Source.Scanner

/-! The pieces of a source: each is a stretch of text that its form describes, and together they
are the whole source. -/
namespace Exclaim

/-- A line feed, a tab, or a comment with its end. -/
inductive Skippable : List Char → Prop
  | lineFeed : Skippable ['\n']
  | tab : Skippable ['\t']
  | lineComment {body ending : List Char} (hbody : ∀ c ∈ body, c ≠ '\r' ∧ c ≠ '\n')
      (hending : ending ∈ [['\r'], ['\n'], ['\r', '\n']]) :
      Skippable ('/' :: '/' :: (body ++ ending))
  | blockComment {body : List Char} (hbody : ¬ ['*', '/'] <:+: body) :
      Skippable ('/' :: '*' :: (body ++ ['*', '/']))

/-- A comment without its end. -/
inductive Unterminated : List Char → Prop
  | lineComment {body : List Char} (hbody : ∀ c ∈ body, c ≠ '\r' ∧ c ≠ '\n') :
      Unterminated ('/' :: '/' :: body)
  | blockComment {body : List Char} (hbody : ¬ ['*', '/'] <:+: body) :
      Unterminated ('/' :: '*' :: body)

namespace Piece

/-- The kinds of tokens whose value is not their text. -/
abbrev IsSpecial (kind : TokenKind) : Prop :=
  kind ∈ [TokenKind.endOfFile, .string, .whiteSpace, .lineBreak]

/-- What the form of a piece says about its text when `rest` is what follows it. -/
def Proper (p : Piece) (rest : List Char) : Prop :=
  match p.form with
  | .blank | .lineComment | .blockComment _ => Skippable p.text ∨ (Unterminated p.text ∧ rest = [])
  | .lexeme kind _ => ¬ IsSpecial kind
  | .quoted closed => ∃ quote body, (quote = '\x27' ∨ quote = '\x22') ∧ quote ∉ body ∧
      p.text = quote :: (body ++ if closed then [quote] else [])
  | .spaces => ∀ c ∈ p.text, c = ' '
  | .lineBreak => p.text = ['\r'] ∨ p.text = ['\r', '\n']

lemma lineEnding_spec {c : Char} (cs : List Char) (h : c = '\r' ∨ c = '\n') :
    lineEnding (c :: cs) ∈ [['\r'], ['\n'], ['\r', '\n']] ∧
      ∃ rest, c :: cs = lineEnding (c :: cs) ++ rest := by
  rcases h with rfl | rfl
  · cases cs with
    | nil => simp [lineEnding]
    | cons d cs => by_cases hd : d = '\n' <;> simp [lineEnding, hd]
  · simp [lineEnding]

/-- A text up to its first line ending has no other one, and only at the end of all it has none. -/
lemma throughLineEnding_spec (cs : List Char) :
    ∃ body ending rest, throughLineEnding cs = body ++ ending ∧ cs = body ++ ending ++ rest ∧
      (∀ c ∈ body, c ≠ '\r' ∧ c ≠ '\n') ∧
      (ending ∈ [['\r'], ['\n'], ['\r', '\n']] ∨ ending = [] ∧ rest = []) := by
  induction cs with
  | nil => exact ⟨[], [], [], rfl, rfl, nofun, .inr ⟨rfl, rfl⟩⟩
  | cons c cs ih =>
    by_cases hc : c = '\r' ∨ c = '\n'
    · obtain ⟨hending, rest, hrest⟩ := lineEnding_spec cs hc
      refine ⟨[], lineEnding (c :: cs), rest, ?_, hrest, nofun, .inl hending⟩
      rcases hc with rfl | rfl <;> simp [throughLineEnding]
    · obtain ⟨body, ending, rest, htext, hcs, hbody, hending⟩ := ih
      obtain ⟨hr, hn⟩ := not_or.1 hc
      refine ⟨c :: body, ending, rest, ?_, ?_, List.forall_mem_cons.2 ⟨⟨hr, hn⟩, hbody⟩, hending⟩
      · simpa [throughLineEnding, hr, hn] using htext
      · simpa using hcs

/-- A block comment reaches up to the first place where it can end. -/
lemma throughCommentEnd_spec (cs : List Char) :
    ∃ body rest, ¬ ['*', '/'] <:+: body ∧
      (throughCommentEnd cs = (body ++ ['*', '/'], true) ∧ cs = body ++ ['*', '/'] ++ rest ∨
        throughCommentEnd cs = (body, false) ∧ cs = body ∧ rest = []) := by
  fun_induction throughCommentEnd cs with
  | case1 => exact ⟨[], [], by simp, .inr ⟨rfl, rfl, rfl⟩⟩
  | case2 tail => exact ⟨[], tail, by simp, .inl ⟨rfl, rfl⟩⟩
  | case3 c cs hne rest ih =>
    obtain ⟨body, tail, hbody, h⟩ := ih
    have hnext : ¬ ['*', '/'] <:+: c :: body := by
      rw [List.infix_cons_iff]
      rintro (hpre | hin)
      · obtain ⟨rfl, ds, rfl⟩ := List.cons_prefix_cons.1 hpre
        rcases h with ⟨-, hcs⟩ | ⟨-, hcs, -⟩
        · exact hne _ rfl hcs
        · exact hne _ rfl hcs
      · exact hbody hin
    rcases h with ⟨htext, hcs⟩ | ⟨htext, hcs, htail⟩
    · exact ⟨c :: body, tail, hnext, .inl ⟨by simp [rest, htext], by simpa using hcs⟩⟩
    · exact ⟨c :: body, tail, hnext, .inr ⟨by simp [rest, htext], by rw [hcs], htail⟩⟩

lemma throughQuote_spec (quote : Char) (cs : List Char) :
    ∃ body closed rest, quote ∉ body ∧
      throughQuote quote cs = (body ++ (if closed then [quote] else []), closed) ∧
      cs = body ++ (if closed then [quote] else []) ++ rest := by
  induction cs with
  | nil => exact ⟨[], false, [], by simp, rfl, rfl⟩
  | cons c cs ih =>
    by_cases hc : c = quote
    · subst hc
      exact ⟨[], true, cs, by simp, by simp [throughQuote], rfl⟩
    · obtain ⟨body, closed, rest, hbody, htext, hcs⟩ := ih
      refine ⟨c :: body, closed, rest, ?_, ?_, ?_⟩
      · simp [Ne.symm hc, hbody]
      · simp [throughQuote, hc, htext]
      · simpa using hcs

lemma eq_cons_tail {c : Char} {cs text rest : List Char} (h : c :: cs = text ++ rest)
    (hne : text ≠ []) : cs = text.tail ++ rest := by
  cases text with
  | nil => exact absurd rfl hne
  | cons d ds => exact (List.cons.inj h).2

lemma head_cons_tail {c : Char} {cs text rest : List Char} (h : c :: cs = text ++ rest)
    (hne : text ≠ []) : c :: text.tail = text := by
  cases text with
  | nil => exact absurd rfl hne
  | cons d ds => rw [(List.cons.inj h).1, List.tail_cons]

/-- A mark that is found in a list stands at the start of the text. -/
lemma starts_of_find? {cs : List Char} {entries : List (String × TokenKind)}
    {found : String × TokenKind}
    (h : (entries.find? fun entry => entry.1.toList.isPrefixOf cs) = some found) :
    found.1.toList <+: cs := by
  have hstarts : found.1.toList.isPrefixOf cs := by simpa using List.find?_some h
  exact List.isPrefixOf_iff_prefix.1 hstarts

lemma symbol?_spec {cs : List Char} {spelling : String} {kind : TokenKind}
    (h : symbol? cs = some (spelling, kind)) :
    spelling.toList ≠ [] ∧ (∃ rest, cs = spelling.toList ++ rest) ∧ ¬ IsSpecial kind := by
  have hall : ∀ entry ∈ symbols, entry.1.toList ≠ [] ∧ ¬ IsSpecial entry.2 := by decide
  obtain ⟨hne, hkind⟩ := hall _ (List.mem_of_find?_eq_some h)
  obtain ⟨rest, hrest⟩ := starts_of_find? h
  exact ⟨hne, ⟨rest, hrest.symm⟩, hkind⟩

/-- An operator is one of the table, with `=` behind it where the two combine. -/
lemma operator?_eq_some {cs text : List Char} {form : Form}
    (h : operator? cs = some (text, form)) :
    ∃ found, Operator.first? cs = some found ∧
      (found.2.combines ∧ found.1.toList ++ ['='] <+: cs ∧ text = found.1.toList ++ ['='] ∧
          form = .lexeme .combinedAssignment (some found.2) ∨
        (found.2.combines → ¬ found.1.toList ++ ['='] <+: cs) ∧ text = found.1.toList ∧
          form = .lexeme found.2 none) := by
  obtain ⟨found, hfound, hmade⟩ := Option.map_eq_some_iff.1 h
  obtain ⟨rest, rfl⟩ := starts_of_find? hfound
  have hnext : found.1.toList ++ ['='] <+: found.1.toList ++ rest ↔ rest.head? = some '=' := by
    rw [List.prefix_append_right_inj]
    cases rest <;> simp [List.cons_prefix_cons, eq_comm]
  refine ⟨found, hfound, ?_⟩
  simp only [List.drop_left] at hmade
  rw [hnext]
  split at hmade
  · next hc =>
    obtain ⟨rfl, rfl⟩ := Prod.mk.inj hmade
    obtain ⟨hcombines, hhead⟩ := Bool.and_eq_true_iff.1 hc
    exact .inl ⟨hcombines, by simpa using hhead, rfl, rfl⟩
  · next hc =>
    obtain ⟨rfl, rfl⟩ := Prod.mk.inj hmade
    exact .inr ⟨fun hcombines hhead => hc (by simp [hcombines, hhead]), rfl, rfl⟩

lemma operator?_spec {cs text : List Char} {form : Form} (h : operator? cs = some (text, form)) :
    text ≠ [] ∧ (∃ rest, cs = text ++ rest) ∧
      ∃ kind operation, form = .lexeme kind operation ∧ ¬ IsSpecial kind := by
  have hall : ∀ entry ∈ Operator.table, entry.1.toList ≠ [] ∧ ¬ IsSpecial entry.2 := by decide
  obtain ⟨found, hfound, ⟨-, ⟨rest, hrest⟩, rfl, rfl⟩ | ⟨-, rfl, rfl⟩⟩ := operator?_eq_some h
  · exact ⟨by simp, ⟨rest, hrest.symm⟩, _, _, rfl, by decide⟩
  · obtain ⟨hne, hkind⟩ := hall _ (List.mem_of_find?_eq_some hfound)
    obtain ⟨rest, hrest⟩ := starts_of_find? hfound
    exact ⟨hne, ⟨rest, hrest.symm⟩, _, _, rfl, hkind⟩

/-- A piece is the start of the text behind its head, and its form describes it. -/
def Starts (p : Piece) (cs : List Char) : Prop := ∃ rest, cs = p.tail ++ rest ∧ p.Proper rest

lemma starts_lineComment (cs : List Char) :
    Starts ⟨'/', throughLineEnding ('/' :: cs), .lineComment⟩ ('/' :: cs) := by
  obtain ⟨body, ending, rest, htext, hcs, hbody, hending⟩ := throughLineEnding_spec cs
  have htail : throughLineEnding ('/' :: cs) = '/' :: (body ++ ending) := by
    simpa [throughLineEnding] using htext
  rw [htail]
  refine ⟨rest, congrArg _ hcs, ?_⟩
  rcases hending with hending | ⟨rfl, rfl⟩
  · exact .inl (.lineComment hbody hending)
  · exact .inr ⟨by simpa [text] using Unterminated.lineComment hbody, rfl⟩

lemma starts_blockComment (cs : List Char) :
    Starts ⟨'/', '*' :: (throughCommentEnd cs).1, .blockComment (throughCommentEnd cs).2⟩
      ('*' :: cs) := by
  obtain ⟨body, rest, hbody, ⟨htext, hcs⟩ | ⟨htext, hcs, rfl⟩⟩ := throughCommentEnd_spec cs
  · rw [htext]
    exact ⟨rest, congrArg _ hcs, .inl (.blockComment hbody)⟩
  · rw [htext]
    exact ⟨[], by simp [hcs], .inr ⟨.blockComment hbody, rfl⟩⟩

lemma starts_quoted {quote : Char} (h : quote = '\x27' ∨ quote = '\x22') (cs : List Char) :
    Starts ⟨quote, (throughQuote quote cs).1, .quoted (throughQuote quote cs).2⟩ cs := by
  obtain ⟨body, closed, rest, hbody, htext, hcs⟩ := throughQuote_spec quote cs
  rw [htext]
  exact ⟨rest, hcs, quote, body, h, hbody, rfl⟩

lemma starts_run {c : Char} {kind : TokenKind} (h : ¬ IsSpecial kind) (p : Char → Bool)
    (cs : List Char) : Starts ⟨c, cs.takeWhile p, .lexeme kind none⟩ cs :=
  ⟨cs.dropWhile p, List.takeWhile_append_dropWhile.symm, h⟩

lemma starts_spaces (cs : List Char) : Starts ⟨' ', cs.takeWhile (· == ' '), .spaces⟩ cs := by
  refine ⟨_, List.takeWhile_append_dropWhile.symm, List.forall_mem_cons.2 ⟨rfl, fun c hc => ?_⟩⟩
  simpa using List.mem_takeWhile_imp hc

lemma starts_lineBreak (cs : List Char) :
    Starts ⟨'\r', if cs.head? = some '\n' then ['\n'] else [], .lineBreak⟩ cs := by
  by_cases h : cs.head? = some '\n'
  · obtain ⟨ds, rfl⟩ := List.head?_eq_some_iff.1 h
    exact ⟨ds, rfl, .inr rfl⟩
  · rw [if_neg h]
    exact ⟨cs, rfl, .inl rfl⟩

/-- Every piece found is one that the text starts with. -/
lemma first?_spec {c : Char} {cs : List Char} {p : Piece} (h : first? c cs = some p) :
    p.head = c ∧ p.Starts cs := by
  unfold first? at h
  split at h
  · next hslash =>
    obtain ⟨rfl, hcs⟩ := hslash
    obtain ⟨ds, rfl⟩ := List.head?_eq_some_iff.1 hcs
    obtain rfl := Option.some.inj h
    exact ⟨rfl, starts_lineComment ds⟩
  split at h
  · next hstar =>
    obtain ⟨rfl, hcs⟩ := hstar
    obtain ⟨ds, rfl⟩ := List.head?_eq_some_iff.1 hcs
    obtain rfl := Option.some.inj h
    exact ⟨rfl, starts_blockComment ds⟩
  split at h
  · next hquote =>
    obtain rfl := Option.some.inj h
    exact ⟨rfl, starts_quoted hquote cs⟩
  split at h
  · obtain rfl := Option.some.inj h
    exact ⟨rfl, starts_run (by decide) _ cs⟩
  split at h
  · next spelling kind hs =>
    obtain rfl := Option.some.inj h
    obtain ⟨hne, ⟨rest, hrest⟩, hkind⟩ := symbol?_spec hs
    exact ⟨rfl, rest, eq_cons_tail hrest hne, hkind⟩
  split at h
  · next text form ho =>
    obtain rfl := Option.some.inj h
    obtain ⟨hne, ⟨rest, hrest⟩, kind, operation, rfl, hkind⟩ := operator?_spec ho
    exact ⟨rfl, rest, eq_cons_tail hrest hne, hkind⟩
  split at h
  · next hspace =>
    subst hspace
    obtain rfl := Option.some.inj h
    exact ⟨rfl, starts_spaces cs⟩
  split at h
  · next hreturn =>
    subst hreturn
    obtain rfl := Option.some.inj h
    exact ⟨rfl, starts_lineBreak cs⟩
  split at h
  · obtain rfl := Option.some.inj h
    exact ⟨rfl, starts_run (by decide) _ cs⟩
  split at h
  · next hblank =>
    obtain rfl := Option.some.inj h
    refine ⟨rfl, cs, rfl, ?_⟩
    rcases hblank with rfl | rfl
    · exact .inl .lineFeed
    · exact .inl .tab
  · exact absurd h (by simp)

/-- The ways to find a piece, each with what the text has to start with. -/
inductive Found (c : Char) (cs : List Char) : Piece → Prop
  | lineComment (hc : c = '/') (hcs : cs.head? = some '/') :
      Found c cs ⟨c, throughLineEnding cs, .lineComment⟩
  | blockComment (hc : c = '/') (hcs : cs.head? = some '*') :
      Found c cs ⟨c, '*' :: (throughCommentEnd cs.tail).1,
        .blockComment (throughCommentEnd cs.tail).2⟩
  | quoted (hc : c = '\x27' ∨ c = '\x22') :
      Found c cs ⟨c, (throughQuote c cs).1, .quoted (throughQuote c cs).2⟩
  | number (hc : c.isDigit) : Found c cs ⟨c, cs.takeWhile Char.isDigit, .lexeme .number none⟩
  | symbol {spelling : String} {kind : TokenKind}
      (hfound : symbol? (c :: cs) = some (spelling, kind)) :
      Found c cs ⟨c, spelling.toList.tail, .lexeme kind none⟩
  | operator {text : List Char} {form : Form} (hfound : operator? (c :: cs) = some (text, form)) :
      Found c cs ⟨c, text.tail, form⟩
  | spaces (hc : c = ' ') : Found c cs ⟨c, cs.takeWhile (· == ' '), .spaces⟩
  | lineBreak (hc : c = '\r') :
      Found c cs ⟨c, if cs.head? = some '\n' then ['\n'] else [], .lineBreak⟩
  | word (hc : isWordChar c) :
      Found c cs ⟨c, cs.takeWhile isWordChar, .lexeme .identifier none⟩
  | blank (hc : c = '\n' ∨ c = '\t') : Found c cs ⟨c, [], .blank⟩

lemma found_of_first? {c : Char} {cs : List Char} {p : Piece} (h : first? c cs = some p) :
    Found c cs p := by
  unfold first? at h
  split at h
  · next hslash => exact Option.some.inj h ▸ .lineComment hslash.1 hslash.2
  split at h
  · next hstar => exact Option.some.inj h ▸ .blockComment hstar.1 hstar.2
  split at h
  · next hquote => exact Option.some.inj h ▸ .quoted hquote
  split at h
  · next hdigit => exact Option.some.inj h ▸ .number hdigit
  split at h
  · next hsymbol => exact Option.some.inj h ▸ .symbol hsymbol
  split at h
  · next hoperator => exact Option.some.inj h ▸ .operator hoperator
  split at h
  · next hspace => exact Option.some.inj h ▸ .spaces hspace
  split at h
  · next hreturn => exact Option.some.inj h ▸ .lineBreak hreturn
  split at h
  · next hword => exact Option.some.inj h ▸ .word hword
  split at h
  · next hblank => exact Option.some.inj h ▸ .blank hblank
  · exact absurd h (by simp)

/-- A text cut into pieces, each of which its form describes. -/
inductive Cut : List Char → List Piece → Prop
  | nil : Cut [] []
  | cons {p : Piece} {rest : List Char} {ps : List Piece} (hp : p.Proper rest)
      (hrest : Cut rest ps) : Cut (p.text ++ rest) (p :: ps)

lemma Cut.joined_eq {cs : List Char} {ps : List Piece} (h : Cut cs ps) : joined ps = cs := by
  induction h with
  | nil => rfl
  | cons hp hrest ih => simpa [joined] using ih

/-- When no text is left over, the pieces are the whole text. -/
lemma cut_split (cs : List Char) : (split cs).2 = [] → Cut cs (split cs).1 := by
  fun_induction split cs with
  | case1 => exact fun _ => .nil
  | case2 c cs h => exact nofun
  | case3 c cs p h rest ih =>
    intro hrest
    obtain ⟨rfl, tail, rfl, hp⟩ := first?_spec h
    rw [List.drop_left] at ih
    have hcut := Cut.cons hp (ih (by simpa [rest] using hrest))
    simpa [rest, text] using hcut

end Piece
end Exclaim
