import Exclaim.Proofs.Parse.Progress
import Exclaim.Proofs.Parse.StockGrammar
import Exclaim.Proofs.Source.Coverage

/-! Where the errors of a parse point. Every failure is about a token of the source that is no
layout: the one that was met, or one that was passed before. The tokens that a parse makes up get
into the tree only. The cursor passes the end of the file only where no expression follows, so the
position that an error tells is never behind the tokens. -/
namespace Exclaim

/-- The token is one that asks for an expression of a certain shape in this context. -/
def ShapeContext.Marks (context : ShapeContext) (t : Token) : Prop :=
  match context with
  | .stateArgument => t.kind ∈ [TokenKind.plusPlus, .minusMinus] ∨
      t.kind = .identifier ∧ t.value ∈ Grammar.stateWords
  | .assignmentTarget => t.kind ∈ [TokenKind.combinedAssignment, .equalSign]
  | .dotProperty => t.kind = .dot

/-- The token is one of these and no layout. -/
def Token.Counts (tokens : List Token) (t : Token) : Prop :=
  t ∈ tokens ∧ t.kind.isIgnorable = false

namespace ParseError

/-- The error is about a token: it holds the token, together with its place among all tokens where
it has one, or it holds the span of the token that asked for another shape. -/
def IsAbout (tokens : List Token) (t : Token) : ParseError → Prop
  | noOpening token position => token = t ∧ tokens[position]? = some t
  | unexpectedKind _ found | unexpectedWord _ found => found = t
  | strayCloseBrace token | invalidNumber token => token = t
  | misshapen context _ span => span = t.span ∧ context.Marks t

/-- The error is about one of the tokens that are no layout. -/
def Points (tokens : List Token) (e : ParseError) : Prop :=
  ∃ t, t.Counts tokens ∧ e.IsAbout tokens t

lemma IsAbout.span_eq {tokens : List Token} {t : Token} {e : ParseError} (h : e.IsAbout tokens t) :
    e.span = t.span := by
  cases e with
  | noOpening token position => exact congrArg Token.span h.1
  | misshapen context found span => exact h.1
  | _ => exact congrArg Token.span h

/-- Only for misshapen expressions the line is not told. -/
lemma IsAbout.line?_eq {tokens : List Token} {t : Token} {e : ParseError}
    (h : e.IsAbout tokens t) :
    e.line? = some t.line ∨ ∃ context found span, e = .misshapen context found span := by
  cases e with
  | noOpening token position => exact .inl (congrArg (fun t : Token => some t.line) h.1)
  | misshapen context found span => exact .inr ⟨context, found, span, rfl⟩
  | _ => exact .inl (congrArg (fun t : Token => some t.line) h)

end ParseError

/-- Only the two signs of assignments are read as such. -/
lemma Grammar.kind_of_joining?_assignment {t : Token} {power : Power}
    (h : stock.joining? t = some (.assignment, power)) :
    t.kind ∈ [TokenKind.combinedAssignment, .equalSign] := by
  have hall : ∀ entry ∈ stockJoinings, entry.rule = .assignment →
      entry.kind ∈ [TokenKind.combinedAssignment, .equalSign] := by decide
  obtain ⟨entry, hfound, hmade⟩ := Option.map_eq_some_iff.1 h
  obtain ⟨hmem, hkind⟩ := Registry.mem_of_find? hfound
  rw [← hkind]
  exact hall entry hmem (congrArg Prod.fst hmade)

namespace Cursor

/-- A cursor over these tokens. -/
def Among (tokens : List Token) (c : Cursor) : Prop := c.body ++ [c.last] = tokens

/-- A cursor over these tokens that has not passed all of them. -/
structure Amid (tokens : List Token) (c : Cursor) : Prop where
  among : c.Among tokens
  goesOn : ¬ c.Ended

section Amid
variable {tokens : List Token} {c : Cursor}

lemma Among.tokenAt_mem (h : c.Among tokens) (index : Nat) : c.tokenAt index ∈ tokens := by
  rw [← show _ = tokens from h, tokenAt]
  cases ht : c.body[index]? with
  | none => simp
  | some t => simp [List.mem_of_getElem? ht]

lemma Among.counts_next (h : c.Among tokens) : c.next.Counts tokens := by
  constructor
  · rw [← tokenAt_layoutCount]
    exact h.tokenAt_mem _
  · cases hc : c.ahead with
    | nil =>
      rw [next_of_ahead_nil hc, c.last_kind]
      rfl
    | cons t ts =>
      have hmem : t ∈ c.ahead := by simp [hc]
      rw [next_of_ahead_cons hc]
      simpa using (List.mem_filter.1 hmem).2

lemma Amid.counts_current (h : c.Amid tokens) (hfacing : c.Facing) : c.current.Counts tokens := by
  rw [hfacing.current_eq]
  exact h.among.counts_next

lemma Amid.getElem?_position (h : c.Amid tokens) : tokens[c.position]? = some c.current := by
  have hlt : c.position < c.body.length + 1 := Nat.lt_of_not_le h.goesOn
  rw [← show _ = tokens from h.among, current, tokenAt]
  rcases Nat.lt_or_eq_of_le (Nat.le_of_lt_succ hlt) with hpos | hpos
  · simp [List.getElem?_append_left hpos, List.getElem?_eq_getElem hpos]
  · simp [hpos]

lemma Amid.skipLayout (h : c.Amid tokens) : c.skipLayout.Amid tokens :=
  ⟨h.among, mt c.ended_skipLayout.1 h.goesOn⟩

/-- Only the end of the file can be the last token that is passed. -/
lemma Among.pass (h : c.Among tokens) (hnext : c.next.kind ≠ .endOfFile) :
    c.pass.Amid tokens := by
  refine ⟨h, fun hend => hnext ?_⟩
  rw [next_of_ahead_nil (c.ended_pass.1 hend), c.last_kind]

end Amid
end Cursor

namespace Parse

variable {tokens : List Token}

/-- Not all of the tokens are passed. -/
abbrev OnTrack (tokens : List Token) (s : ParseState) : Prop := s.cursor.Amid tokens

/-- A failure that is no cut-off call points at a token. -/
abbrev Blame (tokens : List Token) (e : ParseError) (s : ParseState) : Prop :=
  s.overrun = false → e.Points tokens

/-- From a place among the tokens the action moves to another one, or it fails and points at a
token. -/
def Blames (tokens : List Token) {α : Type} (p : Parse α) : Prop :=
  Ends (OnTrack tokens) p (fun _ => OnTrack tokens) (Blame tokens)

section Rules
variable {α β : Type} {p : Parse α} {f : α → Parse β} {q : Parse β}
  {S : β → ParseState → Prop} {kinds : List TokenKind} {words : List String}

lemma Blames.bind (hp : Blames tokens p) (hf : ∀ a, Ends (OnTrack tokens) (f a) S (Blame tokens)) :
    Ends (OnTrack tokens) (p >>= f) S (Blame tokens) := Ends.bind hp hf

lemma Blames.map {g : α → β} (hp : Blames tokens p) : Blames tokens (g <$> p) :=
  Ends.map hp fun _ _ hs => hs

lemma Blames.past (hp : Blames tokens p) (hq : Ends (OnTrack tokens) q S (Blame tokens)) :
    Ends (OnTrack tokens) (Functor.discard p >>= fun _ => q) S (Blame tokens) :=
  Ends.bind hp.discard fun _ => hq

lemma Blames.at (hp : Blames tokens p) {c : Cursor} (hc : c.Amid tokens) :
    Ends (·.cursor = c) p (fun _ => OnTrack tokens) (Blame tokens) := by
  refine Ends.strengthen hp ?_
  rintro s rfl
  exact hc

lemma blames_pure (a : α) : Blames tokens (pure a) := ends_pure fun _ hs => hs

lemma blames_throw {e : ParseError} (h : e.Points tokens) : Blames tokens (throw e : Parse α) :=
  ends_throw fun _ _ _ => h

lemma blames_cutOff : Ends (OnTrack tokens) (cutOff : Parse β) S (Blame tokens) :=
  ends_cutOff fun _ _ h => absurd h (by simp)

lemma blames_note {level : LogLevel} {message : String} : Blames tokens (note level message) :=
  ends_note fun _ _ hs => hs

lemma blames_check : Blames tokens (check kinds) := ends_test (.kinds kinds) fun _ _ hs => hs

lemma blames_checkWord : Blames tokens (checkWord words) :=
  ends_test (.words words) fun _ _ hs => hs

lemma blames_skipLayout : Blames tokens skipLayout := ends_skipLayout fun _ hs => hs.skipLayout

lemma blames_current_bind {f : Token → Parse β}
    (h : ∀ t, Ends (OnTrack tokens) (f t) S (Blame tokens)) :
    Ends (OnTrack tokens) (current >>= f) S (Blame tokens) :=
  ends_current_bind fun t => (h t).strengthen fun _ hs => hs.1

lemma blames_budget_bind {f : Nat → Parse β}
    (h : ∀ n, Ends (OnTrack tokens) (f n) S (Blame tokens)) :
    Ends (OnTrack tokens) (budget >>= f) S (Blame tokens) :=
  ends_budget_bind fun n => (h n).strengthen fun _ hs => hs.1

lemma Expected.points_mismatch (expected : Expected) {c : Cursor} (h : c.Among tokens) :
    (expected.mismatch c.next).Points tokens := by
  refine ⟨c.next, h.counts_next, ?_⟩
  cases expected <;> rfl

/-- Also behind the end of the file an expectation fails properly. -/
lemma ends_expect (h : .endOfFile ∉ kinds) :
    Ends (fun s => s.cursor.Among tokens) (expect kinds)
      (fun t s => OnTrack tokens s ∧ t.Counts tokens ∧ t.kind ∈ kinds) (Blame tokens) := by
  refine ends_take (.kinds kinds) (fun s hs hm => ?_) fun s hs _ => Expected.points_mismatch _ hs
  have hkind : s.cursor.next.kind ∈ kinds := List.contains_iff_mem.1 hm
  exact ⟨hs.pass fun hend => h (hend ▸ hkind), hs.counts_next, hkind⟩

lemma ends_expectWord :
    Ends (OnTrack tokens) (expectWord words)
      (fun t s => OnTrack tokens s ∧ t.Counts tokens ∧ t.kind = .identifier ∧ t.value ∈ words)
      (Blame tokens) := by
  refine ends_take (.words words) (fun s hs hm => ?_) fun s hs _ =>
    Expected.points_mismatch _ hs.among
  have hword : s.cursor.next.kind = .identifier ∧ s.cursor.next.value ∈ words := by
    simpa [Expected.isMet] using hm
  refine ⟨hs.among.pass ?_, hs.among.counts_next, hword⟩
  simp [hword.1]

lemma blames_expect (h : .endOfFile ∉ kinds) : Blames tokens (expect kinds) :=
  ((ends_expect h).strengthen fun _ hs => hs.among).weaken fun _ _ hs => hs.1

lemma blames_expectWord : Blames tokens (expectWord words) :=
  ends_expectWord.weaken fun _ _ hs => hs.1

/-- Going on with a token of which something is known. -/
lemma blames_token_bind {p : Parse Token} {K : Token → Prop} {f : Token → Parse β}
    (hp : Ends (OnTrack tokens) p (fun t s => OnTrack tokens s ∧ t.Counts tokens ∧ K t)
      (Blame tokens))
    (hf : ∀ t, t.Counts tokens → K t → Ends (OnTrack tokens) (f t) S (Blame tokens)) :
    Ends (OnTrack tokens) (p >>= f) S (Blame tokens) := by
  refine Ends.bind hp fun t => .known (fun _ hs => hs.2) fun ht => ?_
  exact (hf t ht.1 ht.2).strengthen fun _ hs => hs.1

lemma blames_expect_bind {f : Token → Parse β} (h : .endOfFile ∉ kinds)
    (hf : ∀ t, t.Counts tokens → t.kind ∈ kinds → Ends (OnTrack tokens) (f t) S (Blame tokens)) :
    Ends (OnTrack tokens) (expect kinds >>= f) S (Blame tokens) :=
  blames_token_bind ((ends_expect h).strengthen fun _ hs => hs.among) hf

end Rules

section Expressions
variable {inner : Inner} {left : Expression} {power : Power} {t : Token}

def InnerBlames (tokens : List Token) (inner : Inner) : Prop := ∀ limit, Blames tokens (inner limit)

lemma blames_primary : Blames tokens primary := by
  unfold primary
  refine blames_expect_bind (by decide) fun t ht _ => ?_
  cases t.kind with
  | number =>
    cases readNumber? t.value with
    | none => exact blames_throw ⟨t, ht, rfl⟩
    | some value => exact blames_pure _
  | _ => exact blames_pure _

lemma blames_grouping (h : InnerBlames tokens inner) : Blames tokens (grouping inner) := by
  unfold grouping
  refine (blames_expect (by decide)).past ((h .lowest).bind fun e => ?_)
  exact (blames_expect (by decide)).past (blames_pure e)

lemma blames_unary (h : InnerBlames tokens inner) : Blames tokens (unary inner) := by
  unfold unary
  exact (blames_expect (by decide)).bind fun t => (h .unary).bind fun e => blames_pure _

lemma blames_reference {context : ShapeContext} (ht : t.Counts tokens) (hmarks : context.Marks t)
    (e : Expression) : Blames tokens (reference context t.span e) := by
  unfold reference
  cases Reference.ofExpression? e with
  | none => exact blames_throw ⟨t, ht, rfl, hmarks⟩
  | some r => exact blames_pure r

lemma ends_stateOperator :
    Ends (OnTrack tokens) stateOperator
      (fun t s => OnTrack tokens s ∧ t.Counts tokens ∧ ShapeContext.stateArgument.Marks t)
      (Blame tokens) := by
  unfold stateOperator
  refine blames_checkWord.bind fun b => ?_
  cases b with
  | true => exact ends_expectWord.weaken fun t s hs => ⟨hs.1, hs.2.1, .inr hs.2.2⟩
  | false =>
    refine Ends.weaken (Ends.strengthen (ends_expect (by decide)) fun _ hs => hs.among) ?_
    exact fun t s hs => ⟨hs.1, hs.2.1, .inl hs.2.2⟩

lemma blames_state (h : InnerBlames tokens inner) : Blames tokens (state inner) := by
  unfold state
  refine blames_token_bind ends_stateOperator fun t ht hmarks => (h .unary).bind fun e => ?_
  exact (blames_reference ht hmarks e).bind fun r => blames_pure _

lemma blames_opening (h : InnerBlames tokens inner) (rule : OpeningRule) :
    Blames tokens (opening inner rule) := by
  cases rule with
  | primary => exact blames_primary
  | grouping => exact blames_grouping h
  | unary => exact blames_unary h
  | state => exact blames_state h

/-- The cursor is in front of a token for which the grammar has this rule. -/
def Joins (tokens : List Token) (rule : JoiningRule) (s : ParseState) : Prop :=
  OnTrack tokens s ∧ s.cursor.Facing ∧
    ∃ power, Grammar.stock.joining? s.cursor.current = some (rule, power)

/-- No operator is the end of the file, so another token is left behind it. -/
lemma blames_binary (h : InnerBlames tokens inner) :
    Ends (Joins tokens .binary) (binary inner left power) (fun _ => OnTrack tokens)
      (Blame tokens) := by
  have hadvance : Ends (Joins tokens .binary) (advance 1) (fun _ => OnTrack tokens)
      (Blame tokens) := by
    rintro s ⟨hs, hfacing, found, hjoins⟩
    change (s.cursor.moveBy 1).Amid tokens
    rw [hfacing.moveBy_one]
    refine hs.among.pass fun hend => ?_
    rw [hfacing.current_eq, Grammar.joining?_of_kind hend rfl] at hjoins
    exact absurd hjoins nofun
  unfold binary
  exact hadvance.bind fun t => (h power).bind fun e => blames_pure _

lemma blames_assignment (h : InnerBlames tokens inner) :
    Ends (Joins tokens .assignment) (assignment inner left) (fun _ => OnTrack tokens)
      (Blame tokens) := by
  unfold assignment
  refine ends_current_bind fun t => ?_
  have hsign : ∀ s, Joins tokens .assignment s ∧ s.cursor.current = t →
      t.Counts tokens ∧ ShapeContext.assignmentTarget.Marks t := by
    rintro s ⟨⟨hs, hfacing, found, hjoins⟩, rfl⟩
    exact ⟨hs.counts_current hfacing, Grammar.kind_of_joining?_assignment hjoins⟩
  refine .known hsign fun ht => Ends.strengthen ?_ fun _ hs => hs.1.1
  refine (blames_reference ht.1 ht.2 left).bind fun target => ?_
  refine (blames_expect (by decide)).bind fun t => (h .assignment).bind fun value => ?_
  cases t.operation with
  | none => exact blames_pure _
  | some operation => exact blames_pure _

lemma blames_member (h : InnerBlames tokens inner) : Blames tokens (member inner left power) := by
  unfold member
  refine blames_current_bind fun t => ?_
  split
  · refine blames_expect_bind (by decide) fun dot hdot hkind => (h power).bind fun property => ?_
    split
    · exact blames_pure _
    · exact blames_pure _
    · exact blames_throw ⟨dot, hdot, rfl, List.mem_singleton.1 hkind⟩
  · refine (blames_expect (by decide)).past ((h .lowest).bind fun property => ?_)
    exact (blames_expect (by decide)).past (blames_pure _)

lemma blames_separator (isFirst : Bool) : Blames tokens (separator isFirst) := by
  cases isFirst with
  | true => exact blames_pure ()
  | false =>
    have hcomma : Blames tokens (expect [.comma]) := blames_expect (by decide)
    exact hcomma.map

lemma blames_arguments (h : InnerBlames tokens inner) (n : Nat) (isFirst : Bool) :
    Blames tokens (arguments inner n isFirst) := by
  induction n generalizing isFirst with
  | zero => exact blames_cutOff
  | succ n ih =>
    refine blames_skipLayout.bind fun _ => blames_current_bind fun t => ?_
    split
    · exact blames_pure []
    refine (blames_separator isFirst).bind fun _ => (h .lowest).bind fun e => ?_
    exact (ih false).bind fun es => blames_pure _

lemma blames_call (h : InnerBlames tokens inner) (n : Nat) : Blames tokens (call inner n left) := by
  unfold call
  refine (blames_expect (by decide)).past ((blames_arguments h n true).bind fun es => ?_)
  exact (blames_expect (by decide)).past (blames_pure _)

lemma blames_joining (h : InnerBlames tokens inner) (n : Nat) (rule : JoiningRule) :
    Ends (Joins tokens rule) (joining inner n left power rule) (fun _ => OnTrack tokens)
      (Blame tokens) := by
  cases rule with
  | binary => exact blames_binary h
  | assignment => exact blames_assignment h
  | member => exact (blames_member h).strengthen fun _ hs => hs.1
  | call => exact (blames_call h n).strengthen fun _ hs => hs.1

/-- An action that starts with the token in front of it, whichever that is. -/
lemma blames_facing {β : Type} {f : Cursor → Parse β}
    (h : ∀ c : Cursor, c.Amid tokens → c.Facing →
      Ends (·.cursor = c) (f c) (fun _ => OnTrack tokens) (Blame tokens)) :
    Blames tokens (skipLayout >>= fun _ => cursor >>= f) := by
  have hskip : Ends (OnTrack tokens) skipLayout (fun _ s => OnTrack tokens s ∧ s.cursor.Facing)
      (Blame tokens) :=
    ends_skipLayout fun s hs => ⟨hs.skipLayout, s.cursor.facing_skipLayout⟩
  refine hskip.bind fun _ => ends_cursor_bind fun c => ?_
  refine .known (fun _ hs => (hs.2 ▸ hs.1 : c.Amid tokens ∧ c.Facing)) fun hc => ?_
  exact (h c hc.1 hc.2).strengthen fun _ hs => hs.2

lemma blames_climb (h : InnerBlames tokens inner) (limit : Power) (n : Nat) (left : Expression) :
    Blames tokens (climb .stock inner limit n left) := by
  induction n generalizing left with
  | zero => exact blames_cutOff
  | succ n ih =>
    refine blames_facing fun c hc hfacing => ?_
    cases hjoins : Grammar.stock.joining? c.current with
    | none => exact (blames_pure left).at hc
    | some found =>
      obtain ⟨rule, power⟩ := found
      dsimp only
      split
      · refine (ends_note fun _ _ hs => hs).bind fun _ => ?_
        refine Ends.bind (Ends.strengthen (blames_joining h n rule) ?_) fun e => ih e
        rintro s rfl
        exact ⟨hc, hfacing, power, hjoins⟩
      · exact (blames_pure left).at hc

lemma blames_expression (n : Nat) : InnerBlames tokens (expression .stock n) := by
  induction n with
  | zero => exact fun _ => blames_cutOff
  | succ n ih =>
    intro limit
    refine blames_facing fun c hc hfacing => ?_
    cases Grammar.stock.opening? c.current with
    | none =>
      refine ends_noOpening fun s hs _ => ?_
      rw [hs]
      exact ⟨c.current, hc.counts_current hfacing, rfl, hc.getElem?_position⟩
    | some found =>
      refine Blames.at ?_ hc
      refine blames_note.bind fun _ => (blames_opening ih found.1).bind fun left => ?_
      exact blames_climb ih limit n left

lemma blames_parseExpression (limit : Power) : Blames tokens (parseExpression .stock limit) :=
  blames_budget_bind fun n => blames_expression n limit

lemma blames_parseExpressionStatement : Blames tokens (parseExpressionStatement .stock) := by
  unfold parseExpressionStatement
  refine (blames_parseExpression .lowest).bind fun e => ?_
  exact (blames_expect (by decide)).past (blames_pure e)

end Expressions

section Statements
variable {p : Parse Statement}

lemma blames_duration : Blames tokens duration := by
  unfold duration
  refine blames_checkWord.bind fun b => ?_
  cases b with
  | true => exact blames_expectWord.past (blames_pure _)
  | false =>
    refine blames_expect_bind (by decide) fun t ht _ => ?_
    cases readNumber? t.value with
    | none => exact blames_throw ⟨t, ht, rfl⟩
    | some value => exact blames_pure value

lemma blames_lifetimeUnit : Blames tokens lifetimeUnit := by
  unfold lifetimeUnit
  refine blames_checkWord.bind fun b => ?_
  cases b with
  | true => exact blames_expectWord.past (blames_pure _)
  | false => exact blames_pure _

lemma blames_lifetime? : Blames tokens lifetime? := by
  unfold lifetime?
  refine blames_check.bind fun b => ?_
  cases b with
  | true =>
    refine (blames_expect (by decide)).past (blames_duration.bind fun d => ?_)
    refine blames_lifetimeUnit.bind fun unit => ?_
    exact (blames_expect (by decide)).past (blames_pure _)
  | false => exact blames_pure _

lemma blames_modifier : Blames tokens modifier := by
  unfold modifier
  exact blames_expectWord.bind fun t => blames_pure _

lemma blames_initializer? : Blames tokens (initializer? .stock) := by
  unfold initializer?
  refine blames_check.bind fun b => ?_
  cases b with
  | true => exact (blames_expect (by decide)).past (blames_parseExpression .lowest).map
  | false => exact blames_pure _

lemma blames_parameters (n : Nat) (isFirst : Bool) : Blames tokens (parameters n isFirst) := by
  induction n generalizing isFirst with
  | zero => exact blames_cutOff
  | succ n ih =>
    refine blames_skipLayout.bind fun _ => blames_current_bind fun t => ?_
    split
    · exact blames_pure []
    refine (blames_separator isFirst).bind fun _ => ?_
    refine (blames_expect (by decide)).bind fun identifier => blames_lifetime?.bind fun l => ?_
    exact (ih false).bind fun ps => blames_pure _

/-- Where the cursor is behind a statement. Only the end of the file can be the last token passed,
and the end of a block is in front of its bracket. -/
structure StandsBehind (tokens : List Token) (a : Statement) (s : ParseState) : Prop where
  among : s.cursor.Among tokens
  onTrack : a ≠ .endOfFile → OnTrack tokens s
  bracket : a = .endOfBlock → s.cursor.current.kind = .closeCurly

/-- A parser for statements ends there, or it fails and points at a token. -/
def StatementBlames (tokens : List Token) (p : Parse Statement) : Prop :=
  Ends (OnTrack tokens) p (StandsBehind tokens) (Blame tokens)

lemma blames_conclude {a : Statement} (ha : a.isSentinel = false) :
    StatementBlames tokens (pure a) := by
  refine ends_pure fun s hs => ⟨hs.among, fun _ => hs, ?_⟩
  rintro rfl
  exact absurd ha (by decide)

lemma blames_variableDeclaration : StatementBlames tokens (variableDeclaration .stock) := by
  unfold variableDeclaration
  refine blames_modifier.bind fun canReassign => blames_modifier.bind fun canMutate => ?_
  refine (blames_expect (by decide)).bind fun identifier => blames_lifetime?.bind fun lifetime => ?_
  refine blames_initializer?.bind fun value => ?_
  exact (blames_expect (by decide)).past (blames_conclude rfl)

/-- The statements of a block may end with the file. -/
lemma ends_statements (h : StatementBlames tokens p) (n : Nat) :
    Ends (OnTrack tokens) (statements p n) (fun _ s => s.cursor.Among tokens) (Blame tokens) := by
  induction n with
  | zero => exact blames_cutOff
  | succ n ih =>
    refine Ends.bind h fun a => ?_
    by_cases ha : a.isSentinel
    · rw [if_pos ha]
      exact ends_pure fun _ hs => hs.among
    · rw [if_neg ha]
      have hfile : a ≠ .endOfFile := by
        rintro rfl
        exact ha rfl
      refine Ends.strengthen ?_ fun _ hs => hs.onTrack hfile
      exact Ends.bind ih fun ss => ends_pure fun _ hs => hs

lemma blames_block (h : StatementBlames tokens p) : Blames tokens (block p) := by
  unfold block
  refine (blames_expect (by decide)).past (blames_budget_bind fun n => ?_)
  refine (ends_statements h n).bind fun body => ?_
  have hclose : Ends (fun s => s.cursor.Among tokens) (expect [.closeCurly])
      (fun _ => OnTrack tokens) (Blame tokens) :=
    (ends_expect (by decide)).weaken fun _ _ hs => hs.1
  exact hclose.discard.bind fun _ => blames_pure body

lemma blames_asyncMark : Blames tokens asyncMark := by
  unfold asyncMark
  refine blames_checkWord.bind fun b => ?_
  cases b with
  | true => exact blames_expectWord.past (blames_pure _)
  | false => exact blames_pure _

lemma blames_functionBody (h : StatementBlames tokens p) :
    Blames tokens (functionBody .stock p) := by
  unfold functionBody
  refine blames_check.bind fun b => ?_
  cases b with
  | true => exact (blames_block h).map
  | false => exact blames_parseExpressionStatement.map

lemma blames_functionDeclaration (h : StatementBlames tokens p) :
    StatementBlames tokens (functionDeclaration .stock p) := by
  unfold functionDeclaration
  refine blames_asyncMark.bind fun isAsync => blames_expectWord.past ?_
  refine (blames_expect (by decide)).bind fun identifier => ?_
  refine (blames_expect (by decide)).past (blames_budget_bind fun n => ?_)
  refine (blames_parameters n true).bind fun params => ?_
  refine (blames_expect (by decide)).past ((blames_expect (by decide)).past ?_)
  exact (blames_functionBody h).bind fun body => blames_conclude rfl

lemma blames_returning : StatementBlames tokens (returning .stock) := by
  unfold returning
  refine blames_expectWord.past ((blames_parseExpression .lowest).bind fun argument => ?_)
  exact (blames_expect (by decide)).past (blames_conclude rfl)

lemma blames_guarded (h : StatementBlames tokens p) (word : String) :
    Blames tokens (guarded .stock p word) := by
  unfold guarded
  refine blames_expectWord.past ((blames_expect (by decide)).past ?_)
  refine (blames_parseExpression .lowest).bind fun test => ?_
  exact (blames_expect (by decide)).past ((blames_block h).bind fun body => blames_pure _)

lemma blames_alternate {q : Parse Conditional} (h : StatementBlames tokens p)
    (hq : Blames tokens q) : Blames tokens (alternate p q) := by
  unfold alternate
  refine blames_checkWord.bind fun b => ?_
  cases b with
  | false => exact blames_pure _
  | true =>
    refine blames_expectWord.past (blames_checkWord.bind fun b => ?_)
    cases b with
    | true => exact hq.map
    | false => exact (blames_block h).map

lemma blames_conditional (h : StatementBlames tokens p) (n : Nat) :
    Blames tokens (conditional .stock p n) := by
  induction n with
  | zero => exact blames_cutOff
  | succ n ih =>
    refine (blames_guarded h "if").bind fun found => ?_
    exact (blames_alternate h ih).bind fun alternate => blames_pure _

lemma blames_when (h : StatementBlames tokens p) : StatementBlames tokens (when .stock p) := by
  unfold when
  exact (blames_guarded h "when").bind fun found => blames_conclude rfl

/-- The end of the file is the only token that may be passed as the last one. -/
lemma blames_endOfFile : StatementBlames tokens endOfFile := by
  have htake : Ends (OnTrack tokens) (expect [.endOfFile]) (fun _ s => s.cursor.Among tokens)
      (Blame tokens) :=
    ends_take (.kinds [.endOfFile]) (fun _ hs _ => hs.among) fun _ hs _ =>
      Expected.points_mismatch _ hs.among
  unfold endOfFile
  refine htake.discard.bind fun _ => ?_
  exact ends_pure fun _ hs => ⟨hs, fun hne => absurd rfl hne, nofun⟩

lemma blames_ruled (h : StatementBlames tokens p) (rule : StatementRule) :
    StatementBlames tokens (ruled .stock p rule) := by
  cases rule with
  | variableDeclaration => exact blames_variableDeclaration
  | functionDeclaration => exact blames_functionDeclaration h
  | returning => exact blames_returning
  | conditional =>
    refine blames_budget_bind fun n => (blames_conditional h n).bind fun branch => ?_
    exact blames_conclude rfl
  | when => exact blames_when h
  | block => exact (blames_block h).bind fun body => blames_conclude rfl
  | endOfFile => exact blames_endOfFile

lemma blames_statement (n : Nat) : StatementBlames tokens (statement .stock n) := by
  induction n with
  | zero => exact blames_cutOff
  | succ n ih =>
    refine blames_skipLayout.bind fun _ => ends_current_bind fun t => ?_
    cases Grammar.stock.statement? t with
    | some rule => exact (blames_ruled ih rule).strengthen fun _ hs => hs.1
    | none =>
      dsimp only
      split
      · next hkind =>
        refine ends_pure fun s hs => ⟨hs.1.among, fun _ => hs.1, fun _ => ?_⟩
        rw [hs.2, hkind]
      · refine Ends.strengthen ?_ fun _ hs => hs.1
        exact blames_parseExpressionStatement.bind fun e => blames_conclude rfl

lemma blames_parseStatement : StatementBlames tokens (parseStatement .stock) :=
  blames_budget_bind blames_statement

lemma ends_programBody (n : Nat) :
    Ends (OnTrack tokens) (programBody .stock n) (fun _ _ => True) (Blame tokens) := by
  induction n with
  | zero => exact blames_cutOff
  | succ n ih =>
    refine Ends.bind blames_parseStatement fun a => ?_
    split
    · exact ends_pure fun _ _ => trivial
    · refine ends_current_bind fun t => ends_throw fun s hs _ => ?_
      obtain ⟨hs, rfl⟩ := hs
      have hlayout : s.cursor.current.kind.isIgnorable = false := by
        rw [hs.bracket rfl]
        rfl
      exact ⟨s.cursor.current, ⟨hs.among.tokenAt_mem _, hlayout⟩, rfl⟩
    · next hfile hblock =>
      refine Ends.strengthen ?_ fun _ hs => hs.onTrack hfile
      exact ih.bind fun body => ends_pure fun _ _ => trivial

lemma ends_parseProgram :
    Ends (OnTrack tokens) (parseProgram .stock) (fun _ _ => True) (Blame tokens) := by
  unfold parseProgram
  refine blames_budget_bind fun n => (ends_programBody n).bind fun body => ?_
  exact (ends_note fun _ _ hs => hs).bind fun _ => ends_pure fun _ hs => hs

end Statements
end Parse

/-- The errors of tokens that end with the end of the file are about one of them. -/
lemma points_of_parseTokens {body : List Token} {last : Token} (hlast : last.kind = .endOfFile)
    {e : ParseError} (h : parseTokens .stock (body ++ [last]) = .error e) :
    e.Points (body ++ [last]) := by
  have hcursor : (ParseState.ofTokens (body ++ [last])).cursor =
      { body, last, last_kind := hlast } := Cursor.ofTokens_append hlast
  have hstart : Parse.OnTrack (body ++ [last]) (.ofTokens (body ++ [last])) := by
    rw [Parse.OnTrack, hcursor]
    exact ⟨rfl, by simp [Cursor.Ended, Cursor.size]⟩
  have hleads : (ParseState.ofTokens (body ++ [last])).Leads
      ((parseProgram .stock).run (.ofTokens (body ++ [last]))).2 :=
    Parse.leads_of_near (Parse.moves_parseProgram .stock) (fun _ _ hs => hs)
      ⟨⟨.refl _, rfl⟩, Nat.lt_succ_self _⟩
  exact Parse.ends_parseProgram.of_error hstart h hleads.overrun

/-- An error of a parse always points at a token of the source that is no layout. Its span is the
span of that token, which is a stretch of the source, and its line is the line of the token, if it
tells one. The token is the one that the error holds, and the one at the position that it tells; a
misshapen expression is told by the sign of an assignment, by a state operator or by a dot. -/
theorem parse_error_points {source : String} {tokens : List Token} {e : ParseError}
    (htokens : tokenize source = .ok tokens) (h : parseTokens .stock tokens = .error e) :
    ∃ t ∈ tokens, t.kind.isIgnorable = false ∧ e.IsAbout tokens t ∧ e.span = t.span ∧
      (e.line? = some t.line ∨ ∃ context found span, e = .misshapen context found span) ∧
      ∃ text, Between source.toList e.span.start e.span.stop text := by
  have hlaid := laid_of_tokenize htokens
  obtain ⟨found, last, rfl, hlast, hend, hfound⟩ := hlaid.stretches [] rfl
  obtain ⟨t, ⟨hmem, hcounts⟩, habout⟩ := points_of_parseTokens hlast h
  refine ⟨t, hmem, hcounts, habout, habout.span_eq, habout.line?_eq, ?_⟩
  rw [habout.span_eq]
  rcases List.mem_append.1 hmem with hmem | hmem
  · obtain ⟨-, -, text, hbetween, -⟩ := hfound t hmem
    exact ⟨text, by simpa using hbetween⟩
  · rw [List.mem_singleton.1 hmem, hend]
    exact ⟨[], source.toList, [], by simp, by simp, by simp [byteSize, Span.stop]⟩

/-- A sum on the left of an assignment: the error points at the sign, on the next line. -/
theorem parse_error_points_sum :
    ∃ tokens e, tokenize "x+y\r=1!" = .ok tokens ∧ parseTokens .stock tokens = .error e ∧
      e.span = ⟨4, 1⟩ ∧
      ∃ t ∈ tokens, t.kind.isIgnorable = false ∧ e.IsAbout tokens t ∧ e.span = t.span ∧
        (e.line? = some t.line ∨ ∃ context found span, e = .misshapen context found span) ∧
        ∃ text, Between "x+y\r=1!".toList e.span.start e.span.stop text := by
  have hfails : ((tokenize "x+y\r=1!").toOption.map fun tokens =>
      ((parseTokens .stock tokens).mapError (·.span)).map fun _ => ()) =
        some (.error ⟨4, 1⟩) := by decide +kernel
  cases htokens : tokenize "x+y\r=1!" with
  | error e => simp [htokens, Except.toOption] at hfails
  | ok tokens =>
    cases h : parseTokens .stock tokens with
    | ok program => simp [htokens, h, Except.toOption, Except.mapError, Except.map] at hfails
    | error e =>
      have hspan : e.span = ⟨4, 1⟩ := by
        simpa [htokens, h, Except.toOption, Except.mapError, Except.map] using hfails
      exact ⟨tokens, e, rfl, h, hspan, parse_error_points htokens h⟩

end Exclaim
