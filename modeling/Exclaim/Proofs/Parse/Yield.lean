import Exclaim.Proofs.Parse.Takes

/-! What a program carries over from its tokens: the literals, the operators and the lifetimes, each
once and in the order of the source. -/
namespace Exclaim

/-- What a tree says about one token. -/
inductive Mark where
  /-- The token itself. -/
  | token (t : Token)
  | string (value : String)
  | number (value : Float)
  /-- One of the brackets around a lifetime. -/
  | bracket (kind : TokenKind)
  | duration (value : Float)

/-- Whether a token is as a tree says. -/
def Mark.Fits : Mark → Token → Prop
  | .token t, u => u = t
  | .string value, u => u.kind = .string ∧ u.value = value
  | .number value, u | .duration value, u => u.kind = .number ∧ readNumber? u.value = some value
  | .bracket kind, u => u.kind = kind

/-- Whether a mark says that a lifetime has no end. -/
def Mark.isEndless : Mark → Bool
  | .duration value => value = Binary.infinity false
  | _ => false

/-- Whether trees tell where tokens of a kind stand: literals, and operators before an operand or
between two. -/
def TokenKind.isCarried (kind : TokenKind) : Bool :=
  kind ∈ [string, number, plusPlus, minusMinus] ||
    Grammar.stock.joinings.any (fun entry => entry.rule = .binary && entry.kind = kind) ||
    Grammar.stock.openings.any (fun entry => entry.rule = .unary && entry.kind = kind)

/-- The words that ask for the history of a variable are not carried. -/
def Token.stateMarks (t : Token) : List Mark :=
  if t.kind = .plusPlus ∨ t.kind = .minusMinus then [.token t] else []

mutual

def Expression.yield : Expression → List Mark
  | .assignment target value => target.yield ++ value.yield
  | .unary operator operand => .token operator :: operand.yield
  | .state operator argument => operator.stateMarks ++ argument.yield
  | .binary left operator right => left.yield ++ .token operator :: right.yield
  | .number value => [.number value]
  | .string value => [.string value]
  | .symbol _ => []
  | .object properties => Property.yieldAll properties
  | .array elements => Expression.yieldAll elements
  | .member object property _ => object.yield ++ property.yield
  | .call callee arguments => callee.yield ++ Expression.yieldAll arguments
  | .branching branches => Expression.yieldAll branches

def Reference.yield : Reference → List Mark
  | .symbol _ => []
  | .member object property _ => object.yield ++ property.yield

def Property.yield : Property → List Mark
  | .mk key value _ _ => key.yield ++ value.yield

def Expression.yieldAll : List Expression → List Mark
  | [] => []
  | e :: es => e.yield ++ Expression.yieldAll es

def Property.yieldAll : List Property → List Mark
  | [] => []
  | p :: ps => p.yield ++ Property.yieldAll ps

end

def Lifetime.yield (lifetime : Lifetime) : List Mark :=
  [.bracket .smaller, .duration lifetime.duration, .bracket .greater]

def Parameter.yield (p : Parameter) : List Mark := p.lifetime.toList.flatMap Lifetime.yield

mutual

/-- The marks of a statement in the order of the source: a lifetime stands before the value. -/
def Statement.yield : Statement → List Mark
  | .expression e => e.yield
  | .block body => Statement.yieldAll body
  | .variableDeclaration _ _ value lifetime =>
      lifetime.toList.flatMap Lifetime.yield ++ value.toList.flatMap Expression.yield
  | .functionDeclaration _ parameters _ body => parameters.flatMap Parameter.yield ++ body.yield
  | .returning argument => argument.yield
  | .conditional branch => branch.yield
  | .when test consequent => test.yield ++ Statement.yieldAll consequent
  | .branching branches => Statement.yieldBranches branches
  | .classDeclaration | .delete | .reverse | .importing | .exporting | .endOfFile
  | .endOfBlock => []

def FunctionBody.yield : FunctionBody → List Mark
  | .block body => Statement.yieldAll body
  | .expression e => e.yield

def Conditional.yield : Conditional → List Mark
  | .mk test consequent alternate =>
      test.yield ++ Statement.yieldAll consequent ++ alternate.yield

def Alternate.yield : Alternate → List Mark
  | .none => []
  | .conditional branch => branch.yield
  | .block body => Statement.yieldAll body

def Statement.yieldAll : List Statement → List Mark
  | [] => []
  | s :: ss => s.yield ++ Statement.yieldAll ss

def Statement.yieldBranches : List (List Statement) → List Mark
  | [] => []
  | b :: bs => Statement.yieldAll b ++ Statement.yieldBranches bs

end

/-- The marks of a program in the order of the source. -/
def Block.yield (program : Block) : List Mark := Statement.yieldAll program

lemma Reference.yield_toExpression (r : Reference) : r.toExpression.yield = r.yield := by
  cases r <;> rfl

/-- The tokens are those that the marks say, one for one. A lifetime without an end may be spelled
by a token that is not carried. -/
inductive Emits : List Mark → List Token → Prop where
  | nil : Emits [] []
  | cons {m : Mark} {ms : List Mark} {t : Token} {ts : List Token} (fits : m.Fits t)
      (rest : Emits ms ts) : Emits (m :: ms) (t :: ts)
  | endless {m : Mark} {ms : List Mark} {ts : List Token} (endless : m.isEndless)
      (rest : Emits ms ts) : Emits (m :: ms) ts

namespace Emits
variable {ms ms' : List Mark} {ts ts' : List Token}

lemma append (h : Emits ms ts) (h' : Emits ms' ts') : Emits (ms ++ ms') (ts ++ ts') := by
  induction h with
  | nil => exact h'
  | cons fits _ ih => exact .cons fits ih
  | endless hm _ ih => exact .endless hm ih

/-- Where no token means infinity, a lifetime without an end has no token. -/
lemma forall₂ (h : Emits ms ts)
    (hts : ∀ t ∈ ts, t.kind = .number → readNumber? t.value ≠ some (Binary.infinity false)) :
    List.Forall₂ Mark.Fits (ms.filter (!·.isEndless)) ts := by
  induction h with
  | nil => exact .nil
  | @cons m ms t ts fits rest ih =>
    have hm : m.isEndless = false := by
      by_contra hm
      cases m <;> simp_all [Mark.isEndless, Mark.Fits]
    rw [List.filter_cons_of_pos (by simp [hm])]
    exact .cons fits (ih fun u hu => hts u (by simp [hu]))
  | endless hm rest ih =>
    rw [List.filter_cons_of_neg (by simp [hm])]
    exact ih hts

end Emits

/-- Those of the tokens that are carried are what the marks say, unless a target is copied. -/
def Yields (ms : List Mark) (ts : List Token) : Prop :=
  (∀ t ∈ ts, t.operation = none) → Emits ms (ts.filter (·.kind.isCarried))

namespace Yields
variable {ms ms' : List Mark} {m : Mark} {ts ts' : List Token} {t opener closer : Token}

lemma nil : Yields [] [] := fun _ => .nil

lemma append (h : Yields ms ts) (h' : Yields ms' ts') : Yields (ms ++ ms') (ts ++ ts') := by
  intro hplain
  rw [List.filter_append]
  exact (h fun t ht => hplain t (by simp [ht])).append (h' fun t ht => hplain t (by simp [ht]))

lemma skip (ht : t.kind.isCarried = false) (h : Yields ms ts) : Yields ms (t :: ts) := by
  intro hplain
  rw [List.filter_cons_of_neg (by simp [ht])]
  exact h fun t ht => hplain t (by simp [ht])

lemma cons (ht : t.kind.isCarried) (hm : m.Fits t) (h : Yields ms ts) :
    Yields (m :: ms) (t :: ts) := by
  intro hplain
  rw [List.filter_cons_of_pos (by simpa using ht)]
  exact .cons hm (h fun t ht => hplain t (by simp [ht]))

lemma token (ht : t.kind.isCarried) (h : Yields ms ts) : Yields (.token t :: ms) (t :: ts) :=
  h.cons ht rfl

lemma endless (hm : m.isEndless) (h : Yields ms ts) : Yields (m :: ms) ts :=
  fun hplain => .endless hm (h hplain)

/-- Tokens that are not carried. -/
lemma plain (h : ∀ t ∈ ts, t.kind.isCarried = false) : Yields [] ts := by
  induction ts with
  | nil => exact nil
  | cons t ts ih => exact (ih fun u hu => h u (by simp [hu])).skip (h t (by simp))

lemma enclose_append (ho : opener.kind.isCarried = false) (hc : closer.kind.isCarried = false)
    (h : Yields ms ts) (h' : Yields ms' ts') :
    Yields (ms ++ ms') (opener :: (ts ++ closer :: ts')) :=
  (h.append (h'.skip hc)).skip ho

lemma enclose (ho : opener.kind.isCarried = false) (hc : closer.kind.isCarried = false)
    (h : Yields ms ts) : Yields ms (opener :: (ts ++ [closer])) := by
  simpa using h.enclose_append ho hc nil

end Yields

lemma Separates.yields {isFirst : Bool} {ts : List Token} (h : Separates isFirst ts) :
    Yields [] ts := by
  cases isFirst with
  | true =>
    obtain rfl : ts = [] := h
    exact .nil
  | false =>
    obtain ⟨comma, hcomma, rfl⟩ := h
    exact Yields.nil.skip (hcomma ▸ rfl)

lemma isCarried_of_mem {kinds : List TokenKind} {b : Bool}
    (hall : ∀ kind ∈ kinds, kind.isCarried = b) {t : Token} (h : t.kind ∈ kinds) :
    t.kind.isCarried = b :=
  hall _ h

lemma isCarried_of_isTerminator {kind : TokenKind} (h : kind.isTerminator) :
    kind.isCarried = false := by
  cases kind <;> first | rfl | exact absurd h Bool.noConfusion

mutual

lemma Expression.Spelled.yields {e : Expression} {ts : List Token} :
    e.Spelled ts → Yields e.yield ts
  | .number kind reads => Yields.nil.cons (kind ▸ rfl) ⟨kind, reads⟩
  | .string kind => Yields.nil.cons (kind ▸ rfl) ⟨kind, rfl⟩
  | .symbol kind => Yields.nil.skip (kind ▸ rfl)
  | .grouping opens inner closes => inner.yields.enclose (opens ▸ rfl) (closes ▸ rfl)
  | .unary kind right => right.yields.token (isCarried_of_mem (by decide) kind)
  | .state kind right => by
      rw [Expression.yield, ← Reference.yield_toExpression, Token.stateMarks]
      rcases kind with ⟨hk, -⟩ | hk | hk
      · simpa [hk] using right.yields.skip (hk ▸ rfl)
      · simpa [hk] using right.yields.token (hk ▸ rfl)
      · simpa [hk] using right.yields.token (hk ▸ rfl)
  | .binary before kind behind =>
      before.yields.append
        (behind.yields.token (isCarried_of_mem (by decide) (kind_of_operatorPower? kind)))
  | .assignment before kind plain behind => by
      rw [Expression.yield, ← Reference.yield_toExpression]
      exact before.yields.append (behind.yields.skip (isCarried_of_mem (by decide) kind))
  | @Expression.Spelled.combined _ sign _ _ _ _ before kind combines behind => fun hplain => by
      have hnone : sign.operation = none := hplain sign (by simp)
      rw [combines] at hnone
      exact absurd hnone (by simp)
  | .property before kind behind => before.yields.append (behind.yields.skip (kind ▸ rfl))
  | .element before opens inner closes | .call before opens inner closes =>
      before.yields.append (inner.yields.enclose (opens ▸ rfl) (closes ▸ rfl))

lemma Expression.Listed.yields {isFirst : Bool} {es : List Expression} {ts : List Token} :
    Expression.Listed isFirst es ts → Yields (Expression.yieldAll es) ts
  | .nil => .nil
  | .cons separates first rest => separates.yields.append (first.yields.append rest.yields)

end

lemma Lifetime.Spelled.yields {lifetime : Option Lifetime} {ts : List Token}
    (h : Lifetime.Spelled lifetime ts) : Yields (lifetime.toList.flatMap Lifetime.yield) ts := by
  cases h with
  | none => exact .nil
  | @some lifetime opener t closer us opens duration unit closes =>
    have hcloser : Yields [.bracket .greater] [closer] := Yields.nil.cons (closes ▸ rfl) closes
    have hunit : Yields [] us := Yields.plain fun word hword => unit.kind_eq word hword ▸ rfl
    have hend : Yields [.bracket .greater] (us ++ [closer]) := hunit.append hcloser
    have hduration : Yields [.duration lifetime.duration, .bracket .greater]
        (t :: (us ++ [closer])) := by
      rcases duration with ⟨hk, hd⟩ | ⟨hk, hd⟩
      · exact (hend.skip (hk ▸ rfl)).endless (by simp [Mark.isEndless, hd])
      · exact hend.cons (hk ▸ rfl) ⟨hk, hd⟩
    exact hduration.cons (opens ▸ rfl) opens

lemma Parameter.Listed.yields {isFirst : Bool} {ps : List Parameter} {ts : List Token}
    (h : Parameter.Listed isFirst ps ts) : Yields (ps.flatMap Parameter.yield) ts := by
  induction h with
  | nil => exact .nil
  | cons separates kind lifetime rest ih =>
    exact separates.yields.append ((lifetime.yields.append ih).skip (kind ▸ rfl))

lemma Expression.Initial.yields {value : Option Expression} {ts : List Token}
    (h : Expression.Initial value ts) : Yields (value.toList.flatMap Expression.yield) ts := by
  cases h with
  | none => exact .nil
  | some kind behind => simpa using behind.yields.skip (kind ▸ rfl)

lemma Yields.stop {ms : List Mark} {ts : List Token} {stop : Token} (h : Yields ms ts)
    (stops : stop.kind.isTerminator) : Yields ms (ts ++ [stop]) := by
  simpa using h.append (Yields.nil.skip (isCarried_of_isTerminator stops))

mutual

lemma Statement.Spelled.yields {s : Statement} {ts : List Token} :
    s.Spelled ts → Yields s.yield ts
  | .expression inner stops => inner.yields.stop stops
  | .block inner => inner.yields
  | .variableDeclaration first_kind second_kind name_kind lives starts stops =>
      (((lives.yields.append (starts.yields.stop stops)).skip (name_kind ▸ rfl)).skip
        (second_kind ▸ rfl)).skip (first_kind ▸ rfl)
  | .functionDeclaration marks_kind word_kind name_kind opens inner closes arrow_kind behind =>
      (Yields.plain fun t ht => marks_kind t ht ▸ rfl).append
        (((inner.yields.enclose_append (opens ▸ rfl) (closes ▸ rfl)
          (behind.yields.skip (arrow_kind ▸ rfl))).skip (name_kind ▸ rfl)).skip (word_kind ▸ rfl))
  | .returning word_kind inner stops => (inner.yields.stop stops).skip (word_kind ▸ rfl)
  | .conditional inner => inner.yields
  | .when inner => inner.yields

lemma FunctionBody.Spelled.yields {body : FunctionBody} {ts : List Token} :
    body.Spelled ts → Yields body.yield ts
  | .block inner => inner.yields
  | .expression inner stops => inner.yields.stop stops

lemma Conditional.Spelled.yields {c : Conditional} {ts : List Token} :
    c.Spelled ts → Yields c.yield ts
  | .mk guarded otherwise => guarded.yields.append otherwise.yields

lemma Alternate.Spelled.yields {a : Alternate} {ts : List Token} :
    a.Spelled ts → Yields a.yield ts
  | .none => .nil
  | .conditional word_kind inner => inner.yields.skip (word_kind ▸ rfl)
  | .block word_kind inner => inner.yields.skip (word_kind ▸ rfl)

lemma Statement.Guarded.yields {test : Expression} {consequent : List Statement}
    {ts : List Token} : Statement.Guarded test consequent ts →
      Yields (test.yield ++ Statement.yieldAll consequent) ts
  | .mk word_kind opens tests closes inner =>
      (tests.yields.enclose_append (opens ▸ rfl) (closes ▸ rfl) inner.yields).skip
        (word_kind ▸ rfl)

lemma Statement.Braced.yields {body : List Statement} {ts : List Token} :
    Statement.Braced body ts → Yields (Statement.yieldAll body) ts
  | .mk opens inner closes => inner.yields.enclose (opens ▸ rfl) (closes ▸ rfl)

lemma Statement.AllSpelled.yields {body : List Statement} {ts : List Token} :
    Statement.AllSpelled body ts → Yields (Statement.yieldAll body) ts
  | .nil => .nil
  | .cons first rest => first.yields.append rest.yields

end

/-- Layout is not carried. -/
lemma filter_isCarried_filter_isIgnorable (ts : List Token) :
    (ts.filter (!·.kind.isIgnorable)).filter (·.kind.isCarried) =
      ts.filter (·.kind.isCarried) := by
  rw [List.filter_filter]
  refine List.filter_congr fun t _ => ?_
  obtain ⟨kind, value, operation, span, line⟩ := t
  cases kind <;> rfl

/-- Reading loses, repeats and reorders nothing that is carried. Only a lifetime without an end is
spelled in two ways, by its word and by a number that is too large; where no number is, the tree
alone tells all tokens that are carried. -/
theorem parseTokens_yield {body : List Token} {last : Token} (hlast : last.kind = .endOfFile)
    (hbody : ∀ t ∈ body, t.kind ≠ .endOfFile) (hplain : ∀ t ∈ body ++ [last], t.operation = none)
    {program : Block} (h : parseTokens .stock (body ++ [last]) = .ok program) :
    Emits program.yield ((body ++ [last]).filter (·.kind.isCarried)) ∧
      ((∀ t ∈ body, t.kind = .number → readNumber? t.value ≠ some (Binary.infinity false)) →
        List.Forall₂ Mark.Fits (program.yield.filter (!·.isEndless))
          ((body ++ [last]).filter (·.kind.isCarried))) := by
  have hcarried : (body ++ [last]).filter (·.kind.isCarried) =
      body.filter (·.kind.isCarried) := by
    rw [List.filter_append, List.filter_cons_of_neg (by rw [hlast]; decide), List.filter_nil,
      List.append_nil]
  have hemits : Emits program.yield (body.filter (·.kind.isCarried)) := by
    rw [← filter_isCarried_filter_isIgnorable]
    exact (parseTokens_spelled hlast hbody h).yields fun t ht =>
      hplain t (List.mem_append_left _ (List.mem_of_mem_filter ht))
  rw [hcarried]
  exact ⟨hemits, fun hfinite => hemits.forall₂ fun t ht => hfinite t (List.mem_of_mem_filter ht)⟩

/-- `var const x <7 s> = -f(y, 'a') ** ++z!` -/
theorem parseTokens_yield_declaration :
    let body : List Token := [.word "var", .word "const", .word "x", .mark .smaller,
      .plain .number "7", .word "s", .mark .greater, .mark .equalSign, .mark .subtract, .word "f",
      .mark .openParen, .word "y", .mark .comma, .plain .string "a", .mark .closeParen,
      .mark .exponent, .mark .plusPlus, .word "z", .mark .exclamation]
    ∃ program, parseTokens .stock (body ++ [.plain .endOfFile ""]) = .ok program ∧
      List.Forall₂ Mark.Fits (program.yield.filter (!·.isEndless))
        [.mark .smaller, .plain .number "7", .mark .greater, .mark .subtract, .plain .string "a",
          .mark .exponent, .mark .plusPlus] := by
  intro body
  have hread : (parseTokens .stock (body ++ [.plain .endOfFile ""])).toOption.any fun _ => true := by
    decide +kernel +revert
  have hbody : ∀ t ∈ body, t.kind ≠ .endOfFile := by decide
  have hplain : ∀ t ∈ body ++ [.plain .endOfFile ""], t.operation = none := by decide
  have hfinite : ∀ t ∈ body, t.kind = .number →
      readNumber? t.value ≠ some (Binary.infinity false) := by
    decide +kernel +revert
  obtain ⟨program, h, -⟩ := exists_ok_of_any hread
  exact ⟨program, h, (parseTokens_yield rfl hbody hplain h).2 hfinite⟩

/-- The lifetime of `var var x <1e309>!`, with all its digits, is too large for a number. Nothing in
the tree tells it from `Infinity`. -/
theorem parseTokens_yield_overflow :
    let body : List Token := [.word "var", .word "var", .word "x", .mark .smaller,
      .plain .number (String.ofList ('1' :: List.replicate 309 '0')), .mark .greater,
      .mark .exclamation]
    let last : Token := .plain .endOfFile ""
    (∀ t ∈ body, t.kind ≠ .endOfFile) ∧ (∀ t ∈ body ++ [last], t.operation = none) ∧
      ∃ program, parseTokens .stock (body ++ [last]) = .ok program ∧
        ¬ List.Forall₂ Mark.Fits (program.yield.filter (!·.isEndless))
          ((body ++ [last]).filter (·.kind.isCarried)) := by
  intro body last
  have hread : (parseTokens .stock (body ++ [last])).toOption.any fun program =>
      (program.yield.filter (!·.isEndless)).length = 2 := by
    decide +kernel +revert
  have hcarried : ((body ++ [last]).filter (·.kind.isCarried)).length = 3 := by decide
  obtain ⟨program, h, hlength⟩ := exists_ok_of_any hread
  refine ⟨by decide, by decide, program, h, fun hall => ?_⟩
  have heq := hall.length_eq
  simp only [decide_eq_true_eq] at hlength
  omega

end Exclaim
