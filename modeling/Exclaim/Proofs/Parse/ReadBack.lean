import Exclaim.Proofs.Parse.Written

/-! Written expressions are read back. The parts of an expression are enclosed, so each of them is
read whole whatever the powers around it. -/
namespace Exclaim
namespace Parse

variable {style : Style} {e e' left right : Expression} {n m : Nat} {limit power : Power}
  {t : Token} {ts rest : List Token} {Q : Cursor → Prop}

/-- No expression goes on at the start of these tokens. -/
def Halts (ts : List Token) : Prop := ∀ t ∈ ts.head?, Grammar.stock.joining? t = none

lemma halts_cons (h : Grammar.stock.joining? t = none) : Halts (t :: ts) := by
  intro u hu
  obtain rfl : t = u := by simpa using hu
  exact h

/-- No expression goes on at the end of a statement. -/
lemma joining?_terminator (h : t.kind ∈ terminators) : Grammar.stock.joining? t = none := by
  simp only [terminators, List.mem_cons, List.not_mem_nil, or_false] at h
  rcases h with h | h | h <;> exact Grammar.joining?_of_kind h rfl

lemma halts_terminator (style : Style) : Halts (style.terminator :: ts) :=
  halts_cons (joining?_terminator style.terminator_kind)

/-- The enclosed tokens of an expression are read as the start of an expression that goes on with
whatever follows. -/
structure Opens (style : Style) (e : Expression) : Prop where
  first : ∃ t ts, e.enclosed style = t :: ts ∧ (Grammar.stock.opening? t).isSome
  reads : ∀ {n : Nat} {limit : Power} {rest : List Token} {e' : Expression} {Q : Cursor → Prop},
    (e.enclosed style ++ rest).length ≤ n →
    Reads (Ahead rest) (climb .stock (expression .stock n) limit n e) e' Q →
    Reads (Ahead (e.enclosed style ++ rest)) (expression .stock (n + 1) limit) e' Q

/-- The bare tokens of an expression are read as this expression. -/
def ReadBack (style : Style) (e : Expression) : Prop :=
  ∀ ⦃n : Nat⦄ ⦃rest : List Token⦄, Halts rest → (e.bare style ++ rest).length < n →
    Reads (Ahead (e.bare style ++ rest)) (expression .stock n .lowest) e (Ahead rest)

/-- An expression in parentheses goes on with whatever follows. -/
lemma reads_parenthesized
    (h : Reads (Ahead (ts ++ .mark .closeParen :: rest)) (expression .stock n .lowest) e
      (Ahead (.mark .closeParen :: rest)))
    (hc : Reads (Ahead rest) (climb .stock (expression .stock n) limit n e) e' Q) :
    Reads (Ahead (parenthesized ts ++ rest)) (expression .stock (n + 1) limit) e' Q := by
  simp only [parenthesized, List.cons_append, List.append_assoc, List.nil_append]
  refine reads_expression (Grammar.opening?_of_kind rfl (by decide) rfl) ?_ hc
  refine Reads.before ((reads_expect (by simp)).discard.bind (h.bind ?_))
  exact (reads_expect (by simp)).discard.bind (.pure _)

lemma ReadBack.parenthesized (h : ReadBack style e)
    (hn : (parenthesized (e.bare style) ++ rest).length ≤ n)
    (hc : Reads (Ahead rest) (climb .stock (expression .stock n) limit n e) e' Q) :
    Reads (Ahead (parenthesized (e.bare style) ++ rest)) (expression .stock (n + 1) limit) e'
      Q := by
  refine reads_parenthesized (h (halts_cons rfl) ?_) hc
  simp only [Exclaim.parenthesized, List.cons_append, List.append_assoc, List.nil_append,
    List.length_cons] at hn
  omega

lemma bare_of_isLeaf (style : Style) (hl : e.isLeaf) (he : e.Writable) :
    ∃ t, e.bare style = [t] ∧ IsOperand t ∧ leafOf t = e := by
  cases e with
  | number value =>
    obtain ⟨hd, hv⟩ := style.numeral_spec value he
    exact ⟨_, rfl, .inl ⟨rfl, hd⟩, congrArg Expression.number hv⟩
  | string value => exact ⟨_, rfl, .inr (.inl rfl), rfl⟩
  | symbol name => exact ⟨_, rfl, .inr (.inr ⟨rfl, he⟩), rfl⟩
  | _ => exact absurd hl (by simp [Expression.isLeaf])

lemma ReadBack.opens (h : ReadBack style e) (he : e.Writable) : Opens style e := by
  by_cases hl : e.isLeaf
  · obtain ⟨t, hb, ht, hleaf⟩ := bare_of_isLeaf style hl he
    have henc : e.enclosed style = [t] := by
      rw [Expression.enclosed, Expression.enclose, if_pos hl, hb]
    refine ⟨⟨t, [], henc, by rw [opening?_operand ht]; rfl⟩, fun hn hc => ?_⟩
    rw [henc]
    rw [← hleaf] at hc
    exact reads_operand ht hc
  · have henc : e.enclosed style = Exclaim.parenthesized (e.bare style) := by
      rw [Expression.enclosed, Expression.enclose, if_neg hl]
    refine ⟨⟨_, _, henc, rfl⟩, fun hn hc => ?_⟩
    rw [henc] at hn ⊢
    exact h.parenthesized hn hc

lemma Opens.length_pos (h : Opens style e) : 0 < (e.enclosed style).length := by
  obtain ⟨t, ts, he, -⟩ := h.first
  rw [he]
  exact Nat.succ_pos _

lemma Halts.stops (h : Halts ts) : Stops limit ts := stops_of_none h

lemma reads_climb_end (h : Stops limit ts) (hm : 0 < m) :
    Reads (Ahead ts) (climb .stock (expression .stock n) limit m e) e (Ahead ts) := by
  obtain ⟨m, rfl⟩ := Nat.exists_eq_add_one_of_ne_zero (Nat.ne_of_gt hm)
  exact (reads_climb_stop h).ahead

/-- An enclosed expression is read whole when nothing behind it binds tighter than the limit. -/
lemma Opens.alone (h : Opens style e) (hrest : Stops limit rest)
    (hn : (e.enclosed style ++ rest).length < n) :
    Reads (Ahead (e.enclosed style ++ rest)) (expression .stock n limit) e (Ahead rest) := by
  obtain ⟨n, rfl⟩ := Nat.exists_eq_add_one_of_ne_zero (Nat.ne_zero_of_lt hn)
  have hpos := h.length_pos
  rw [List.length_append] at hn
  exact h.reads (by rw [List.length_append]; omega) (reads_climb_end hrest (by omega))

/-- An enclosed expression with one thing behind it that goes on. -/
lemma Opens.joined {rule : JoiningRule} (h : Opens style left)
    (hj : Grammar.stock.joining? t = some (rule, power)) (hrest : Halts rest)
    (hn : (left.enclosed style ++ t :: (ts ++ rest)).length < n)
    (hr : ∀ m, (ts ++ rest).length < m → Reads (Before (t :: (ts ++ rest)))
      (joining (expression .stock m) (m - 1) left power rule) e (Ahead rest)) :
    Reads (Ahead (left.enclosed style ++ t :: (ts ++ rest))) (expression .stock n .lowest) e
      (Ahead rest) := by
  obtain ⟨n, rfl⟩ := Nat.exists_eq_add_one_of_ne_zero (Nat.ne_zero_of_lt hn)
  have hpos := h.length_pos
  refine h.reads (Nat.le_of_lt_succ hn) ?_
  simp only [List.length_append, List.length_cons] at hn
  obtain ⟨n, rfl⟩ := Nat.exists_eq_add_one_of_ne_zero (n := n) (by omega)
  refine reads_climb_step hj (Grammar.joining?_power hj).1 (hr (n + 1) ?_) ?_
  · rw [List.length_append]
    omega
  · exact reads_climb_end hrest.stops (by omega)

lemma readBack_leaf (hl : e.isLeaf) (he : e.Writable) : ReadBack style e := by
  intro n rest hrest hn
  obtain ⟨t, hb, ht, rfl⟩ := bare_of_isLeaf style hl he
  rw [hb, List.cons_append, List.nil_append, List.length_cons] at hn
  rw [hb]
  obtain ⟨n, rfl⟩ := Nat.exists_eq_add_one_of_ne_zero (Nat.ne_zero_of_lt hn)
  exact reads_operand ht (reads_climb_end hrest.stops (by omega))

/-- An operator before an operand. -/
lemma reads_leading {rule : OpeningRule} (ho : Grammar.stock.opening? t = some (rule, power))
    (hrest : Halts rest) (hn : (t :: (ts ++ rest)).length < n) (hts : 0 < ts.length)
    (hr : ∀ m, (ts ++ rest).length < m → Reads (Before (t :: (ts ++ rest)))
      (opening (expression .stock m) rule) e (Ahead rest)) :
    Reads (Ahead (t :: (ts ++ rest))) (expression .stock n .lowest) e (Ahead rest) := by
  obtain ⟨n, rfl⟩ := Nat.exists_eq_add_one_of_ne_zero (Nat.ne_zero_of_lt hn)
  rw [List.length_cons] at hn
  refine reads_expression ho (hr n (by omega)) (reads_climb_end hrest.stops ?_)
  rw [List.length_append] at hn
  omega

lemma opening?_unary (h : t.kind ∈ [TokenKind.subtract, .logicalNot, .bitwiseNot]) :
    Grammar.stock.opening? t = some (.unary, .unary) := by
  simp only [List.mem_cons, List.not_mem_nil, or_false] at h
  rcases h with h | h | h <;> exact Grammar.opening?_of_kind h (by decide) rfl

lemma readBack_unary {operand : Expression}
    (ho : t.kind ∈ [TokenKind.subtract, .logicalNot, .bitwiseNot]) (h : Opens style operand) :
    ReadBack style (.unary t operand) := by
  intro n rest hrest hn
  refine reads_leading (opening?_unary ho) hrest hn h.length_pos fun m hm => ?_
  refine Reads.before ((reads_expect ho).bind ?_)
  exact (h.alone hrest.stops hm).bind (.pure _)

lemma reads_reference (context : ShapeContext) (span : Span) (r : Reference) {P : Cursor → Prop} :
    Reads P (reference context span r.toExpression) r P := by
  unfold reference
  rw [Reference.ofExpression?_toExpression]
  exact .pure r

lemma reads_stateOperator (h : IsStateOperator t) :
    Reads (Ahead (t :: ts)) stateOperator t (Ahead ts) := by
  unfold stateOperator
  refine (reads_checkWord Grammar.stateWords).bind ?_
  rcases h with ⟨hk, hw⟩ | hk | hk
  · rw [show startsWith Grammar.stateWords (t :: ts) = true by simp [startsWith, hk, hw],
      if_pos rfl]
    exact reads_expectWord hk hw
  · rw [show startsWith Grammar.stateWords (t :: ts) = false by simp [startsWith, hk]]
    exact reads_expect (by simp [hk])
  · rw [show startsWith Grammar.stateWords (t :: ts) = false by simp [startsWith, hk]]
    exact reads_expect (by simp [hk])

lemma enclosed_toExpression (style : Style) (r : Reference) :
    r.toExpression.enclosed style = r.enclosed style := by
  cases r <;> rfl

lemma opening?_state (h : IsStateOperator t) :
    Grammar.stock.opening? t = some (.state, .unary) := by
  rcases h with ⟨hk, hw⟩ | hk | hk
  · exact Grammar.opening?_stateWord hk hw
  · exact Grammar.opening?_of_kind hk (by decide) rfl
  · exact Grammar.opening?_of_kind hk (by decide) rfl

lemma readBack_state {r : Reference} (ho : IsStateOperator t) (h : Opens style r.toExpression) :
    ReadBack style (.state t r) := by
  intro n rest hrest hn
  simp only [Expression.bare, ← enclosed_toExpression] at hn ⊢
  refine reads_leading (opening?_state ho) hrest hn h.length_pos fun m hm => ?_
  refine Reads.before ((reads_stateOperator ho).bind ?_)
  exact (h.alone hrest.stops hm).bind ((reads_reference _ _ r).bind (.pure _))

lemma readBack_binary (ho : (operatorPower? t).isSome) (hl : Opens style left)
    (hr : Opens style right) : ReadBack style (.binary left t right) := by
  intro n rest hrest hn
  obtain ⟨power, hp⟩ := Option.isSome_iff_exists.1 ho
  simp only [Expression.bare, List.append_assoc, List.cons_append] at hn ⊢
  refine hl.joined (operatorPower?_eq_some.1 hp) hrest hn fun m hm => ?_
  exact reads_pass.bind ((hr.alone hrest.stops hm).bind (.pure _))

lemma readBack_assignment {r : Reference} (hl : Opens style r.toExpression)
    (hr : Opens style right) : ReadBack style (.assignment r right) := by
  intro n rest hrest hn
  simp only [Expression.bare, ← enclosed_toExpression, List.append_assoc, List.cons_append] at hn ⊢
  refine hl.joined (Grammar.joining?_of_kind rfl rfl) hrest hn fun m hm => ?_
  refine reads_current_bind ((reads_reference _ _ r).bind ?_)
  refine Reads.before ((reads_expect (by simp)).bind ?_)
  exact (hr.alone hrest.stops hm).bind (.pure _)

lemma readBack_member {object property : Expression} {computed : Bool} (ho : Opens style object)
    (hp : Opens style property) (hname : computed ∨ property.isName) :
    ReadBack style (.member object property computed) := by
  intro n rest hrest hn
  cases computed with
  | true =>
    have hsplit : (Expression.member object property true).bare style ++ rest =
        object.enclosed style ++ Token.mark .openBracket ::
          ((property.enclosed style ++ [.mark .closeBracket]) ++ rest) := by
      simp [Expression.bare, accessed, Expression.enclosed]
    rw [hsplit] at hn ⊢
    refine ho.joined (Grammar.joining?_of_kind rfl rfl) hrest hn fun m hm => reads_current_bind ?_
    rw [if_neg (by simp)]
    simp only [List.append_assoc, List.cons_append, List.nil_append] at hm ⊢
    refine Reads.before ((reads_expect (by simp)).discard.bind ?_)
    refine (hp.alone (halts_cons rfl).stops hm).bind ?_
    exact (reads_expect (by simp)).discard.bind (.pure _)
  | false =>
    simp only [Expression.bare, accessed, Bool.false_eq_true, if_false, List.append_assoc,
      List.cons_append] at hn ⊢
    refine ho.joined (Grammar.joining?_of_kind rfl rfl) hrest hn fun m hm => reads_current_bind ?_
    rw [if_pos (Token.kind_mark _)]
    refine Reads.before ((reads_expect (by simp)).bind ((hp.alone stops_access hm).bind ?_))
    have hname : property.isName := by simpa using hname
    cases property with
    | symbol name => exact .pure _
    | number value => exact .pure _
    | _ => exact absurd hname (by simp [Expression.isName])

lemma reads_separator (isFirst : Bool) :
    Reads (Ahead (commaUnless isFirst ++ ts)) (separator isFirst) () (Ahead ts) := by
  cases isFirst with
  | true => exact .pure ()
  | false => exact (reads_expect (by simp)).discard

lemma firstKind_commaUnless {isFirst : Bool} (h : firstKind ts ≠ .closeParen) :
    firstKind (commaUnless isFirst ++ ts) ≠ .closeParen := by
  cases isFirst with
  | true => exact h
  | false => exact nofun

lemma kind_ne_of_opening {kind : TokenKind} (h : (Grammar.stock.opening? t).isSome)
    (hw : kind ≠ .identifier)
    (hf : (List.find? (·.kind == kind) Grammar.stockOpenings).isNone) : t.kind ≠ kind := by
  intro hk
  rw [Grammar.opening?_of_kind hk hw rfl, Option.isNone_iff_eq_none.1 hf] at h
  exact absurd h (by simp)

lemma Opens.firstKind_ne (h : Opens style e) :
    firstKind (e.enclosed style ++ ts) ≠ .closeParen := by
  obtain ⟨t, us, he, ht⟩ := h.first
  rw [he]
  exact kind_ne_of_opening ht (by decide) rfl

lemma halts_listed (es : List Expression) :
    Halts (Expression.listed style false es ++ Token.mark .closeParen :: rest) := by
  cases es with
  | nil => exact halts_cons rfl
  | cons e es => exact halts_cons rfl

lemma reads_arguments {es : List Expression} (h : ∀ e ∈ es, Opens style e) (isFirst : Bool)
    (hn : (Expression.listed style isFirst es ++ Token.mark .closeParen :: rest).length < n)
    (hm : es.length < m) :
    Reads (Ahead (Expression.listed style isFirst es ++ Token.mark .closeParen :: rest))
      (arguments (expression .stock n) m isFirst) es (Ahead (Token.mark .closeParen :: rest)) := by
  induction es generalizing isFirst m with
  | nil =>
    obtain ⟨m, rfl⟩ := Nat.exists_eq_add_one_of_ne_zero (Nat.ne_zero_of_lt hm)
    refine reads_skipLayout.bind (reads_current_bind ?_)
    exact Reads.before (.pure _)
  | cons e es ih =>
    obtain ⟨m, rfl⟩ := Nat.exists_eq_add_one_of_ne_zero (Nat.ne_zero_of_lt hm)
    have he := h e (by simp)
    simp only [Expression.listed, List.append_assoc] at hn ⊢
    refine reads_skipLayout.bind (reads_current_kind fun t ht => ?_)
    have hne : t.kind ≠ .closeParen := ht ▸ firstKind_commaUnless he.firstKind_ne
    rw [if_neg hne]
    rw [List.length_append] at hn
    refine (reads_separator isFirst).before.bind ((he.alone (halts_listed es).stops ?_).bind ?_)
    · exact Nat.lt_of_le_of_lt (Nat.le_add_left _ _) hn
    · refine (ih (fun e he => h e (by simp [he])) false ?_ (by simpa using hm)).bind (.pure _)
      rw [List.length_append] at hn
      omega

lemma length_le_arguments {es : List Expression} (h : ∀ e ∈ es, Opens style e)
    (isFirst : Bool) : es.length ≤ (Expression.listed style isFirst es).length := by
  induction es generalizing isFirst with
  | nil => exact Nat.le_refl _
  | cons e es ih =>
    have hes := ih (fun e he => h e (by simp [he])) false
    have he : 0 < (e.enclose (e.bare style)).length := (h e (by simp)).length_pos
    simp only [Expression.listed, List.length_append, List.length_cons]
    omega

lemma readBack_call {callee : Expression} {es : List Expression} (hc : Opens style callee)
    (h : ∀ e ∈ es, Opens style e) : ReadBack style (.call callee es) := by
  intro n rest hrest hn
  have hsplit : (Expression.call callee es).bare style ++ rest =
      callee.enclosed style ++ Token.mark .openParen ::
        ((Expression.listed style true es ++ [.mark .closeParen]) ++ rest) := by
    simp [Expression.bare, parenthesized, Expression.enclosed]
  rw [hsplit] at hn ⊢
  refine hc.joined (Grammar.joining?_of_kind rfl rfl) hrest hn fun m hm => ?_
  simp only [List.append_assoc, List.cons_append, List.nil_append] at hm ⊢
  refine Reads.before ((reads_expect (by simp)).discard.bind ?_)
  have hlen := length_le_arguments h true
  refine (reads_arguments h true hm ?_).bind ((reads_expect (by simp)).discard.bind (.pure _))
  rw [List.length_append, List.length_cons] at hm
  omega

mutual

/-- Every expression of the language is read back. -/
lemma readBack_expression (style : Style) : ∀ e : Expression, e.Writable → ReadBack style e
  | .assignment target value, h =>
      readBack_assignment (opens_reference style target h.1)
        ((readBack_expression style value h.2).opens h.2)
  | .unary _ operand, h => readBack_unary h.1 ((readBack_expression style operand h.2).opens h.2)
  | .state _ argument, h => readBack_state h.1 (opens_reference style argument h.2)
  | .binary left _ right, h =>
      readBack_binary h.1 ((readBack_expression style left h.2.1).opens h.2.1)
        ((readBack_expression style right h.2.2).opens h.2.2)
  | .number _, h | .string _, h | .symbol _, h => readBack_leaf rfl h
  | .member object property _, h =>
      readBack_member ((readBack_expression style object h.1).opens h.1)
        ((readBack_expression style property h.2.1).opens h.2.1) h.2.2
  | .call callee arguments, h =>
      readBack_call ((readBack_expression style callee h.1).opens h.1)
        (opens_list style arguments h.2)
  | .object _, h | .array _, h | .branching _, h => absurd h id

lemma opens_reference (style : Style) : ∀ r : Reference, r.Writable → Opens style r.toExpression
  | .symbol name, h => (readBack_leaf (e := .symbol name) rfl h).opens h
  | .member object property _, h =>
      (readBack_member ((readBack_expression style object h.1).opens h.1)
        ((readBack_expression style property h.2.1).opens h.2.1) h.2.2).opens h

lemma opens_list (style : Style) :
    ∀ es : List Expression, Expression.WritableList es → ∀ e ∈ es, Opens style e
  | [], _ => nofun
  | e :: es, h => List.forall_mem_cons.2
      ⟨(readBack_expression style e h.1).opens h.1, opens_list style es h.2⟩

end

lemma ReadBack.wrapped (h : ReadBack style e) (hrest : Halts rest)
    (hn : (Exclaim.parenthesized (e.bare style) ++ rest).length < n) :
    Reads (Ahead (Exclaim.parenthesized (e.bare style) ++ rest)) (expression .stock n .lowest) e
      (Ahead rest) := by
  obtain ⟨n, rfl⟩ := Nat.exists_eq_add_one_of_ne_zero (Nat.ne_zero_of_lt hn)
  refine h.parenthesized (Nat.le_of_lt_succ hn) (reads_climb_end hrest.stops ?_)
  simp only [Exclaim.parenthesized, List.length_append, List.length_cons] at hn
  omega

/-- An expression is read where a statement asks for one. -/
lemma reads_slotted (style : Style) (he : e.Writable) (hrest : Halts rest) :
    Reads (Ahead (e.slotted style ++ rest)) (parseExpression .stock .lowest) e (Ahead rest) := by
  have h := readBack_expression style e he
  refine reads_parseExpression fun n hn => ?_
  unfold Expression.slotted at hn ⊢
  by_cases hw : style.wraps e
  · rw [if_pos hw] at hn ⊢
    exact h.wrapped hrest hn
  · rw [if_neg hw] at hn ⊢
    exact h hrest hn

lemma Opens.append_first (h : Opens style e) (ts : List Token) :
    ∃ t us, e.enclosed style ++ ts = t :: us ∧ (Grammar.stock.opening? t).isSome := by
  obtain ⟨t, us, he, ht⟩ := h.first
  exact ⟨t, us ++ ts, by rw [he]; rfl, ht⟩

/-- The tokens of an expression start with one that opens an expression. -/
lemma first_bare (style : Style) (he : e.Writable) :
    ∃ t ts, e.bare style = t :: ts ∧ (Grammar.stock.opening? t).isSome := by
  have hopens : ∀ e : Expression, e.Writable → Opens style e := fun e he =>
    (readBack_expression style e he).opens he
  cases e with
  | assignment target value =>
    simp only [Expression.bare, ← enclosed_toExpression]
    exact (opens_reference style target he.1).append_first _
  | unary operator operand => exact ⟨operator, _, rfl, by rw [opening?_unary he.1]; rfl⟩
  | state operator argument => exact ⟨operator, _, rfl, by rw [opening?_state he.1]; rfl⟩
  | binary left operator right => exact (hopens left he.2.1).append_first _
  | number _ | string _ | symbol _ =>
    obtain ⟨t, hb, ht, -⟩ := bare_of_isLeaf style rfl he
    exact ⟨t, [], hb, by rw [opening?_operand ht]; rfl⟩
  | member object property computed =>
    cases computed <;> exact (hopens object he.1).append_first _
  | call callee arguments => exact (hopens callee he.1).append_first _
  | object _ => exact absurd he id
  | array _ => exact absurd he id
  | branching _ => exact absurd he id

lemma firstKind_slotted (style : Style) (he : e.Writable) :
    firstKind (e.slotted style ++ ts) ≠ .openCurly := by
  unfold Expression.slotted
  by_cases hw : style.wraps e
  · rw [if_pos hw]
    exact nofun
  · obtain ⟨t, us, hb, ht⟩ := first_bare style he
    rw [if_neg hw, hb]
    exact kind_ne_of_opening ht (by decide) rfl

end Parse
end Exclaim
