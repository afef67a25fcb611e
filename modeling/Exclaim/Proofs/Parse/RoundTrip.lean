import Exclaim.Proofs.Parse.Layout
import Exclaim.Proofs.Parse.ReadBack

/-! Written programs are read back: the parse of the tokens of a program gives that program and
leaves nothing behind. -/
namespace Exclaim
namespace Parse

variable {style : Style} {e : Expression} {n m : Nat} {t : Token} {ts rest : List Token}
  {Q : Cursor → Prop}

section Clauses

lemma reads_duration (style : Style) {d : Float} (h : d = Binary.infinity false ∨ IsNumeral d) :
    Reads (Ahead (style.duration d :: ts)) duration d (Ahead ts) := by
  unfold duration Style.duration
  refine (reads_checkWord ["Infinity"]).bind ?_
  by_cases hd : d = Binary.infinity false
  · subst hd
    rw [if_pos rfl]
    exact (reads_expectWord rfl (by decide)).discard.bind (.pure _)
  · obtain ⟨hrun, hvalue⟩ := style.numeral_spec d (h.resolve_left hd)
    rw [if_neg hd]
    refine (reads_expect (by simp)).bind ?_
    have hread : readNumber? (style.numeral d) = some d := by
      rw [readNumber?_digitRun hrun, hvalue]
    simp only [Token.plain, hread]
    exact .pure _

lemma reads_lifetimeUnit (unit : LifetimeUnit) :
    Reads (Ahead (unit.written ++ Token.mark .greater :: ts)) lifetimeUnit unit
      (Ahead (Token.mark .greater :: ts)) := by
  unfold lifetimeUnit
  refine (reads_checkWord ["s"]).bind ?_
  cases unit with
  | seconds => exact (reads_expectWord rfl (by decide)).discard.bind (.pure _)
  | lines => exact .pure _

lemma reads_lifetime? (style : Style) {lifetime : Option Lifetime}
    (h : ∀ l ∈ lifetime, l.Writable) (hts : firstKind ts ≠ .smaller) :
    Reads (Ahead (Lifetime.written? style lifetime ++ ts)) lifetime? lifetime (Ahead ts) := by
  unfold lifetime?
  refine (reads_check [.smaller]).bind ?_
  cases lifetime with
  | none =>
    rw [show [TokenKind.smaller].contains
      (firstKind (Lifetime.written? style none ++ ts)) = false by
        simpa [Lifetime.written?] using hts]
    exact .pure _
  | some lifetime =>
    simp only [Lifetime.written?, List.cons_append, List.append_assoc, List.nil_append]
    refine (reads_expect (by simp)).discard.bind ((reads_duration style (h lifetime rfl)).bind ?_)
    refine (reads_lifetimeUnit lifetime.unit).bind ?_
    exact (reads_expect (by simp)).discard.bind (.pure _)

lemma reads_modifier (can : Bool) :
    Reads (Ahead (Token.word (if can then "var" else "const") :: ts)) modifier can (Ahead ts) := by
  unfold modifier
  cases can with
  | true => exact (reads_expectWord rfl (by decide)).bind (.pure _)
  | false => exact (reads_expectWord rfl (by decide)).bind (.pure _)

lemma terminator_kind_ne (style : Style) {kind : TokenKind} (h : kind ∉ terminators) :
    style.terminator.kind ≠ kind := by
  rintro rfl
  exact h style.terminator_kind

lemma reads_initializer? (style : Style) {value : Option Expression}
    (h : ∀ e ∈ value, e.Writable) :
    Reads (Ahead (initialized style value ++ style.terminator :: ts)) (initializer? .stock) value
      (Ahead (style.terminator :: ts)) := by
  unfold initializer?
  refine (reads_check [.equalSign]).bind ?_
  cases value with
  | none =>
    have hk : style.terminator.kind ≠ .equalSign := terminator_kind_ne style (by decide)
    rw [show [TokenKind.equalSign].contains
      (firstKind (initialized style none ++ style.terminator :: ts)) = false by
        simpa [initialized, firstKind] using hk]
    exact .pure _
  | some e =>
    refine (reads_expect (by simp)).discard.bind ?_
    exact (reads_slotted style (h e rfl) (halts_terminator style)).map

lemma firstKind_initialized (style : Style) (value : Option Expression) :
    firstKind (initialized style value ++ style.terminator :: ts) ≠ .smaller := by
  cases value with
  | none => exact terminator_kind_ne style (by decide)
  | some e => exact nofun

lemma reads_variableDeclaration (style : Style) (name : String) (modifiers : Modifiers)
    {value : Option Expression} {lifetime : Option Lifetime}
    (h : (Statement.variableDeclaration name modifiers value lifetime).Writable) :
    Reads
      (Ahead ((Statement.variableDeclaration name modifiers value lifetime).written style ++ rest))
      (variableDeclaration .stock) (.variableDeclaration name modifiers value lifetime)
      (Ahead rest) := by
  unfold variableDeclaration
  simp only [Statement.written, Modifiers.written, List.map_cons, List.map_nil, List.cons_append,
    List.nil_append, List.append_assoc]
  refine (reads_modifier modifiers.canReassign).bind ((reads_modifier modifiers.canMutate).bind ?_)
  refine (reads_expect (by simp)).bind ?_
  refine (reads_lifetime? style h.2 (firstKind_initialized style value)).bind ?_
  refine (reads_initializer? style h.1).bind ?_
  exact (reads_expect style.terminator_kind).discard.bind (.pure _)

lemma firstKind_parameters (ps : List Parameter) :
    firstKind (Parameter.listed style false ps ++ Token.mark .closeParen :: rest) ≠ .smaller := by
  cases ps with
  | nil => exact nofun
  | cons p ps => exact nofun

lemma reads_parameters {ps : List Parameter} (h : ∀ p ∈ ps, p.Writable) (isFirst : Bool)
    (hm : ps.length < m) :
    Reads (Ahead (Parameter.listed style isFirst ps ++ Token.mark .closeParen :: rest))
      (parameters m isFirst) ps (Ahead (Token.mark .closeParen :: rest)) := by
  induction ps generalizing isFirst m with
  | nil =>
    obtain ⟨m, rfl⟩ := Nat.exists_eq_add_one_of_ne_zero (Nat.ne_zero_of_lt hm)
    refine reads_skipLayout.bind (reads_current_bind ?_)
    exact Reads.before (.pure _)
  | cons p ps ih =>
    obtain ⟨m, rfl⟩ := Nat.exists_eq_add_one_of_ne_zero (Nat.ne_zero_of_lt hm)
    obtain ⟨hk, hl⟩ := h p (by simp)
    simp only [Parameter.listed, List.append_assoc, List.cons_append]
    refine reads_skipLayout.bind (reads_current_kind fun t ht => ?_)
    have hne : t.kind ≠ .closeParen :=
      ht ▸ firstKind_commaUnless (fun hc => absurd (hk.symm.trans hc) (by decide))
    rw [if_neg hne]
    refine (reads_separator isFirst).before.bind ((reads_expect (by simp [hk])).bind ?_)
    refine (reads_lifetime? style hl (firstKind_parameters ps)).bind ?_
    exact (ih (fun p hp => h p (by simp [hp])) false (by simpa using hm)).bind (.pure _)

lemma length_le_parameters (style : Style) (isFirst : Bool) (ps : List Parameter) :
    ps.length ≤ (Parameter.listed style isFirst ps).length := by
  induction ps generalizing isFirst with
  | nil => exact Nat.le_refl _
  | cons p ps ih =>
    have hps := ih false
    simp only [Parameter.listed, List.length_append, List.length_cons]
    omega

lemma reads_asyncMark (isAsync : Bool) (hts : startsWith ["async"] ts = false) :
    Reads (Ahead ((if isAsync then [Token.word "async"] else []) ++ ts)) asyncMark isAsync
      (Ahead ts) := by
  unfold asyncMark
  refine (reads_checkWord ["async"]).bind ?_
  cases isAsync with
  | true => exact (reads_expectWord rfl (by decide)).discard.bind (.pure _)
  | false =>
    change Reads _ (if startsWith ["async"] ts then _ else _) _ _
    rw [hts]
    exact .pure _

end Clauses

/-- A statement is read from its tokens, by every parser for statements with a large enough
budget. -/
structure Restored (style : Style) (a : Statement) : Prop where
  first : ∃ t ts, a.written style = t :: ts ∧ startsWith ["else"] [t] = false
  isSentinel : a.isSentinel = false
  reads : ∀ ⦃n : Nat⦄ ⦃rest : List Token⦄, startsWith ["else"] rest = false →
    (a.written style ++ rest).length < n →
    Reads (Ahead (a.written style ++ rest)) (statement .stock n) a (Ahead rest)

section Blocks
variable {a : Statement} {body : List Statement}

lemma Restored.startsWith (h : Restored style a) :
    startsWith ["else"] (a.written style ++ rest) = false := by
  obtain ⟨t, ts, ha, ht⟩ := h.first
  rw [ha]
  exact ht

lemma Restored.length_pos (h : Restored style a) : 0 < (a.written style).length := by
  obtain ⟨t, ts, ha, -⟩ := h.first
  rw [ha]
  exact Nat.succ_pos _

lemma startsWith_writtenList (h : ∀ a ∈ body, Restored style a)
    (hrest : startsWith ["else"] rest = false) :
    startsWith ["else"] (Statement.writtenList style body ++ rest) = false := by
  cases body with
  | nil => exact hrest
  | cons a body =>
    simp only [Statement.writtenList, List.append_assoc]
    exact (h a (by simp)).startsWith

lemma length_le_writtenList (h : ∀ a ∈ body, Restored style a) :
    body.length ≤ (Statement.writtenList style body).length := by
  induction body with
  | nil => exact Nat.le_refl _
  | cons a body ih =>
    have hbody := ih fun a ha => h a (by simp [ha])
    have ha := (h a (by simp)).length_pos
    simp only [Statement.writtenList, List.length_append, List.length_cons]
    omega

/-- A closing bracket stays in place. -/
lemma reads_endOfBlock (hn : 0 < n) :
    Reads (Ahead (Token.mark .closeCurly :: rest)) (statement .stock n) .endOfBlock
      (Ahead (Token.mark .closeCurly :: rest)) := by
  obtain ⟨n, rfl⟩ := Nat.exists_eq_add_one_of_ne_zero (Nat.ne_of_gt hn)
  exact reads_skipLayout.bind (reads_current_bind (Reads.before (.pure _)))

lemma reads_statements (h : ∀ a ∈ body, Restored style a)
    (hn : (Statement.writtenList style body ++ Token.mark .closeCurly :: rest).length < n)
    (hm : body.length < m) :
    Reads (Ahead (Statement.writtenList style body ++ Token.mark .closeCurly :: rest))
      (statements (statement .stock n) m) body (Ahead (Token.mark .closeCurly :: rest)) := by
  induction body generalizing m with
  | nil =>
    obtain ⟨m, rfl⟩ := Nat.exists_eq_add_one_of_ne_zero (Nat.ne_zero_of_lt hm)
    exact (reads_endOfBlock (by omega)).bind (.pure _)
  | cons a body ih =>
    obtain ⟨m, rfl⟩ := Nat.exists_eq_add_one_of_ne_zero (Nat.ne_zero_of_lt hm)
    have ha := h a (by simp)
    have hbody : ∀ a ∈ body, Restored style a := fun a ha => h a (by simp [ha])
    simp only [Statement.writtenList, List.append_assoc] at hn ⊢
    refine (ha.reads (startsWith_writtenList hbody rfl) hn).bind ?_
    rw [if_neg (by simp [ha.isSentinel])]
    rw [List.length_append] at hn
    exact (ih hbody (by omega) (by simpa using hm)).bind (.pure _)

lemma reads_block (h : ∀ a ∈ body, Restored style a)
    (hn : (braced (Statement.writtenList style body) ++ rest).length ≤ n) :
    Reads (Ahead (braced (Statement.writtenList style body) ++ rest))
      (block (statement .stock n)) body (Ahead rest) := by
  unfold block
  simp only [braced, List.cons_append, List.append_assoc, List.nil_append, List.length_cons] at hn ⊢
  refine (reads_expect (by simp)).discard.bind (reads_budget_bind fun m hm => ?_)
  have hlen := length_le_writtenList h
  refine (reads_statements h hn ?_).bind ((reads_expect (by simp)).discard.bind (.pure _))
  rw [List.length_append] at hm
  omega

lemma reads_guarded {text : String} {test : Expression} (ht : test.Writable)
    (h : ∀ a ∈ body, Restored style a)
    (hn : (guard style text test (Statement.writtenList style body) ++ rest).length ≤ n) :
    Reads (Ahead (guard style text test (Statement.writtenList style body) ++ rest))
      (guarded .stock (statement .stock n) text) (test, body) (Ahead rest) := by
  unfold guarded
  simp only [guard, parenthesized, List.cons_append, List.append_assoc, List.nil_append,
    List.length_cons] at hn ⊢
  refine (reads_expectWord rfl (List.mem_singleton_self _)).discard.bind ?_
  refine (reads_expect (by simp)).discard.bind ?_
  refine (reads_slotted style ht (halts_cons rfl)).bind ((reads_expect (by simp)).discard.bind ?_)
  refine (reads_block h ?_).bind (.pure _)
  rw [List.length_append, List.length_cons] at hn
  omega

/-- A test with its alternatives is read from its tokens. -/
def Branches (style : Style) (c : Conditional) : Prop :=
  ∀ ⦃n m : Nat⦄ ⦃rest : List Token⦄, startsWith ["else"] rest = false →
    (c.written style ++ rest).length ≤ n → (c.written style).length < m →
    Reads (Ahead (c.written style ++ rest)) (conditional .stock (statement .stock n) m) c
      (Ahead rest)

/-- What stands behind `else` is read from its tokens. -/
def Alternates (style : Style) (a : Alternate) : Prop :=
  ∀ ⦃n m : Nat⦄ ⦃rest : List Token⦄, startsWith ["else"] rest = false →
    (a.written style ++ rest).length ≤ n → (a.written style).length ≤ m →
    Reads (Ahead (a.written style ++ rest))
      (alternate (statement .stock n) (conditional .stock (statement .stock n) m)) a (Ahead rest)

lemma branches_mk {test : Expression} {alternate : Alternate} (ht : test.Writable)
    (h : ∀ a ∈ body, Restored style a) (ha : Alternates style alternate) :
    Branches style (.mk test body alternate) := by
  intro n m rest hrest hn hm
  obtain ⟨m, rfl⟩ := Nat.exists_eq_add_one_of_ne_zero (Nat.ne_zero_of_lt hm)
  simp only [Conditional.written, List.append_assoc] at hn hm ⊢
  have hguard : 0 < (guard style "if" test (Statement.writtenList style body)).length :=
    Nat.succ_pos _
  refine (reads_guarded ht h hn).bind ?_
  simp only [List.length_append] at hn hm
  exact (ha hrest (by rw [List.length_append]; omega) (by omega)).bind (.pure _)

lemma alternates_none : Alternates style .none := by
  intro n m rest hrest _ _
  refine (reads_checkWord ["else"]).bind ?_
  rw [show startsWith ["else"] (Alternate.none.written style ++ rest) = false from hrest]
  exact .pure _

lemma alternates_conditional {c : Conditional} (hc : Branches style c) :
    Alternates style (.conditional c) := by
  intro n m rest hrest hn hm
  have hif : startsWith ["if"] (c.written style ++ rest) = true := by
    cases c
    rfl
  simp only [Alternate.written, List.cons_append, List.length_cons] at hn hm ⊢
  refine (reads_checkWord ["else"]).bind ?_
  refine (reads_expectWord rfl (by decide)).discard.bind ((reads_checkWord ["if"]).bind ?_)
  rw [hif]
  exact (hc hrest (by omega) (by omega)).map

lemma alternates_block (h : ∀ a ∈ body, Restored style a) : Alternates style (.block body) := by
  intro n m rest hrest hn hm
  simp only [Alternate.written, List.cons_append, List.length_cons] at hn hm ⊢
  refine (reads_checkWord ["else"]).bind ?_
  refine (reads_expectWord rfl (by decide)).discard.bind ((reads_checkWord ["if"]).bind ?_)
  exact (reads_block h (by omega)).map

/-- The body of a function is read from its tokens. -/
def Bodies (style : Style) (b : FunctionBody) : Prop :=
  ∀ ⦃n : Nat⦄ ⦃rest : List Token⦄, (b.written style ++ rest).length ≤ n →
    Reads (Ahead (b.written style ++ rest)) (functionBody .stock (statement .stock n)) b
      (Ahead rest)

lemma bodies_block (h : ∀ a ∈ body, Restored style a) : Bodies style (.block body) := by
  intro n rest hn
  refine (reads_check [.openCurly]).bind ?_
  exact (reads_block h hn).map

lemma reads_parseExpressionStatement
    (h : Reads (Ahead (ts ++ style.terminator :: rest)) (parseExpression .stock .lowest) e
      (Ahead (style.terminator :: rest))) :
    Reads (Ahead (ts ++ style.terminator :: rest)) (parseExpressionStatement .stock) e
      (Ahead rest) :=
  h.bind ((reads_expect style.terminator_kind).discard.bind (.pure _))

lemma bodies_expression (he : e.Writable) : Bodies style (.expression e) := by
  intro n rest _
  simp only [FunctionBody.written, List.append_assoc, List.cons_append, List.nil_append]
  refine (reads_check [.openCurly]).bind ?_
  rw [show [TokenKind.openCurly].contains
    (firstKind (e.slotted style ++ style.terminator :: rest)) = false by
      simpa using firstKind_slotted style he]
  exact (reads_parseExpressionStatement (reads_slotted style he (halts_terminator style))).map

/-- A statement with a rule of its own. -/
lemma restored_of_rule (rule : StatementRule) (ha : a.written style = t :: ts)
    (ht : Grammar.stock.statement? t = some rule) (helse : startsWith ["else"] [t] = false)
    (hs : a.isSentinel = false)
    (hr : ∀ n rest, startsWith ["else"] rest = false → (a.written style ++ rest).length ≤ n →
      Reads (Ahead (a.written style ++ rest)) (ruled .stock (statement .stock n) rule) a
        (Ahead rest)) :
    Restored style a := by
  refine ⟨⟨t, ts, ha, helse⟩, hs, fun n rest hrest hn => ?_⟩
  obtain ⟨n, rfl⟩ := Nat.exists_eq_add_one_of_ne_zero (Nat.ne_zero_of_lt hn)
  have h := hr n rest hrest (Nat.le_of_lt_succ hn)
  rw [ha] at h ⊢
  refine reads_skipLayout.bind (reads_current_bind ?_)
  rw [ht]
  exact h.before

lemma restored_expression (he : e.Writable) : Restored style (.expression e) := by
  refine ⟨⟨_, _, rfl, rfl⟩, rfl, fun n rest _ hn => ?_⟩
  obtain ⟨n, rfl⟩ := Nat.exists_eq_add_one_of_ne_zero (Nat.ne_zero_of_lt hn)
  have hread : Reads (Ahead (parenthesized (e.bare style) ++ style.terminator :: rest))
      (parseExpression .stock .lowest) e (Ahead (style.terminator :: rest)) :=
    reads_parseExpression fun n hn =>
      (readBack_expression style e he).wrapped (halts_terminator style) hn
  simp only [Statement.written, List.append_assoc, List.cons_append, List.nil_append]
  refine reads_skipLayout.bind (reads_current_bind ?_)
  exact (reads_parseExpressionStatement hread).before.bind (.pure _)

lemma restored_block (h : ∀ a ∈ body, Restored style a) : Restored style (.block body) := by
  refine restored_of_rule .block rfl rfl rfl rfl fun n rest _ hn => ?_
  exact (reads_block h hn).bind (.pure _)

lemma restored_variableDeclaration {name : String} {modifiers : Modifiers}
    {value : Option Expression} {lifetime : Option Lifetime}
    (h : (Statement.variableDeclaration name modifiers value lifetime).Writable) :
    Restored style (.variableDeclaration name modifiers value lifetime) := by
  refine restored_of_rule .variableDeclaration rfl ?_ ?_ rfl fun n rest _ _ =>
    reads_variableDeclaration style name modifiers h
  · cases modifiers.canReassign <;> rfl
  · cases modifiers.canReassign <;> rfl

lemma restored_functionDeclaration {parameters : List Parameter} {isAsync : Bool}
    {b : FunctionBody} (ht : t.kind = .identifier) (hp : ∀ p ∈ parameters, p.Writable)
    (hb : Bodies style b) : Restored style (.functionDeclaration t parameters isAsync b) := by
  have hr : ∀ n rest, ((Statement.functionDeclaration t parameters isAsync b).written style ++
      rest).length ≤ n →
      Reads (Ahead ((Statement.functionDeclaration t parameters isAsync b).written style ++ rest))
        (functionDeclaration .stock (statement .stock n))
        (.functionDeclaration t parameters isAsync b) (Ahead rest) := by
    intro n rest hn
    unfold functionDeclaration
    simp only [Statement.written, parenthesized, List.append_assoc, List.cons_append,
      List.nil_append] at hn ⊢
    refine (reads_asyncMark isAsync rfl).bind ?_
    refine (reads_expectWord rfl (by decide)).discard.bind ((reads_expect (by simp [ht])).bind ?_)
    refine (reads_expect (by simp)).discard.bind (reads_budget_bind fun m hm => ?_)
    have hlen := length_le_parameters style true parameters
    simp only [List.length_append, List.length_cons] at hn hm
    refine (reads_parameters hp true (by omega)).bind ?_
    refine (reads_expect (by simp)).discard.bind ((reads_expect (by simp)).discard.bind ?_)
    exact (hb (by rw [List.length_append]; omega)).bind (.pure _)
  cases isAsync with
  | true => exact restored_of_rule .functionDeclaration rfl rfl rfl rfl fun n rest _ => hr n rest
  | false => exact restored_of_rule .functionDeclaration rfl rfl rfl rfl fun n rest _ => hr n rest

lemma restored_returning (he : e.Writable) : Restored style (.returning e) := by
  refine restored_of_rule .returning rfl rfl rfl rfl fun n rest _ hn => ?_
  simp only [Statement.written, List.append_assoc, List.cons_append, List.nil_append]
  refine (reads_expectWord rfl (by decide)).discard.bind ?_
  refine (reads_slotted style he (halts_terminator style)).bind ?_
  exact (reads_expect style.terminator_kind).discard.bind (.pure _)

lemma restored_conditional {c : Conditional} (hc : Branches style c) :
    Restored style (.conditional c) := by
  obtain ⟨ts, hts⟩ : ∃ ts, c.written style = Token.word "if" :: ts := by
    cases c
    exact ⟨_, rfl⟩
  refine restored_of_rule .conditional hts rfl rfl rfl fun n rest hrest hn => ?_
  refine reads_budget_bind fun m hm => ?_
  refine (hc hrest hn ?_).bind (.pure _)
  rw [List.length_append] at hm
  exact Nat.lt_of_le_of_lt (Nat.le_add_right _ _) hm

lemma restored_when {test : Expression} (ht : test.Writable) (h : ∀ a ∈ body, Restored style a) :
    Restored style (.when test body) := by
  refine restored_of_rule .when rfl rfl rfl rfl fun n rest _ hn => ?_
  exact (reads_guarded ht h hn).bind (.pure _)

end Blocks

mutual

/-- Every statement of the language is read back. -/
lemma restored_statement (style : Style) : ∀ a : Statement, a.Writable → Restored style a
  | .expression _, h => restored_expression h
  | .block body, h => restored_block (restored_list style body h)
  | .variableDeclaration _ _ _ _, h => restored_variableDeclaration h
  | .functionDeclaration _ _ _ body, h =>
      restored_functionDeclaration h.1 h.2.1 (bodies_functionBody style body h.2.2)
  | .returning _, h => restored_returning h
  | .conditional branch, h => restored_conditional (branches_conditional style branch h)
  | .when _ consequent, h => restored_when h.1 (restored_list style consequent h.2)
  | .classDeclaration, h | .delete, h | .reverse, h | .importing, h | .exporting, h
  | .branching _, h | .endOfFile, h | .endOfBlock, h => absurd h id

lemma bodies_functionBody (style : Style) : ∀ b : FunctionBody, b.Writable → Bodies style b
  | .block body, h => bodies_block (restored_list style body h)
  | .expression _, h => bodies_expression h

lemma branches_conditional (style : Style) : ∀ c : Conditional, c.Writable → Branches style c
  | .mk _ consequent alternate, h =>
      branches_mk h.1 (restored_list style consequent h.2.1)
        (alternates_alternate style alternate h.2.2)

lemma alternates_alternate (style : Style) : ∀ a : Alternate, a.Writable → Alternates style a
  | .none, _ => alternates_none
  | .conditional branch, h => alternates_conditional (branches_conditional style branch h)
  | .block body, h => alternates_block (restored_list style body h)

lemma restored_list (style : Style) :
    ∀ body : List Statement, Statement.WritableList body → ∀ a ∈ body, Restored style a
  | [], _ => nofun
  | a :: body, h => List.forall_mem_cons.2
      ⟨restored_statement style a h.1, restored_list style body h.2⟩

end

section Programs
variable {body : List Statement}

/-- The end of the file is passed like any other token. -/
lemma reads_endOfFile : Reads (Ahead []) endOfFile .endOfFile Cursor.Ended := by
  intro s hs
  have hmet : (Expected.kinds [.endOfFile]).isMet s.cursor.next := by
    simp [Expected.isMet, kind_next hs, firstKind]
  have htake : Reads (· = s.cursor) (expect [.endOfFile]) s.cursor.next Cursor.Ended := by
    intro u hu
    refine ⟨{ u with cursor := u.cursor.pass }, ?_, u.cursor.leads_pass, ?_⟩
    · rw [expect, run_take, hu, if_pos hmet]
    · rw [hu]
      exact s.cursor.ended_pass.2 hs
  have hread : Reads (· = s.cursor) endOfFile .endOfFile Cursor.Ended :=
    htake.discard.bind (.pure _)
  exact hread s rfl

lemma statement?_endOfFile (h : t.kind = .endOfFile) :
    Grammar.stock.statement? t = some .endOfFile := by
  obtain ⟨kind, value, operation, span, line⟩ := t
  subst h
  rfl

lemma reads_programBody (h : ∀ a ∈ body, Restored style a) (hm : body.length < m) :
    Reads (Ahead (Statement.writtenList style body)) (programBody .stock m) body Cursor.Ended := by
  induction body generalizing m with
  | nil =>
    obtain ⟨m, rfl⟩ := Nat.exists_eq_add_one_of_ne_zero (Nat.ne_zero_of_lt hm)
    have hlast : Reads (Ahead []) (parseStatement .stock) .endOfFile Cursor.Ended := by
      refine reads_budget_bind fun n hn => ?_
      obtain ⟨n, rfl⟩ := Nat.exists_eq_add_one_of_ne_zero (Nat.ne_zero_of_lt hn)
      refine reads_skipLayout.bind (reads_current_kind fun t ht => ?_)
      rw [statement?_endOfFile ht]
      exact reads_endOfFile.before
    exact hlast.bind (.pure _)
  | cons a body ih =>
    obtain ⟨m, rfl⟩ := Nat.exists_eq_add_one_of_ne_zero (Nat.ne_zero_of_lt hm)
    have ha := h a (by simp)
    have hbody : ∀ a ∈ body, Restored style a := fun a ha => h a (by simp [ha])
    have helse : startsWith ["else"] (Statement.writtenList style body ++ []) = false :=
      startsWith_writtenList hbody rfl
    rw [List.append_nil] at helse
    have hread : Reads (Ahead (Statement.writtenList style (a :: body))) (parseStatement .stock) a
        (Ahead (Statement.writtenList style body)) :=
      reads_budget_bind fun n hn => ha.reads helse hn
    refine hread.bind ?_
    have hs := ha.isSentinel
    split
    · exact absurd hs (by decide)
    · exact absurd hs (by decide)
    · exact (ih hbody (by simpa using hm)).bind (.pure _)

lemma reads_parseProgram (h : ∀ a ∈ body, Restored style a) :
    Reads (Ahead (Statement.writtenList style body)) (parseProgram .stock) body Cursor.Ended := by
  refine reads_budget_bind fun m hm => ?_
  refine (reads_programBody h (Nat.lt_of_le_of_lt (length_le_writtenList h) hm)).bind ?_
  exact (reads_note _ _).bind (.pure _)

lemma run_parseProgram_written (style : Style) {program : Block} (h : program.Writable)
    {last : Token} (hlast : last.kind = .endOfFile) :
    ∃ s, (parseProgram .stock).run (.ofTokens (program.written style ++ [last])) =
      (.ok program, s) ∧ s.cursor.Ended := by
  have hahead : (Cursor.ofTokens (program.written style ++ [last])).ahead =
      program.written style := by
    rw [Cursor.ofTokens_append hlast]
    exact (Statement.solid_writtenList style program h).filter_eq
  obtain ⟨s, hrun, -, hended⟩ := reads_parseProgram (restored_list style program h)
    (.ofTokens (program.written style ++ [last])) hahead
  exact ⟨s, hrun, hended⟩

end Programs
end Parse

/-- A program of the language is read back from its tokens, however it is written and whatever
layout stands between the tokens. Nothing is left over. With other places for the tokens, the
places in the tree differ and nothing else does. -/
theorem parseProgram_written (style : Style) {program : Block} (h : program.Writable)
    {last : Token} (hlast : last.kind = .endOfFile) :
    (∃ s, (parseProgram .stock).run (.ofTokens (program.written style ++ [last])) =
      (.ok program, s) ∧ s.cursor.Ended) ∧
    ∀ body : List Token, (body.filter (!·.kind.isIgnorable)).map Token.unplaced =
        (program.written style).map Token.unplaced →
      ∃ program' s, (parseProgram .stock).run (.ofTokens (body ++ [last])) = (.ok program', s) ∧
        program'.unplaced = program.unplaced ∧ s.cursor.Ended := by
  have hwritten := Parse.run_parseProgram_written style h hlast
  refine ⟨hwritten, fun body hbody => ?_⟩
  obtain ⟨s, hrun, hended⟩ := hwritten
  have hsolid := (Statement.solid_writtenList style program h).filter_eq
  have haligned : Parse.Aligned (.ofTokens (body ++ [last]))
      (.ofTokens (program.written style ++ [last])) := by
    refine Parse.aligned_ofTokens hlast hlast ?_
    rw [List.filter_append, List.filter_append, List.map_append, List.map_append, hbody]
    exact congrArg (fun ts => ts.map Token.unplaced ++ _) hsolid.symm
  have hm := Parse.alike_parseProgram .stock (.ofTokens (body ++ [last]))
    (.ofTokens (program.written style ++ [last])) ⟨haligned, Nat.lt_succ_self _⟩
  rw [hrun] at hm
  revert hm
  rcases (parseProgram .stock).run (.ofTokens (body ++ [last])) with ⟨e | program', s'⟩
  · exact False.elim
  · exact fun hm => ⟨program', s', rfl, hm.1, hm.2.1.ended.2 hended⟩

/-- `async function f(x<Infinity s>) => { if (x==1) { return -(previous x)! } else { … } }`, with an
assignment to `x.y` behind `else`. -/
theorem parseProgram_written_function :
    let style := Style.chosen fun _ => false
    let x := Expression.symbol "x"
    let one := Expression.number (digitRunValue "1")
    let program : Block := [.functionDeclaration (.word "f")
      [⟨.word "x", some ⟨Binary.infinity false, .seconds⟩⟩] true (.block [.conditional (.mk
        (.binary x (.mark .equals) one)
        [.returning (.unary (.mark .subtract) (.state (.word "previous") (.symbol "x")))]
        (.block [.expression
          (.assignment (.member x (.symbol "y") false) (.member x one true))]))])]
    ∃ s, (parseProgram .stock).run (.ofTokens (program.written style ++ [.endOfFile 0 1])) =
      (.ok program, s) ∧ s.cursor.Ended := by
  intro style x one program
  have hone : IsNumeral (digitRunValue "1") := ⟨"1", by decide, rfl⟩
  have hx : "x" ∉ Grammar.stateWords := by decide
  have hy : "y" ∉ Grammar.stateWords := by decide
  have hprevious : (Token.word "previous").value ∈ Grammar.stateWords := by decide
  have hequals : (operatorPower? (.mark .equals)).isSome := rfl
  have hwritable : program.Writable := by
    simp [program, x, one, Block.Writable, Statement.WritableList, Statement.Writable,
      FunctionBody.Writable, Conditional.Writable, Alternate.Writable, Expression.Writable,
      Reference.Writable, Parameter.Writable, Lifetime.Writable, IsStateOperator,
      Expression.isName, hone, hx, hy, hprevious, hequals]
  exact (parseProgram_written style hwritable rfl).1

end Exclaim
