import Exclaim.Evaluation.Basic
import Exclaim.Proofs.Ends
import Exclaim.Proofs.Evaluation.Scope

/-! The order of evaluation. What the evaluation of an expression meets, and in which order, can be
read off the expression. Whether it fails, why it fails and what it reports on the way depend on
that order and on the names in scope, and never on a value. -/
namespace Exclaim

/-- What an evaluation meets. -/
inductive Visit where
  /-- A name to read, or to store into. -/
  | name (name : String)
  /-- A node that has no rule. -/
  | refused (kind : NodeKind)
  /-- A node that is under construction. -/
  | reported (kind : NodeKind)
deriving DecidableEq

/-- What storing into a place meets. A member is not looked into. -/
def Reference.visit : Reference → Visit
  | .symbol name => .name name
  | .member .. => .reported .memberExpression

/-- What the evaluation of an expression meets, in order: operands from left to right, and an
assigned value before its target. -/
def Expression.visits : Expression → List Visit
  | .assignment target value => value.visits ++ [target.visit]
  | .unary _ operand => operand.visits
  | .binary left _ right => left.visits ++ right.visits
  | .number _ | .string _ => []
  | .symbol name => [.name name]
  | .state .. => [.reported .stateExpression]
  | .call .. => [.reported .callExpression]
  | .object _ => [.refused .objectDeclarationExpression]
  | .array _ => [.refused .arrayDeclarationExpression]
  | .member .. => [.refused .memberExpression]
  | .branching _ => [.refused .branchingExpression]

namespace Visit

/-- Why an evaluation fails here when it knows some names; none when it does not. -/
def failure? (names : List String) : Visit → Option EvalError
  | name n => if n ∈ names then none else some (.unresolved n)
  | refused kind => some (.unhandled kind)
  | reported _ => none

def report? : Visit → Option NodeKind
  | reported kind => some kind
  | _ => none

/-- What is met before the first failure. -/
def passed (names : List String) (vs : List Visit) : List Visit :=
  vs.takeWhile fun v => (v.failure? names).isNone

variable {names names' : List String} {vs ws : List Visit} {x : EvalError}

lemma failure?_congr (h : ∀ name, name ∈ names' ↔ name ∈ names) :
    failure? names' = failure? names := by
  funext v
  cases v with
  | name n => simp only [failure?, h]
  | refused kind => rfl
  | reported kind => rfl

lemma passed_append_of_none (h : vs.findSome? (failure? names) = none) :
    passed names (vs ++ ws) = vs ++ passed names ws := by
  apply List.takeWhile_append_of_pos
  intro v hv
  rw [List.findSome?_eq_none_iff.1 h v hv]
  rfl

lemma passed_eq_self (h : vs.findSome? (failure? names) = none) : passed names vs = vs := by
  have happend : passed names (vs ++ []) = vs ++ passed names [] := passed_append_of_none h
  simpa [passed] using happend

lemma passed_append_of_some (h : vs.findSome? (failure? names) = some x) :
    passed names (vs ++ ws) = passed names vs := by
  induction vs with
  | nil => simp at h
  | cons v vs ih =>
    cases hv : v.failure? names with
    | some y => simp [passed, hv]
    | none =>
      have htail := ih (by simpa [List.findSome?_cons, hv] using h)
      simpa [passed, hv] using htail

end Visit

namespace ScopeChain

/-- The names of all scopes of the chain. -/
def inScope (s : ScopeChain) : List String := s.frames.flatMap Frame.names

variable {s s' : ScopeChain} {name : String} {value : Value}

lemma mem_inScope : name ∈ s.inScope ↔ ∃ f ∈ s.frames, f.owns name := by
  simp [inScope, List.mem_flatMap, Frame.owns_iff_mem_names]

lemma lookup?_eq_none_iff : s.lookup? name = none ↔ name ∉ s.inScope := by
  rw [lookup?, Option.map_eq_none_iff, binding?, List.findSome?_eq_none_iff, mem_inScope]
  simp [Frame.owns]

lemma setNearest?_eq_none_iff {fs : List Frame} :
    setNearest? name value fs = none ↔ ∀ f ∈ fs, f.owns name = false := by
  induction fs with
  | nil => simp [setNearest?]
  | cons f fs ih =>
    cases howns : f.owns name with
    | true => simp [setNearest?, howns]
    | false => simpa [setNearest?, howns] using ih

lemma assign?_eq_none_iff : s.assign? name value = none ↔ name ∉ s.inScope := by
  rw [mem_inScope, assign?]
  cases howns : s.current.owns name with
  | true => simp [frames, howns]
  | false => simp [frames, howns, setNearest?_eq_none_iff]

lemma inScope_assign? (h : s.assign? name value = some s') : s'.inScope = s.inScope := by
  obtain ⟨nearer, owner, rest, hs, -, -, hs'⟩ := assign?_eq_some h
  simp [inScope, hs, hs']

end ScopeChain

namespace Eval

/-- Why an action failed; none when it gave a value. -/
def failure? {α : Type} : Except EvalError α → Option EvalError
  | .ok _ => none
  | .error x => some x

/-- From a state, the action meets these in turn: it fails at the first that has a failure, it
reports what is under construction before that, and it leaves the names in scope as they are. -/
structure MeetsAt {α : Type} (p : Eval α) (vs : List Visit) (s : EvalState) : Prop where
  fails : failure? (p.run s).1 = vs.findSome? (Visit.failure? s.scopes.inScope)
  reports : (p.run s).2.reports =
    s.reports ++ (Visit.passed s.scopes.inScope vs).filterMap Visit.report?
  names : (p.run s).2.scopes.inScope = s.scopes.inScope

/-- The action meets these in turn, whatever state it starts from. -/
def Meets {α : Type} (p : Eval α) (vs : List Visit) : Prop := ∀ s, MeetsAt p vs s

section Rules
variable {α β : Type} {p : Eval α} {f : α → Eval β} {vs ws : List Visit}

/-- What the second action meets comes behind what the first one meets. The names in scope are the
same for both, so both fail for the same reasons. -/
lemma Meets.bind (hp : Meets p vs) (hf : ∀ a, Meets (f a) ws) : Meets (p >>= f) (vs ++ ws) := by
  intro s
  obtain ⟨hfails, hreports, hnames⟩ := hp s
  have hrun := run_bindCont p f s
  rcases hps : p.run s with ⟨x | a, s'⟩
  · rw [hps] at hfails hreports hnames hrun
    constructor
    · rw [hrun, List.findSome?_append, ← hfails]
      rfl
    · rw [hrun, Visit.passed_append_of_some hfails.symm]
      exact hreports
    · rw [hrun]
      exact hnames
  · rw [hps] at hfails hreports hnames hrun
    obtain ⟨hfails', hreports', hnames'⟩ := hf a s'
    rw [hnames] at hfails' hreports' hnames'
    constructor
    · rw [hrun, List.findSome?_append, ← hfails]
      exact hfails'
    · rw [hrun, Visit.passed_append_of_none hfails.symm, List.filterMap_append,
        ← List.append_assoc, ← Visit.passed_eq_self hfails.symm, ← hreports]
      exact hreports'
    · rw [hrun]
      exact hnames'

lemma meets_pure (a : α) : Meets (pure a) [] := fun _ => ⟨rfl, (List.append_nil _).symm, rfl⟩

lemma meets_note (level : LogLevel) (message : String) : Meets (note level message) [] :=
  fun _ => ⟨rfl, (List.append_nil _).symm, rfl⟩

lemma meets_report (kind : NodeKind) : Meets (report kind) [.reported kind] :=
  fun _ => ⟨rfl, rfl, rfl⟩

lemma meets_get_bind {f : EvalState → Eval β} (h : ∀ s, MeetsAt (f s) vs s) :
    Meets (get >>= f) vs := fun s => ⟨(h s).fails, (h s).reports, (h s).names⟩

end Rules

section Names
variable {s : EvalState} {name : String}

lemma meetsAt_unknown (h : name ∉ s.scopes.inScope) :
    MeetsAt (throw (.unresolved name) : Eval Value) [.name name] s := by
  constructor
  · simp [Visit.failure?, h]
    rfl
  · simp [Visit.passed, Visit.failure?, h]
    rfl
  · rfl

lemma meetsAt_known (h : name ∈ s.scopes.inScope) (value : Value) :
    MeetsAt (pure value) [.name name] s := by
  constructor
  · simp [Visit.failure?, h]
    rfl
  · have hpassed : Visit.passed s.scopes.inScope [.name name] = [.name name] :=
      Visit.passed_eq_self (by simp [Visit.failure?, h])
    rw [hpassed]
    exact (List.append_nil _).symm
  · rfl

end Names

lemma meets_lookup (name : String) : Meets (lookup name) [.name name] := by
  apply meets_get_bind
  intro s
  cases hlookup : s.scopes.lookup? name with
  | none => exact meetsAt_unknown (ScopeChain.lookup?_eq_none_iff.1 hlookup)
  | some value =>
    have hname : name ∈ s.scopes.inScope := by
      by_contra hnone
      rw [ScopeChain.lookup?_eq_none_iff.2 hnone] at hlookup
      exact absurd hlookup (by simp)
    exact meetsAt_known hname value

lemma meets_assign (name : String) (value : Value) : Meets (assign name value) [.name name] := by
  apply meets_get_bind
  intro s
  cases hassign : s.scopes.assign? name value with
  | none => exact meetsAt_unknown (ScopeChain.assign?_eq_none_iff.1 hassign)
  | some scopes =>
    have hname : name ∈ s.scopes.inScope := by
      by_contra hnone
      rw [ScopeChain.assign?_eq_none_iff.2 hnone] at hassign
      exact absurd hassign (by simp)
    obtain ⟨hfails, hreports, -⟩ := meetsAt_known hname value
    exact ⟨hfails, hreports, ScopeChain.inScope_assign? hassign⟩

lemma meets_store (target : Reference) (value : Value) :
    Meets (store target value) [target.visit] := by
  cases target with
  | symbol name => exact meets_assign name value
  | member object property computed => exact (meets_report _).bind fun _ => meets_pure _

lemma meets_ruleFor {α : Type} {t : EvalTable} {kind : NodeKind} {rule : EvalRule}
    {f : EvalRule → Eval α} {vs : List Visit} (h : t.rule? kind = some rule)
    (hf : Meets (f rule) vs) : Meets (ruleFor t kind >>= f) vs := by
  unfold ruleFor
  rw [h, bind_assoc]
  exact (meets_note _ _).bind fun _ => hf

lemma meets_refused {α : Type} {t : EvalTable} {kind : NodeKind} {f : EvalRule → Eval α}
    (h : t.rule? kind = none) : Meets (ruleFor t kind >>= f) [.refused kind] := by
  unfold ruleFor
  rw [h]
  exact fun _ => ⟨rfl, (List.append_nil _).symm, rfl⟩

lemma meets_underConstruction (kind : NodeKind) :
    Meets (aside .underConstruction kind) [.reported kind] :=
  (meets_report kind).bind fun _ => meets_pure _

end Eval

open Eval

lemma Expression.meets_eval : ∀ e : Expression, Meets (e.eval .stock) e.visits
  | .assignment target value => by
      rw [Expression.eval]
      apply meets_ruleFor rfl
      exact value.meets_eval.bind fun v => meets_store target v
  | .unary operator operand => by
      rw [Expression.eval, Expression.visits, ← List.append_nil operand.visits]
      apply meets_ruleFor rfl
      exact operand.meets_eval.bind fun v => meets_pure _
  | .binary left operator right => by
      rw [Expression.eval, Expression.visits, ← List.append_nil right.visits]
      apply meets_ruleFor rfl
      exact left.meets_eval.bind fun a => right.meets_eval.bind fun b => meets_pure _
  | .number value => by
      rw [Expression.eval]
      exact meets_ruleFor rfl (meets_pure _)
  | .string value => by
      rw [Expression.eval]
      exact meets_ruleFor rfl (meets_pure _)
  | .symbol name => by
      rw [Expression.eval]
      exact meets_ruleFor rfl (meets_lookup name)
  | .state .. | .call .. => by
      simp only [Expression.eval]
      exact meets_ruleFor rfl (meets_underConstruction _)
  | .object _ | .array _ | .member .. | .branching _ => by
      simp only [Expression.eval]
      exact meets_refused rfl

/-- The findings of an evaluation with some names in scope: one for each node under construction
that it passes. -/
def Expression.findings (names : List String) (e : Expression) : List Diagnostic :=
  ((Visit.passed names e.visits).filterMap Visit.report?).map fun kind =>
    Message.nodeUnderConstruction.raise [kind.name]

lemma Eval.failure?_eq_some {α : Type} {r : Except EvalError α} {x : EvalError} :
    failure? r = some x ↔ r = .error x := by
  cases r with
  | ok a => simp [failure?]
  | error y => simp [failure?]

lemma Eval.MeetsAt.error_iff {α : Type} {p : Eval α} {vs : List Visit} {s : EvalState}
    (h : MeetsAt p vs s) (x : EvalError) :
    (p.run s).1 = .error x ↔ vs.findSome? (Visit.failure? s.scopes.inScope) = some x := by
  rw [← h.fails, failure?_eq_some]

lemma Expression.diagnostics_eval (e : Expression) (s : EvalState) :
    ((e.eval .stock).run s).2.diagnostics = s.diagnostics ++ e.findings s.scopes.inScope := by
  rw [EvalState.diagnostics, (e.meets_eval s).reports, List.map_append]
  rfl

/-- An expression fails exactly at the first failure in its order, and it reports what is under
construction before that point. Scopes with the same names give the same outcome and the same
findings, whatever values they store. -/
theorem eval_in_order (e : Expression) (s : EvalState) :
    (∀ x, ((e.eval .stock).run s).1 = .error x ↔
      e.visits.findSome? (Visit.failure? s.scopes.inScope) = some x) ∧
    ((e.eval .stock).run s).2.diagnostics = s.diagnostics ++ e.findings s.scopes.inScope ∧
    ∀ s' : EvalState, (∀ name, name ∈ s'.scopes.inScope ↔ name ∈ s.scopes.inScope) →
      (∀ x, ((e.eval .stock).run s').1 = .error x ↔ ((e.eval .stock).run s).1 = .error x) ∧
      ((e.eval .stock).run s').2.diagnostics = s'.diagnostics ++ e.findings s.scopes.inScope := by
  refine ⟨(e.meets_eval s).error_iff, e.diagnostics_eval s, fun s' hnames => ⟨fun x => ?_, ?_⟩⟩
  · rw [(e.meets_eval s').error_iff, (e.meets_eval s).error_iff, Visit.failure?_congr hnames]
  · rw [e.diagnostics_eval s', Expression.findings, Expression.findings,
      Visit.passed, Visit.passed, Visit.failure?_congr hnames]

/-- The right operand is evaluated whatever the left one gives: it reports a call, and then it
fails. -/
theorem eval_in_order_or :
    let a : Token := ⟨.logicalOr, "||", none, ⟨5, 7⟩, 1⟩
    let b : Token := ⟨.add, "+", none, ⟨12, 13⟩, 1⟩
    let e : Expression := .binary (.assignment (.symbol "x") (.string "on")) a
      (.binary (.call (.symbol "f") []) b (.symbol "y"))
    let s : EvalState := { scopes := ⟨[("x", ⟨.null, {}, none⟩)], []⟩ }
    let s' : EvalState := { scopes := ⟨[], [[("x", ⟨.text "off", {}, none⟩)]]⟩ }
    ((e.eval .stock).run s).1 = .error (.unresolved "y") ∧
    ((e.eval .stock).run s').1 = .error (.unresolved "y") ∧
    ((e.eval .stock).run s').2.diagnostics =
      [Message.nodeUnderConstruction.raise [NodeKind.callExpression.name]] := by
  intro a b e s s'
  obtain ⟨hfails, -, hsame⟩ := eval_in_order e s
  have hfirst : ((e.eval .stock).run s).1 = .error (.unresolved "y") :=
    (hfails _).2 (by decide)
  have hnames : ∀ name, name ∈ s'.scopes.inScope ↔ name ∈ s.scopes.inScope := fun _ => Iff.rfl
  obtain ⟨hfails', hreports⟩ := hsame s' hnames
  exact ⟨hfirst, (hfails' _).2 hfirst, hreports⟩

end Exclaim
