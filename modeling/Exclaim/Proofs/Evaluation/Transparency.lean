import Exclaim.Proofs.Ends
import Exclaim.Proofs.Evaluation.Composition

/-! Blocks are transparent: a block among other statements can be replaced by what stands in it. -/
namespace Exclaim

mutual

/-- `program'` is `program` with one block replaced by its statements. The block stands in a list of
statements that is evaluated, and it is not the empty end of that list. -/
inductive Block.Unwraps : Block → Block → Prop
  | here (before : Block) {body after : Block} (h : body ≠ [] ∨ after ≠ []) :
      Block.Unwraps (before ++ .block body :: after) (before ++ body ++ after)
  | block (before after : Block) {body body' : Block} (h : Block.Unwraps body body') :
      Block.Unwraps (before ++ .block body :: after) (before ++ .block body' :: after)
  | conditional (before after : Block) {branch branch' : Conditional}
      (h : Conditional.Unwraps branch branch') :
      Block.Unwraps (before ++ .conditional branch :: after)
        (before ++ .conditional branch' :: after)

inductive Conditional.Unwraps : Conditional → Conditional → Prop
  | consequent (test : Expression) (alternate : Alternate) {body body' : Block}
      (h : Block.Unwraps body body') :
      Conditional.Unwraps (.mk test body alternate) (.mk test body' alternate)
  | alternate (test : Expression) (consequent : Block) {body body' : Block}
      (h : Block.Unwraps body body') :
      Conditional.Unwraps (.mk test consequent (.block body)) (.mk test consequent (.block body'))
  | elseIf (test : Expression) (consequent : Block) {branch branch' : Conditional}
      (h : Conditional.Unwraps branch branch') :
      Conditional.Unwraps (.mk test consequent (.conditional branch))
        (.mk test consequent (.conditional branch'))

end

/-- Two states with the same scopes and the same reports. They may differ in what was noted. -/
structure EvalState.Like (s s' : EvalState) : Prop where
  scopes : s'.scopes = s.scopes
  reports : s'.reports = s.reports

namespace Eval

/-- From states that are alike, two actions give the same result and states that are alike. -/
def Same {α : Type} (p q : Eval α) : Prop :=
  ∀ s s' : EvalState, s.Like s' →
    (q.run s').1 = (p.run s).1 ∧ (p.run s).2.Like (q.run s').2

namespace Same
variable {α β : Type} {p q r : Eval α} {f g : α → Eval β}

lemma bind (hp : Same p q) (hf : ∀ a, Same (f a) (g a)) : Same (p >>= f) (q >>= g) := by
  intro s s' hs
  obtain ⟨hresult, hstate⟩ := hp s s' hs
  rw [run_bindCont, run_bindCont, hresult]
  cases (p.run s).1 with
  | error e => exact ⟨rfl, hstate⟩
  | ok a => exact hf a _ _ hstate

/-- What is noted first makes no difference. -/
lemma noted (level : LogLevel) (message : String) (h : Same p q) :
    Same (note level message >>= fun _ => p) q :=
  fun _ s' hs => h _ s' ⟨hs.scopes, hs.reports⟩

end Same

section Steps
variable {α : Type}

lemma same_get_bind {f : EvalState → Eval α}
    (h : ∀ s s' : EvalState, s.Like s' →
      ((f s').run s').1 = ((f s).run s).1 ∧ ((f s).run s).2.Like ((f s').run s').2) :
    Same (get >>= f) (get >>= f) := h

lemma same_declare (name : String) (binding : Binding) :
    Same (declare name binding) (declare name binding) := by
  refine same_get_bind fun s s' hs => ?_
  rw [hs.scopes]
  cases s.scopes.declare? name binding with
  | none => exact ⟨rfl, hs⟩
  | some scopes => exact ⟨rfl, rfl, hs.reports⟩

lemma same_assign (name : String) (value : Value) :
    Same (assign name value) (assign name value) := by
  refine same_get_bind fun s s' hs => ?_
  rw [hs.scopes]
  cases s.scopes.assign? name value with
  | none => exact ⟨rfl, hs⟩
  | some scopes => exact ⟨rfl, rfl, hs.reports⟩

lemma same_lookup (name : String) : Same (lookup name) (lookup name) := by
  refine same_get_bind fun s s' hs => ?_
  rw [hs.scopes]
  cases s.scopes.lookup? name with
  | none => exact ⟨rfl, hs⟩
  | some value => exact ⟨rfl, hs⟩

/-- What was noted before makes no difference to an evaluation. -/
lemma Composed.same {p : Eval α} (h : Composed p) : Same p p := by
  induction h with
  | pure a => exact fun s s' hs => ⟨rfl, hs⟩
  | throw e => exact fun s s' hs => ⟨rfl, hs⟩
  | bind hp hf ihp ihf => exact ihp.bind ihf
  | note level message => exact fun s s' hs => ⟨rfl, hs.scopes, hs.reports⟩
  | report kind => exact fun s s' hs => ⟨rfl, hs.scopes, congrArg (· ++ [kind]) hs.reports⟩
  | declare name binding => exact same_declare name binding
  | assign name value => exact same_assign name value
  | lookup name => exact same_lookup name

end Steps

lemma same_ruleFor {α : Type} {t : EvalTable} {kind : NodeKind} {rule : EvalRule}
    {f : EvalRule → Eval α} {q : Eval α} (h : t.rule? kind = some rule) (hf : Same (f rule) q) :
    Same (ruleFor t kind >>= f) q := by
  unfold ruleFor
  rw [h, bind_assoc]
  exact hf.noted _ _

end Eval

open Eval

namespace Statement
variable {t : EvalTable} {last : Value}

lemma evalAll_append (t : EvalTable) (last : Value) (ss ss' : List Statement) :
    evalAll t last (ss ++ ss') = evalAll t last ss >>= fun value => evalAll t value ss' := by
  induction ss generalizing last with
  | nil => simp [evalAll]
  | cons s ss ih => simp [evalAll, ih]

/-- One statement in a list may be replaced by one that does the same. -/
lemma same_evalAll {s s' : Statement} (h : Same (s.eval t) (s'.eval t))
    (before after : List Statement) :
    Same (evalAll t last (before ++ s :: after)) (evalAll t last (before ++ s' :: after)) := by
  rw [evalAll_append, evalAll_append]
  refine (composed_evalAll t before last).same.bind fun value => ?_
  rw [evalAll, evalAll]
  exact h.bind fun value => (composed_evalAll t after value).same

/-- A block does what its statements do, and has the value of the last of them. -/
lemma same_block (body : Block) :
    Same ((block body).eval .stock) (evalAll .stock .null body) := by
  rw [Statement.eval]
  exact same_ruleFor rfl (composed_evalAll .stock body .null).same

/-- The value before a block counts behind it only if nothing stands in the block. -/
lemma same_unwrapped {body after : Block} (h : body ≠ [] ∨ after ≠ []) :
    Same (evalAll .stock last (.block body :: after)) (evalAll .stock last (body ++ after)) := by
  have hbody : ∀ value, Same (evalAll .stock value after) (evalAll .stock value after) :=
    fun value => (composed_evalAll .stock after value).same
  rw [evalAll, evalAll_append]
  -- Whichever list is not empty starts with a statement that gives a value of its own.
  cases body with
  | cons s body => exact (same_block (s :: body)).bind hbody
  | nil =>
    obtain ⟨s, after, rfl⟩ := List.exists_cons_of_ne_nil (h.resolve_left fun hne => hne rfl)
    exact (same_block []).bind hbody

end Statement

mutual

lemma Block.Unwraps.same : ∀ {program program' : Block}, program.Unwraps program' →
    ∀ last, Same (Statement.evalAll .stock last program) (Statement.evalAll .stock last program')
  | _, _, .here before h, last => by
      rw [List.append_assoc, Statement.evalAll_append, Statement.evalAll_append]
      refine (Statement.composed_evalAll .stock before last).same.bind fun value => ?_
      exact Statement.same_unwrapped h
  | _, _, .block before after h, last => by
      refine Statement.same_evalAll ?_ before after
      rw [Statement.eval, Statement.eval]
      exact (composed_ruleFor _ _).same.bind fun rule => by
        cases rule with
        | block => exact h.same .null
        | _ => exact (composed_aside _ _).same
  | _, _, .conditional before after h, last => by
      refine Statement.same_evalAll ?_ before after
      rw [Statement.eval, Statement.eval]
      exact (composed_ruleFor _ _).same.bind fun rule => by
        cases rule with
        | conditional => exact h.same
        | _ => exact (composed_aside _ _).same

lemma Conditional.Unwraps.same : ∀ {branch branch' : Conditional}, branch.Unwraps branch' →
    Same (branch.eval .stock) (branch'.eval .stock)
  | _, _, .consequent test alternate h => by
      rw [Conditional.eval, Conditional.eval]
      refine (test.composed_eval .stock).same.bind fun value => ?_
      split
      · exact h.same .null
      · exact (alternate.composed_eval .stock).same
  | _, _, .alternate test consequent h => by
      rw [Conditional.eval, Conditional.eval]
      refine (test.composed_eval .stock).same.bind fun value => ?_
      split
      · exact (Statement.composed_evalAll .stock consequent .null).same
      · rw [Alternate.eval, Alternate.eval]
        exact h.same .null
  | _, _, .elseIf test consequent h => by
      rw [Conditional.eval, Conditional.eval]
      refine (test.composed_eval .stock).same.bind fun value => ?_
      split
      · exact (Statement.composed_evalAll .stock consequent .null).same
      · rw [Alternate.eval, Alternate.eval]
        exact h.same

end

lemma same_evalProgram {program program' : Block}
    (h : ∀ last, Same (Statement.evalAll .stock last program)
      (Statement.evalAll .stock last program')) :
    Same (evalProgram .stock program) (evalProgram .stock program') := by
  unfold evalProgram evalBlock
  refine (h .null).bind fun value => ?_
  exact ((Composed.note _ _).bind fun _ => .pure value).same

/-- A program with a block replaced by its statements has the same result, a value or an error, and
leaves the same scopes and findings, from whatever state it starts. -/
theorem blocks_transparent {program program' : Block} (h : program.Unwraps program')
    (s : EvalState) :
    ((evalProgram .stock program').run s).1 = ((evalProgram .stock program).run s).1 ∧
    ((evalProgram .stock program').run s).2.scopes =
      ((evalProgram .stock program).run s).2.scopes ∧
    ((evalProgram .stock program').run s).2.diagnostics =
      ((evalProgram .stock program).run s).2.diagnostics := by
  obtain ⟨hresult, hstate⟩ := same_evalProgram h.same s s ⟨rfl, rfl⟩
  refine ⟨hresult, hstate.scopes, ?_⟩
  rw [EvalState.diagnostics, EvalState.diagnostics, hstate.reports]

/-- The last statement of an `else` branch is a block that declares a name, reports a call and gives
the value of the name. -/
theorem blocks_transparent_else :
    let body : Block := [.variableDeclaration "x" {} (some (.string "a")) none,
      .expression (.call (.symbol "f") []), .expression (.symbol "x")]
    let program : Block := [.conditional (.mk (.string "") [] (.block [.block body]))]
    let program' : Block := [.conditional (.mk (.string "") [] (.block body))]
    program.Unwraps program' ∧
    ((evalProgram .stock program).run {}).1 = .ok (.text "a") ∧
    ((evalProgram .stock program').run {}).1 = .ok (.text "a") ∧
    ((evalProgram .stock program').run {}).2.scopes.current.names = ["x"] ∧
    ((evalProgram .stock program').run {}).2.diagnostics =
      [Message.nodeUnderConstruction.raise [NodeKind.callExpression.name]] := by
  intro body program program'
  have hunwraps : program.Unwraps program' :=
    .conditional [] [] (.alternate _ _ (.here [] (.inl (by simp [body]))))
  obtain ⟨hresult, hscopes, hfindings⟩ := blocks_transparent hunwraps {}
  refine ⟨hunwraps, rfl, ?_, ?_, ?_⟩
  · rw [hresult]
    rfl
  · rw [hscopes]
    rfl
  · rw [hfindings]
    rfl

end Exclaim
