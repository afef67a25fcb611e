import Exclaim.Evaluation.Basic
import Exclaim.Proofs.Parse.Language

/-! Why the evaluation of a source fails. The parser builds no node that the evaluator has no rule
for, members apart, and every rule is used on the nodes that it is for. -/
namespace Exclaim

/-- The failures that a source can cause. -/
def EvalError.IsOrdinary (e : EvalError) : Prop :=
  e = .unhandled .memberExpression ∨ (∃ name, e = .alreadyDeclared name) ∨
    ∃ name, e = .unresolved name

namespace Eval

/-- Whatever the state is, the action fails in ordinary ways only. -/
def Safe {α : Type} (p : Eval α) : Prop :=
  Ends (fun _ => True) p (fun _ _ => True) fun e _ => e.IsOrdinary

section Rules
variable {α β : Type} {p : Eval α} {f : α → Eval β}

lemma Safe.bind (hp : Safe p) (hf : ∀ a, Safe (f a)) : Safe (p >>= f) := Ends.bind hp hf

lemma safe_pure (a : α) : Safe (pure a) := ends_pure fun _ _ => trivial

lemma safe_throw {e : EvalError} (h : e.IsOrdinary) : Safe (throw e : Eval α) :=
  ends_throw fun _ _ => h

lemma safe_get_bind {f : EvalState → Eval β} (h : ∀ s, Safe (f s)) : Safe (get >>= f) :=
  fun s _ => h s s trivial

lemma safe_set (s : EvalState) : Safe (set s) := fun _ _ => trivial

lemma safe_modify (g : EvalState → EvalState) : Safe (modify g) := fun _ _ => trivial

lemma safe_note (level : LogLevel) (message : String) : Safe (note level message) := safe_modify _

lemma safe_report (kind : NodeKind) : Safe (report kind) :=
  (safe_note _ _).bind fun _ => safe_modify _

end Rules

lemma safe_declare (name : String) (binding : Binding) : Safe (declare name binding) := by
  unfold declare
  refine safe_get_bind fun s => ?_
  cases s.scopes.declare? name binding with
  | none => exact safe_throw (.inr (.inl ⟨name, rfl⟩))
  | some scopes =>
    exact (safe_note _ _).bind fun _ => (safe_modify _).bind fun _ => safe_pure _

lemma safe_assign (name : String) (value : Value) : Safe (assign name value) := by
  unfold assign
  refine safe_get_bind fun s => ?_
  cases s.scopes.assign? name value with
  | none => exact safe_throw (.inr (.inr ⟨name, rfl⟩))
  | some scopes => exact (safe_set _).bind fun _ => safe_pure value

lemma safe_lookup (name : String) : Safe (lookup name) := by
  unfold lookup
  refine safe_get_bind fun s => ?_
  cases s.scopes.lookup? name with
  | none => exact safe_throw (.inr (.inr ⟨name, rfl⟩))
  | some value => exact safe_pure value

lemma safe_store (target : Reference) (value : Value) : Safe (store target value) := by
  cases target with
  | symbol name => exact safe_assign name value
  | member object property computed => exact (safe_report _).bind fun _ => safe_pure _

lemma safe_underConstruction (kind : NodeKind) : Safe (aside .underConstruction kind) :=
  (safe_report kind).bind fun _ => safe_pure _

lemma safe_ruleFor_bind {α : Type} {t : EvalTable} {kind : NodeKind} {rule : EvalRule}
    {f : EvalRule → Eval α} (h : t.rule? kind = some rule) (hf : Safe (f rule)) :
    Safe (ruleFor t kind >>= f) := by
  unfold ruleFor
  rw [h, bind_assoc]
  exact (safe_note _ _).bind fun _ => hf

lemma safe_ruleFor_member {α : Type} {f : EvalRule → Eval α} :
    Safe (ruleFor .stock .memberExpression >>= f) := fun _ _ => .inl rfl

end Eval

open Eval

/-- Members are the only expressions of the language without a rule. -/
lemma Expression.safe_eval : ∀ e : Expression, Regular e.nodes → Safe (e.eval .stock)
  | .assignment target value, h => by
      simp only [Expression.nodes, regular_cons, regular_append] at h
      rw [Expression.eval]
      refine safe_ruleFor_bind rfl ?_
      exact (value.safe_eval h.2.2).bind fun v => safe_store target v
  | .unary operator operand, h => by
      simp only [Expression.nodes, regular_cons] at h
      rw [Expression.eval]
      refine safe_ruleFor_bind rfl ?_
      exact (operand.safe_eval h.2).bind fun v => safe_pure _
  | .binary left operator right, h => by
      simp only [Expression.nodes, regular_cons, regular_append] at h
      rw [Expression.eval]
      refine safe_ruleFor_bind rfl ?_
      exact (left.safe_eval h.2.1).bind fun a => (right.safe_eval h.2.2).bind fun b => safe_pure _
  | .number value, _ => by
      rw [Expression.eval]
      exact safe_ruleFor_bind rfl (safe_pure _)
  | .string value, _ => by
      rw [Expression.eval]
      exact safe_ruleFor_bind rfl (safe_pure _)
  | .symbol name, _ => by
      rw [Expression.eval]
      exact safe_ruleFor_bind rfl (safe_lookup name)
  | .state .., _ | .call .., _ => by
      simp only [Expression.eval]
      exact safe_ruleFor_bind rfl (safe_underConstruction _)
  | .member .., _ => by
      simp only [Expression.eval]
      exact safe_ruleFor_member
  | .object _, h | .array _, h | .branching _, h => by
      simp [Expression.nodes, Expression.InLanguage] at h

mutual

lemma Statement.safe_eval : ∀ s : Statement, Regular s.nodes → Safe (s.eval .stock)
  | .expression e, h => by
      simp only [Statement.nodes, regular_cons] at h
      rw [Statement.eval]
      exact safe_ruleFor_bind rfl (e.safe_eval h.2)
  | .block body, h => by
      simp only [Statement.nodes, regular_cons] at h
      rw [Statement.eval]
      exact safe_ruleFor_bind rfl (Statement.safe_evalAll body h.2 _)
  | .variableDeclaration name modifiers value lifetime, h => by
      simp only [Statement.nodes, regular_cons] at h
      rw [Statement.eval]
      refine safe_ruleFor_bind rfl ?_
      cases value with
      | none => exact (safe_pure _).bind fun v => safe_declare _ _
      | some e =>
        have he : Regular e.nodes := by simpa using h.2
        exact (e.safe_eval he).bind fun v => safe_declare _ _
  | .conditional branch, h => by
      simp only [Statement.nodes, regular_cons] at h
      rw [Statement.eval]
      exact safe_ruleFor_bind rfl (branch.safe_eval h.2)
  | .functionDeclaration .., _ | .returning _, _ | .when .., _ => by
      simp only [Statement.eval]
      exact safe_ruleFor_bind rfl (safe_underConstruction _)
  | .classDeclaration, h | .delete, h | .reverse, h | .importing, h | .exporting, h
  | .branching _, h | .endOfFile, h | .endOfBlock, h => by
      simp [Statement.nodes, Statement.InLanguage] at h

lemma Statement.safe_evalAll : ∀ ss : List Statement, Regular (Statement.allNodes ss) →
    ∀ last, Safe (Statement.evalAll .stock last ss)
  | [], _, last => by
      rw [Statement.evalAll]
      exact safe_pure last
  | s :: ss, h, last => by
      rw [Statement.allNodes, regular_append] at h
      rw [Statement.evalAll]
      exact (s.safe_eval h.1).bind fun v => Statement.safe_evalAll ss h.2 v

lemma Conditional.safe_eval : ∀ c : Conditional, Regular c.nodes → Safe (c.eval .stock)
  | .mk test consequent alternate, h => by
      rw [Conditional.nodes, regular_append, regular_append] at h
      rw [Conditional.eval]
      refine (test.safe_eval h.1.1).bind fun v => ?_
      split
      · exact Statement.safe_evalAll consequent h.1.2 _
      · exact alternate.safe_eval h.2

lemma Alternate.safe_eval : ∀ a : Alternate, Regular a.nodes → Safe (a.eval .stock)
  | .none, _ => by
      rw [Alternate.eval]
      exact safe_pure _
  | .conditional branch, h => by
      rw [Alternate.eval]
      exact branch.safe_eval h
  | .block body, h => by
      rw [Alternate.eval]
      exact Statement.safe_evalAll body h _

end

lemma safe_evalProgram {program : Block} (h : Regular program.nodes) :
    Safe (evalProgram .stock program) := by
  unfold evalProgram evalBlock
  refine (Statement.safe_evalAll program h .null).bind fun v => ?_
  exact (safe_note _ _).bind fun _ => safe_pure v

/-- No source has a number that cannot be read. The evaluation of a program that a source spells
never uses a rule on a node that it is not for, in whatever scopes, and members are the only nodes
that it lacks a rule for. All other failures are names declared twice or unknown. -/
theorem source_failures (source : String) :
    (∀ t, parseSource source ≠ .error (.parse (.invalidNumber t))) ∧
    ∀ program, parseSource source = .ok program →
      ∀ s e, ((evalProgram .stock program).run s).1 = .error e →
        e = .unhandled .memberExpression ∨ (∃ name, e = .alreadyDeclared name) ∨
          ∃ name, e = .unresolved name := by
  obtain ⟨e, he⟩ | ⟨found, hfound, hregular⟩ | ⟨e, he, hnumber⟩ := Parse.parseSource_cases source
  · simp [he]
  · rw [hfound]
    refine ⟨by simp, fun program hprogram s e he => ?_⟩
    obtain rfl := Except.ok.inj hprogram
    exact (safe_evalProgram hregular).of_error trivial he
  · rw [he]
    refine ⟨fun t ht => ?_, by simp⟩
    exact hnumber t (SourceError.parse.inj (Except.error.inj ht))

/-- A member has no value yet. -/
theorem source_failures_member :
    ∃ program e, parseSource "'a'.y!" = .ok program ∧
      ((evalProgram .stock program).run {}).1 = .error e ∧
      (e = .unhandled .memberExpression ∨ (∃ name, e = .alreadyDeclared name) ∨
        ∃ name, e = .unresolved name) := by
  have hfails : ((parseSource "'a'.y!").toOption.map fun program =>
      ((evalProgram .stock program).run {}).1.toOption.isNone) = some true := by decide +kernel
  cases hparse : parseSource "'a'.y!" with
  | error e => simp [hparse, Except.toOption] at hfails
  | ok program =>
    cases heval : ((evalProgram .stock program).run {}).1 with
    | ok value => simp [hparse, heval, Except.toOption] at hfails
    | error e => exact ⟨program, e, rfl, heval, (source_failures _).2 program hparse {} e heval⟩

end Exclaim
