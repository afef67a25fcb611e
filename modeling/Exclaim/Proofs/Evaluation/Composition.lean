import Mathlib.Tactic.Lemma
import Exclaim.Evaluation.Basic

/-! Evaluations are composed of a few steps. What holds of the steps and of one action behind
another holds of every evaluation, whatever the rules are. -/
namespace Exclaim

namespace Eval

/-- An action that is composed of the steps of the evaluation. -/
inductive Composed : {α : Type} → Eval α → Prop
  | pure {α : Type} (a : α) : Composed (pure a)
  | throw {α : Type} (e : EvalError) : Composed (throw e : Eval α)
  | bind {α β : Type} {p : Eval α} {f : α → Eval β} (hp : Composed p)
      (hf : ∀ a, Composed (f a)) : Composed (p >>= f)
  | note (level : LogLevel) (message : String) : Composed (note level message)
  | report (kind : NodeKind) : Composed (report kind)
  | declare (name : String) (binding : Binding) : Composed (declare name binding)
  | assign (name : String) (value : Value) : Composed (assign name value)
  | lookup (name : String) : Composed (lookup name)

lemma composed_ruleFor (t : EvalTable) (kind : NodeKind) : Composed (ruleFor t kind) := by
  unfold ruleFor
  cases t.rule? kind with
  | none => exact .throw _
  | some rule => exact (Composed.note _ _).bind fun _ => .pure rule

lemma composed_aside (rule : EvalRule) (found : NodeKind) : Composed (aside rule found) := by
  cases rule with
  | underConstruction => exact (Composed.report found).bind fun _ => .pure _
  | constant value => exact .pure value
  | _ => exact .throw _

lemma composed_store (target : Reference) (value : Value) : Composed (store target value) := by
  cases target with
  | symbol name => exact .assign name value
  | member object property computed => exact (Composed.report _).bind fun _ => .pure _

end Eval

open Eval

lemma Expression.composed_eval (t : EvalTable) : ∀ e : Expression, Composed (e.eval t)
  | .assignment target value => by
      rw [Expression.eval]
      refine (composed_ruleFor t _).bind fun rule => ?_
      split
      · exact (value.composed_eval t).bind fun v => composed_store target v
      · exact composed_aside _ _
  | .unary operator operand => by
      rw [Expression.eval]
      refine (composed_ruleFor t _).bind fun rule => ?_
      split
      · exact (operand.composed_eval t).bind fun v => .pure _
      · exact composed_aside _ _
  | .binary left operator right => by
      rw [Expression.eval]
      refine (composed_ruleFor t _).bind fun rule => ?_
      split
      · exact (left.composed_eval t).bind fun a => (right.composed_eval t).bind fun b => .pure _
      · exact composed_aside _ _
  | .number value | .string value => by
      rw [Expression.eval]
      refine (composed_ruleFor t _).bind fun rule => ?_
      split
      · exact .pure _
      · exact composed_aside _ _
  | .symbol name => by
      rw [Expression.eval]
      refine (composed_ruleFor t _).bind fun rule => ?_
      split
      · exact .lookup name
      · exact composed_aside _ _
  | .state .. | .object _ | .array _ | .member .. | .call .. | .branching _ => by
      simp only [Expression.eval]
      exact (composed_ruleFor t _).bind fun rule => composed_aside rule _

mutual

lemma Statement.composed_eval (t : EvalTable) : ∀ s : Statement, Composed (s.eval t)
  | .expression e => by
      rw [Statement.eval]
      refine (composed_ruleFor t _).bind fun rule => ?_
      split
      · exact e.composed_eval t
      · exact composed_aside _ _
  | .block body => by
      rw [Statement.eval]
      refine (composed_ruleFor t _).bind fun rule => ?_
      split
      · exact Statement.composed_evalAll t body .null
      · exact composed_aside _ _
  | .variableDeclaration name modifiers value lifetime => by
      rw [Statement.eval]
      refine (composed_ruleFor t _).bind fun rule => ?_
      split
      · cases value with
        | none => exact (Composed.pure _).bind fun v => .declare _ _
        | some e => exact (e.composed_eval t).bind fun v => .declare _ _
      · exact composed_aside _ _
  | .conditional branch => by
      rw [Statement.eval]
      refine (composed_ruleFor t _).bind fun rule => ?_
      split
      · exact branch.composed_eval t
      · exact composed_aside _ _
  | .functionDeclaration .. | .returning _ | .when .. | .classDeclaration | .delete | .reverse
  | .importing | .exporting | .branching _ | .endOfFile | .endOfBlock => by
      simp only [Statement.eval]
      exact (composed_ruleFor t _).bind fun rule => composed_aside rule _

lemma Statement.composed_evalAll (t : EvalTable) :
    ∀ (ss : List Statement) (last : Value), Composed (Statement.evalAll t last ss)
  | [], last => by
      rw [Statement.evalAll]
      exact .pure last
  | s :: ss, last => by
      rw [Statement.evalAll]
      exact (s.composed_eval t).bind fun v => Statement.composed_evalAll t ss v

lemma Conditional.composed_eval (t : EvalTable) : ∀ c : Conditional, Composed (c.eval t)
  | .mk test consequent alternate => by
      rw [Conditional.eval]
      refine (test.composed_eval t).bind fun v => ?_
      split
      · exact Statement.composed_evalAll t consequent .null
      · exact alternate.composed_eval t

lemma Alternate.composed_eval (t : EvalTable) : ∀ a : Alternate, Composed (a.eval t)
  | .none => by
      rw [Alternate.eval]
      exact .pure _
  | .conditional branch => by
      rw [Alternate.eval]
      exact branch.composed_eval t
  | .block body => by
      rw [Alternate.eval]
      exact Statement.composed_evalAll t body .null

end

lemma composed_evalProgram (t : EvalTable) (program : Block) :
    Composed (evalProgram t program) := by
  unfold evalProgram evalBlock
  refine (Statement.composed_evalAll t program .null).bind fun v => ?_
  exact (Composed.note _ _).bind fun _ => .pure v

end Exclaim
