import Mathlib.Data.List.Basic
import Exclaim.Tree.Basic

/-! The nodes of a tree, at every depth. -/
namespace Exclaim

inductive Node where
  | statement (s : Statement)
  | expression (e : Expression)

mutual

/-- An expression and all expressions in it. -/
def Expression.nodes : Expression → List Node
  | .assignment target value =>
      .expression (.assignment target value) :: (target.nodes ++ value.nodes)
  | .unary operator operand => .expression (.unary operator operand) :: operand.nodes
  | .state operator argument => .expression (.state operator argument) :: argument.nodes
  | .binary left operator right =>
      .expression (.binary left operator right) :: (left.nodes ++ right.nodes)
  | .number value => [.expression (.number value)]
  | .string value => [.expression (.string value)]
  | .symbol name => [.expression (.symbol name)]
  | .object properties => .expression (.object properties) :: Property.allNodes properties
  | .array elements => .expression (.array elements) :: Expression.allNodes elements
  | .member object property computed =>
      .expression (.member object property computed) :: (object.nodes ++ property.nodes)
  | .call callee arguments =>
      .expression (.call callee arguments) :: (callee.nodes ++ Expression.allNodes arguments)
  | .branching branches => .expression (.branching branches) :: Expression.allNodes branches

def Reference.nodes : Reference → List Node
  | .symbol name => [.expression (.symbol name)]
  | .member object property computed =>
      .expression (.member object property computed) :: (object.nodes ++ property.nodes)

def Property.nodes : Property → List Node
  | .mk key value _ _ => key.nodes ++ value.nodes

def Expression.allNodes : List Expression → List Node
  | [] => []
  | e :: es => e.nodes ++ Expression.allNodes es

def Property.allNodes : List Property → List Node
  | [] => []
  | p :: ps => p.nodes ++ Property.allNodes ps

end

mutual

/-- A statement and all statements and expressions in it. -/
def Statement.nodes : Statement → List Node
  | .expression e => .statement (.expression e) :: e.nodes
  | .block body => .statement (.block body) :: Statement.allNodes body
  | .variableDeclaration name modifiers value lifetime =>
      .statement (.variableDeclaration name modifiers value lifetime) ::
        value.toList.flatMap Expression.nodes
  | .functionDeclaration identifier parameters isAsync body =>
      .statement (.functionDeclaration identifier parameters isAsync body) :: body.nodes
  | .returning argument => .statement (.returning argument) :: argument.nodes
  | .conditional branch => .statement (.conditional branch) :: branch.nodes
  | .when test consequent =>
      .statement (.when test consequent) :: (test.nodes ++ Statement.allNodes consequent)
  | .classDeclaration => [.statement .classDeclaration]
  | .delete => [.statement .delete]
  | .reverse => [.statement .reverse]
  | .importing => [.statement .importing]
  | .exporting => [.statement .exporting]
  | .branching branches => .statement (.branching branches) :: Statement.branchNodes branches
  | .endOfFile => [.statement .endOfFile]
  | .endOfBlock => [.statement .endOfBlock]

def FunctionBody.nodes : FunctionBody → List Node
  | .block body => Statement.allNodes body
  | .expression e => e.nodes

def Conditional.nodes : Conditional → List Node
  | .mk test consequent alternate =>
      test.nodes ++ Statement.allNodes consequent ++ alternate.nodes

def Alternate.nodes : Alternate → List Node
  | .none => []
  | .conditional branch => branch.nodes
  | .block body => Statement.allNodes body

def Statement.allNodes : List Statement → List Node
  | [] => []
  | s :: ss => s.nodes ++ Statement.allNodes ss

def Statement.branchNodes : List (List Statement) → List Node
  | [] => []
  | b :: bs => Statement.allNodes b ++ Statement.branchNodes bs

end

/-- The nodes of a program. -/
def Block.nodes (program : Block) : List Node := Statement.allNodes program

lemma Reference.nodes_toExpression (r : Reference) : r.toExpression.nodes = r.nodes := by
  cases r <;> rfl

end Exclaim
