import Exclaim.Json.Basic
import Exclaim.Tree.Basic

/-! Trees as JSON. Positions are left out, and so are optional parts that are absent. -/
namespace Exclaim

def Token.toJson (t : Token) : Json :=
  .record ([("value", .text t.value), ("type", .text t.kind.name)] ++
    Json.optionalField "operation" (t.operation.map fun kind => .text kind.name))

def Modifiers.toJson (m : Modifiers) : Json :=
  .list [.boolean m.canReassign, .boolean m.canMutate]

def LifetimeUnit.name : LifetimeUnit → String
  | .seconds => "s"
  | .lines => "lines"

def Lifetime.toJson (l : Lifetime) : Json :=
  .record [("duration", .number l.duration), ("unit", .text l.unit.name)]

def Parameter.toJson (p : Parameter) : Json :=
  .record (("identifier", p.identifier.toJson) ::
    Json.optionalField "lifetime" (p.lifetime.map Lifetime.toJson))

/-- A node: the name of its kind before its own fields. -/
def NodeKind.tagged (kind : NodeKind) (fields : List (String × Json)) : Json :=
  .record (("kindName", .text kind.name) :: fields)

mutual

def Expression.toJson : Expression → Json
  | .assignment target value =>
      NodeKind.assignmentExpression.tagged
        [("assignee", target.toJson), ("assignedValue", value.toJson)]
  | .unary operator operand =>
      NodeKind.prefixExpression.tagged [("prefix", operator.toJson), ("right", operand.toJson)]
  | .state operator argument =>
      NodeKind.stateExpression.tagged
        [("operator", operator.toJson), ("argument", argument.toJson)]
  | .binary left operator right =>
      NodeKind.binaryExpression.tagged
        [("left", left.toJson), ("operator", operator.toJson), ("right", right.toJson)]
  | .number value => NodeKind.numberExpression.tagged [("value", .number value)]
  | .string value => NodeKind.stringExpression.tagged [("value", .text value)]
  | .symbol name => NodeKind.symbolExpression.tagged [("symbol", .text name)]
  | .object properties =>
      NodeKind.objectDeclarationExpression.tagged
        [("properties", .list (Property.listToJson properties))]
  | .array elements =>
      NodeKind.arrayDeclarationExpression.tagged
        [("elements", .list (Expression.listToJson elements))]
  | .member object property computed =>
      NodeKind.memberExpression.tagged
        [("object", object.toJson), ("property", property.toJson),
          ("computed", .boolean computed)]
  | .call callee arguments =>
      NodeKind.callExpression.tagged
        [("callee", callee.toJson), ("arguments", .list (Expression.listToJson arguments))]
  | .branching branches =>
      NodeKind.branchingExpression.tagged
        [("branches", .list (Expression.listToJson branches))]

def Reference.toJson : Reference → Json
  | .symbol name => NodeKind.symbolExpression.tagged [("symbol", .text name)]
  | .member object property computed =>
      NodeKind.memberExpression.tagged
        [("object", object.toJson), ("property", property.toJson),
          ("computed", .boolean computed)]

def Property.toJson : Property → Json
  | .mk key value shorthand computed =>
      .record [("key", key.toJson), ("value", value.toJson), ("shorthand", .boolean shorthand),
        ("computed", .boolean computed)]

def Expression.listToJson : List Expression → List Json
  | [] => []
  | e :: es => e.toJson :: Expression.listToJson es

def Property.listToJson : List Property → List Json
  | [] => []
  | p :: ps => p.toJson :: Property.listToJson ps

end

mutual

def Statement.toJson : Statement → Json
  | .expression e => NodeKind.expressionStatement.tagged [("expression", e.toJson)]
  | .block body => NodeKind.blockStatement.tagged [("body", .list (Statement.listToJson body))]
  | .variableDeclaration name modifiers value lifetime =>
      NodeKind.variableDeclarationStatement.tagged
        ([("identifier", .text name), ("modifiers", modifiers.toJson)] ++
          Json.optionalField "value" (value.map Expression.toJson) ++
          Json.optionalField "lifetime" (lifetime.map Lifetime.toJson))
  | .functionDeclaration identifier parameters isAsync body =>
      NodeKind.functionDeclarationStatement.tagged
        [("identifier", identifier.toJson), ("parameters", .list (parameters.map Parameter.toJson)),
          ("isAsync", .boolean isAsync), ("body", body.toJson)]
  | .returning argument => NodeKind.returnStatement.tagged [("argument", argument.toJson)]
  | .conditional branch => NodeKind.ifStatement.tagged branch.fields
  | .when test consequent =>
      NodeKind.whenStatement.tagged
        [("test", test.toJson),
          ("consequent", .record [("body", .list (Statement.listToJson consequent))])]
  | .classDeclaration => NodeKind.classDeclarationStatement.tagged []
  | .delete => NodeKind.deleteStatement.tagged []
  | .reverse => NodeKind.reverseStatement.tagged []
  | .importing => NodeKind.importStatement.tagged []
  | .exporting => NodeKind.exportStatement.tagged []
  | .branching branches =>
      NodeKind.branchingStatement.tagged [("branches", .list (Statement.branchesToJson branches))]
  | .endOfFile => NodeKind.eofStatement.tagged []
  | .endOfBlock => NodeKind.endOfBlockStatement.tagged []

def FunctionBody.toJson : FunctionBody → Json
  | .block body => NodeKind.blockStatement.tagged [("body", .list (Statement.listToJson body))]
  | .expression e => NodeKind.expressionStatement.tagged [("expression", e.toJson)]

def Conditional.fields : Conditional → List (String × Json)
  | .mk test consequent alternate =>
      [("test", test.toJson),
        ("consequent", .record [("body", .list (Statement.listToJson consequent))])] ++
        Json.optionalField "alternate" alternate.toJson?

def Alternate.toJson? : Alternate → Option Json
  | .none => none
  | .conditional branch => some (NodeKind.ifStatement.tagged branch.fields)
  | .block body =>
      some (NodeKind.blockStatement.tagged [("body", .list (Statement.listToJson body))])

def Statement.listToJson : List Statement → List Json
  | [] => []
  | s :: ss => s.toJson :: Statement.listToJson ss

def Statement.branchesToJson : List (List Statement) → List Json
  | [] => []
  | b :: bs => .list (Statement.listToJson b) :: Statement.branchesToJson bs

end

/-- A block that stands alone has no kind name. -/
def Block.toJson (body : Block) : Json := .record [("body", .list (Statement.listToJson body))]

/-- An expression statement that stands alone has no kind name. -/
def Expression.statementJson (e : Expression) : Json := .record [("expression", e.toJson)]

end Exclaim
