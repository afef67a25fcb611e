/-! The kinds of tree nodes. -/
namespace Exclaim

inductive NodeKind where
  | expressionStatement
  | blockStatement
  | variableDeclarationStatement
  | functionDeclarationStatement
  | returnStatement
  | ifStatement
  | whenStatement
  | classDeclarationStatement
  | deleteStatement
  | reverseStatement
  | importStatement
  | exportStatement
  | assignmentExpression
  | prefixExpression
  | stateExpression
  | binaryExpression
  | numberExpression
  | stringExpression
  | symbolExpression
  | objectDeclarationExpression
  | arrayDeclarationExpression
  | memberExpression
  | callExpression
  | eofStatement
  | endOfBlockStatement
  | branchingStatement
  | branchingExpression
deriving DecidableEq, Repr

namespace NodeKind

def all : List NodeKind := [
  expressionStatement, blockStatement, variableDeclarationStatement,
  functionDeclarationStatement, returnStatement, ifStatement, whenStatement,
  classDeclarationStatement, deleteStatement, reverseStatement, importStatement,
  exportStatement, assignmentExpression, prefixExpression, stateExpression, binaryExpression,
  numberExpression, stringExpression, symbolExpression, objectDeclarationExpression,
  arrayDeclarationExpression, memberExpression, callExpression, eofStatement,
  endOfBlockStatement, branchingStatement, branchingExpression]

def name : NodeKind → String
  | expressionStatement => "ExpressionStatement"
  | blockStatement => "BlockStatement"
  | variableDeclarationStatement => "VariableDeclarationStatement"
  | functionDeclarationStatement => "FunctionDeclarationStatement"
  | returnStatement => "ReturnStatement"
  | ifStatement => "IfStatement"
  | whenStatement => "WhenStatement"
  | classDeclarationStatement => "ClassDeclarationStatement"
  | deleteStatement => "DeleteStatement"
  | reverseStatement => "ReverseStatement"
  | importStatement => "ImportStatement"
  | exportStatement => "ExportStatement"
  | assignmentExpression => "AssignmentExpression"
  | prefixExpression => "PrefixExpression"
  | stateExpression => "StateExpression"
  | binaryExpression => "BinaryExpression"
  | numberExpression => "NumberExpression"
  | stringExpression => "StringExpression"
  | symbolExpression => "SymbolExpression"
  | objectDeclarationExpression => "ObjectDeclarationExpression"
  | arrayDeclarationExpression => "ArrayDeclarationExpression"
  | memberExpression => "MemberExpression"
  | callExpression => "CallExpression"
  | eofStatement => "EOFStatement"
  | endOfBlockStatement => "EndOfBlockStatement"
  | branchingStatement => "BranchingStatement"
  | branchingExpression => "BranchingExpression"

def ofName? (name : String) : Option NodeKind := all.find? (·.name == name)

/-- The number of a kind, counted from one. -/
def tag (kind : NodeKind) : Nat := all.idxOf kind + 1

theorem mem_all (kind : NodeKind) : kind ∈ all := by
  cases kind <;> decide

end NodeKind
end Exclaim
