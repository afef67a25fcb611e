import Exclaim.Diagnostic.Catalogue
import Exclaim.Tree.Kind

/-! Why an evaluation stops. -/
namespace Exclaim

inductive EvalError where
  /-- There is no rule for nodes of this kind. -/
  | unhandled (kind : NodeKind)
  | alreadyDeclared (name : String)
  | unresolved (name : String)
  /-- The rule for one kind of node was used on another. -/
  | mismatch (expected found : NodeKind)
deriving DecidableEq, Repr

namespace EvalError

def message : EvalError → String
  | unhandled kind =>
      s!"This AST node type ({kind.name}) has not yet been setup for interpretation."
  | alreadyDeclared name => s!"Cannot declare variable {name} as it's already defined."
  | unresolved name => s!"Cannot resolve {name} as it doesn't exist."
  | mismatch expected found =>
      s!"Evaluation function for {expected.name} was called with a {found.name}"

def toDiagnostic : EvalError → Diagnostic
  | unhandled kind | mismatch _ kind => Message.nodeNotSetUp.raise [kind.name]
  | alreadyDeclared name => Message.redeclaredName.raise [name]
  | unresolved name => Message.unknownName.raise [name]

end EvalError
end Exclaim
