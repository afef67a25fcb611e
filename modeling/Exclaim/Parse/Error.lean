import Exclaim.Diagnostic.Catalogue
import Exclaim.Source.Scanner
import Exclaim.Tree.Json

/-! Why a source cannot be read as a tree. -/
namespace Exclaim

/-- Where only some expressions may stand. -/
inductive ShapeContext where
  /-- Behind a state operator. -/
  | stateArgument
  /-- On the left of an assignment. -/
  | assignmentTarget
  /-- Behind a dot. -/
  | dotProperty
deriving DecidableEq, Repr

/-- What is said of an expression that may not stand in a context. -/
def ShapeContext.complaint (context : ShapeContext) (found : NodeKind) : String :=
  match context with
  | .stateArgument => s!"Expected a variable expression but instead got {found.name}"
  | .assignmentTarget =>
      s!"Expected a variable expression to assign to but instead got {found.name}"
  | .dotProperty =>
      "When parsing memberExpression, expected SymbolExpression or NumberExpression but got " ++
        s!"{found.name} instead"

inductive ParseError where
  /-- No expression starts with this token, the one at `position`. -/
  | noOpening (token : Token) (position : Nat)
  | misshapen (context : ShapeContext) (found : Expression) (span : Span)
  | unexpectedKind (expected : List TokenKind) (found : Token)
  | unexpectedWord (expected : List String) (found : Token)
  | strayCloseBrace (token : Token)
  | invalidNumber (token : Token)

namespace ParseError

def message : ParseError → String
  | noOpening token position =>
      s!"Expected NUD handler for token {token.render} at token {position}"
  | misshapen context found _ =>
      context.complaint found.kind ++ "\n" ++ found.toJson.prettyText
  | unexpectedKind expected found =>
      s!"Expected {TokenKind.renderList expected} but received {found.kind.name} instead"
  | unexpectedWord expected found =>
      let words := ",".intercalate expected
      s!"Expected identifier in {words} but received {found.kind.name} " ++
        s!"with value '{found.value}' instead"
  | strayCloseBrace _ => "Unexpected '\x7d' outside of any block"
  | invalidNumber token => s!"Invalid numeric literal '{token.value}'"

/-- The place that an error points at. -/
def span : ParseError → Span
  | noOpening token _ | strayCloseBrace token | invalidNumber token => token.span
  | unexpectedKind _ found | unexpectedWord _ found => found.span
  | misshapen _ _ span => span

/-- The line that an error points at, where it is known. -/
def line? : ParseError → Option Nat
  | noOpening token _ | strayCloseBrace token | invalidNumber token => some token.line
  | unexpectedKind _ found | unexpectedWord _ found => some found.line
  | misshapen .. => none

def toDiagnostic (e : ParseError) : Diagnostic :=
  match e with
  | noOpening .. => Message.expressionExpected.raise [] (some e.span)
  | misshapen context found _ =>
      Message.invalidShape.raise [context.complaint found.kind] (some e.span)
  | unexpectedKind expected _ =>
      let spellings := expected.map fun kind => kind.spelling?.getD kind.name
      Message.tokenExpected.raise ["' or '".intercalate spellings] (some e.span)
  | unexpectedWord expected _ =>
      Message.wordExpected.raise [", ".intercalate expected] (some e.span)
  | strayCloseBrace _ => Message.statementExpected.raise [] (some e.span)
  | invalidNumber token => Message.invalidNumeral.raise [token.value] (some e.span)

end ParseError

/-- Why a source text cannot be read as a tree. -/
inductive SourceError where
  | scan (error : ScanError)
  | parse (error : ParseError)

namespace SourceError

def message : SourceError → String
  | scan e => e.message
  | parse e => e.message

def span : SourceError → Span
  | scan e => e.span
  | parse e => e.span

def line? : SourceError → Option Nat
  | scan e => some e.line
  | parse e => e.line?

def toDiagnostic : SourceError → Diagnostic
  | scan e => e.toDiagnostic
  | parse e => e.toDiagnostic

end SourceError
end Exclaim
