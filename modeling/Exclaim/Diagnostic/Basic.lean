import Exclaim.Text.Span
import Exclaim.Text.Template

/-! Findings about a source. -/
namespace Exclaim

inductive Category where
  | warning
  | error
  | suggestion
  | message
deriving DecidableEq, Repr

def Category.all : List Category := [.warning, .error, .suggestion, .message]

def Category.name : Category → String
  | .warning => "warning"
  | .error => "error"
  | .suggestion => "suggestion"
  | .message => "message"

/-- A kind of finding: its number, its category and a text with placeholders. -/
structure Message where
  code : Nat
  category : Category
  template : String
deriving DecidableEq, Repr

structure Diagnostic where
  file : Option String := none
  span : Option Span := none
  text : String
  code : Nat
  category : Category
deriving DecidableEq, Repr

namespace Message

/-- A finding of this kind. -/
def raise (m : Message) (args : List String) (span : Option Span := none) : Diagnostic :=
  { span, text := Template.fill m.template args, code := m.code, category := m.category }

end Message

namespace Diagnostic

def inFile (d : Diagnostic) (file : String) : Diagnostic := { d with file := some file }

/-- Category, number and text. -/
def headline (d : Diagnostic) : String := s!"{d.category.name} BD{d.code}: {d.text}"

/-- The headline behind the file and the byte offset, as far as they are known. -/
def render (d : Diagnostic) : String :=
  match d.file, d.span with
  | none, _ => d.headline
  | some file, none => s!"{file}: {d.headline}"
  | some file, some span => s!"{file}({span.start}): {d.headline}"

def count (category : Category) (ds : List Diagnostic) : Nat :=
  ds.countP (·.category == category)

end Diagnostic
end Exclaim
