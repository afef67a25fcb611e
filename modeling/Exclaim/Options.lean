import Exclaim.Json.Basic
import Exclaim.Json.Reader
import Exclaim.Log

/-! What a run is asked to do. -/
namespace Exclaim

structure Options where
  /-- Show the tree. -/
  printAst : Bool := false
  /-- Write the tree to a file. -/
  astOutput : Option String := none
  /-- Evaluate the program. -/
  evaluate : Bool := true
  /-- Show the tokens. -/
  printTokens : Bool := false
  logLevel : LogLevel := .warn
deriving DecidableEq, Repr

namespace Options

/-- The name of the file that options are looked for in. -/
def fileName : String := "berd.json"

def boolean? : Json.Raw → Option Bool
  | .boolean value => some value
  | _ => none

/-- A path or null. -/
def path? : Json.Raw → Option (Option String)
  | .null => some none
  | .text (some path) => some (some path)
  | _ => none

/-- A level by its exact name, which may also be the only field of a record, with null for a
value. -/
def logLevel? : Json.Raw → Option LogLevel
  | .text (some name) => LogLevel.ofName? name
  | .record [(some name, .null)] => LogLevel.ofName? name
  | _ => none

/-- The value of a field that may be missing but not given twice. -/
def field? {α : Type} (fields : List (Option String × Json.Raw)) (name : String)
    (decode : Json.Raw → Option α) (default : α) : Option α :=
  match fields.filter (·.1 == some name) with
  | [] => some default
  | [field] => decode field.2
  | _ => none

/-- The value at a position that may be missing. -/
def item? {α : Type} (items : List Json.Raw) (index : Nat) (decode : Json.Raw → Option α)
    (default : α) : Option α :=
  match items[index]? with
  | none => some default
  | some item => decode item

/-- Options from a record, whose unknown fields are ignored, or from a list of at most all fields
in order. -/
def ofRaw? : Json.Raw → Option Options
  | .record fields => do
      let printAst ← field? fields "printAst" boolean? false
      let astOutput ← field? fields "astOutput" path? none
      let evaluate ← field? fields "evaluate" boolean? true
      let printTokens ← field? fields "printTokens" boolean? false
      let logLevel ← field? fields "logLevel" logLevel? .warn
      if fields.all (·.1.isSome) then
        some { printAst, astOutput, evaluate, printTokens, logLevel }
      else none
  | .list items => do
      let printAst ← item? items 0 boolean? false
      let astOutput ← item? items 1 path? none
      let evaluate ← item? items 2 boolean? true
      let printTokens ← item? items 3 boolean? false
      let logLevel ← item? items 4 logLevel? .warn
      if items.length ≤ 5 then
        some { printAst, astOutput, evaluate, printTokens, logLevel }
      else none
  | _ => none

/-- The options that a JSON text spells. -/
def read? (text : String) : Option Options := (Json.Raw.read? text).bind ofRaw?

def toJson (o : Options) : Json :=
  .record [("printAst", .boolean o.printAst),
    ("astOutput", (o.astOutput.map Json.text).getD .null), ("evaluate", .boolean o.evaluate),
    ("printTokens", .boolean o.printTokens), ("logLevel", .text o.logLevel.name)]

end Options
end Exclaim
