import Exclaim.Evaluation.Basic
import Exclaim.Options
import Exclaim.Parse.Statement

/-! Running a program from its source to its value. The first failure ends the run. -/
namespace Exclaim

inductive RunError where
  | read (path reason : String)
  | write (path reason : String)
  | scan (error : ScanError)
  | parse (error : ParseError)
  | eval (error : EvalError)

namespace RunError

def message : RunError → String
  | read path reason => s!"cannot read {path}: {reason}"
  | write path reason => s!"cannot write {path}: {reason}"
  | scan e => e.message
  | parse e => e.message
  | eval e => e.message

/-- The place in the source that a failure points at. -/
def span? : RunError → Option Span
  | scan e => some e.span
  | parse e => some e.span
  | _ => none

/-- Whether the failure lies in the files and not in the program. -/
def isStorage : RunError → Bool
  | read .. | write .. => true
  | _ => false

def diagnostic? : RunError → Option Diagnostic
  | scan e => some e.toDiagnostic
  | parse e => some e.toDiagnostic
  | eval e => some e.toDiagnostic
  | _ => none

end RunError

/-- A source, from a file or from memory. -/
structure Program where
  path : Option String := none
  source : String

/-- What a run produced. -/
structure Outcome where
  tokens : Option (List Token) := none
  /-- The written tree. -/
  tree : Option String := none
  value : Option Value := none
  diagnostics : List Diagnostic := []

namespace Program

/-- The name that findings are reported under. -/
def name (p : Program) : String := p.path.getD "<source>"

/-- Findings, with the file they were made in. -/
def located (p : Program) (ds : List Diagnostic) : List Diagnostic :=
  match p.path with
  | some path => ds.map (·.inFile path)
  | none => ds

def note (level : LogLevel) (message : String) : Record := { level, target := "driver", message }

/-- The tokens of a program with the warnings about them, and what was noted. -/
def tokenize (p : Program) : Except RunError (List Token × List Diagnostic) × List Record :=
  match (Scanner.ofString p.source).tokenize with
  | (.error e, s) => (.error (.scan e), s.log)
  | (.ok tokens, s) => (.ok (tokens, p.located s.warnings), s.log)

/-- The tree of tokens, and what was noted. -/
def parseTokens (tokens : List Token) : Except RunError Block × List Record :=
  match (parseProgram .stock).run (ParseState.ofTokens tokens) with
  | (.error e, s) => (.error (.parse e), s.log.toList)
  | (.ok tree, s) => (.ok tree, s.log.toList)

/-- The value of a tree with the findings about it, and what was noted. -/
def evaluate (p : Program) (tree : Block) :
    Except RunError (Value × List Diagnostic) × List Record :=
  match (evalProgram .stock tree).run {} with
  | (.error e, s) => (.error (.eval e), s.log.toList)
  | (.ok value, s) => (.ok (value, p.located s.diagnostics), s.log.toList)

/-- A run in progress: it notes things and may fail. -/
abbrev Run (m : Type → Type) := ExceptT RunError (StateT (List Record) m)

/-- One stage of a run. -/
def stage {m : Type → Type} [Monad m] {α : Type} (result : Except RunError α × List Record) :
    Run m α := do
  modify (· ++ result.2)
  match result.1 with
  | .ok a => return a
  | .error e => throw e

/-- Runs the stages that the options ask for. Files are written by `write`, which gives a reason
when it fails. -/
def run {m : Type → Type} [Monad m] (write : String → String → m (Except String Unit))
    (p : Program) (o : Options) : Run m Outcome := do
  let (tokens, warnings) ← stage p.tokenize
  modify (· ++ [note .debug s!"{tokens.length} tokens"])
  let tree ← stage (parseTokens tokens)
  let text := if o.printAst || o.astOutput.isSome then some (Block.toJson tree).prettyText else none
  if let (some path, some text) := (o.astOutput, text) then
    match ← write path text with
    | .error reason => throw (.write path reason)
    | .ok () => modify (· ++ [note .info s!"wrote AST to {path}"])
  let outcome : Outcome :=
    { tokens := if o.printTokens then some tokens else none, tree := text, diagnostics := warnings }
  if !o.evaluate then return outcome
  let (value, findings) ← stage (p.evaluate tree)
  return { outcome with value := some value, diagnostics := warnings ++ findings }

/-- The outcome of a run that writes no files, and what was noted. -/
def runPure (p : Program) (o : Options) : Except RunError Outcome × List Record :=
  Id.run <| (p.run (fun _ _ => pure (.ok ())) { o with astOutput := none }).run.run []

end Program
end Exclaim
