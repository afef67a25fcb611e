import Exclaim.CommandLine.Arguments
import Exclaim.CommandLine.Disk
import Exclaim.Diagnostic.Report
import Exclaim.Program

/-! The command line: it runs one script and shows what comes of it. -/
namespace Exclaim.CommandLine

/-- How a command ends, with what it shows on its two streams. -/
inductive Finish where
  | done (output errors : String)
  /-- A file or the options in it cannot be used. -/
  | unusable (errors : String)
  /-- The arguments make no sense. -/
  | usage (error : UsageError)
  /-- The program fails. -/
  | fatal (report : Report.Fatal)

def Finish.exitCode : Finish → Nat
  | done .. => 0
  | unusable _ | usage _ => 2
  | fatal _ => 1

def versionText : String := "berd 0.1.0\n"

def helpText : String :=
  "Tokenize, parse and evaluate a berd script\n\n" ++
  "Usage: berd [OPTIONS] <FILE>\n\n" ++
  "Arguments:\n" ++
  "  <FILE>  The script to run\n\n" ++
  "Options:\n" ++
  "  -c, --config <CONFIG>    Path to berd.json (default: ./berd.json when present)\n" ++
  "      --ast                Print the AST as JSON\n" ++
  "      --ast-out <PATH>     Write the AST JSON to this file\n" ++
  "      --tokens             Print the token sequence\n" ++
  "      --no-eval            Parse only; do not evaluate\n" ++
  "      --log-level <LEVEL>  off, error, warn, info, debug or trace\n" ++
  "  -h, --help               Print help\n" ++
  "  -V, --version            Print version\n"

/-- The options in a file. -/
def optionsIn {m : Type → Type} [Monad m] (storage : Storage m) (path : String) :
    m (Except String Options) := do
  match ← storage.read path with
  | .error reason => return .error (RunError.read path reason).message
  | .ok text => match Options.read? text with
    | some options => return .ok options
    | none => return .error s!"invalid config {path}"

/-- The options in the file that is named, or in the one that is there by default, if any. -/
def loadOptions {m : Type → Type} [Monad m] (storage : Storage m) (config : Option String) :
    m (Except String Options) := do
  match config with
  | some path => optionsIn storage path
  | none =>
      let path := "./" ++ Options.fileName
      if ← storage.isFile path then optionsIn storage path else return .ok {}

/-- The options with what the arguments change in them. -/
def override (o : Options) (a : Arguments) : Options where
  printAst := o.printAst || a.ast
  astOutput := a.astOut.or o.astOutput
  evaluate := o.evaluate && !a.noEval
  printTokens := o.printTokens || a.tokens
  logLevel := a.logLevel.getD o.logLevel

/-- What a successful run shows: tokens, tree and value, and its findings apart. -/
def present (p : Program) (o : Options) (outcome : Outcome) (color : Bool) : Finish :=
  let tokens := (outcome.tokens.getD []).map fun t => t.render ++ "\n"
  let tree := if o.printAst then (outcome.tree.map (· ++ "\n")).getD "" else ""
  let value := (outcome.value.map (·.render ++ "\n")).getD ""
  let lines := LineMap.ofString p.source
  let errors := outcome.diagnostics.map fun d => Report.diagnosticLine d lines color
  .done (String.join tokens ++ tree ++ value) (String.join errors)

/-- What a failed run shows. -/
def presentError (p : Program) (e : RunError) (color : Bool) : Finish :=
  if e.isStorage then .unusable (Report.errorLine e.message color)
  else .fatal (Report.fatal p.source e.message (e.diagnostic?.map (·.code)) e.span?)

/-- Runs a script, and gives what was noted of the run at the level asked for. -/
def runScript {m : Type → Type} [Monad m] (storage : Storage m) (a : Arguments) (file : String)
    (color : Bool) : m (Finish × List Record) := do
  match ← loadOptions storage a.config with
  | .error text => return (.unusable (Report.errorLine text color), [])
  | .ok options =>
      let options := override options a
      match ← storage.read file with
      | .error reason => return (presentError { source := "" } (.read file reason) color, [])
      | .ok source =>
          let p : Program := { path := some file, source }
          let opened := Program.note .debug s!"read {file} ({source.utf8ByteSize} bytes)"
          let (result, log) ← (p.run storage.write options).run.run [opened]
          let shown := Record.select options.logLevel log
          match result with
          | .ok outcome => return (present p options outcome color, shown)
          | .error e => return (presentError p e color, shown)

/-- Runs the command line. -/
def run {m : Type → Type} [Monad m] (storage : Storage m) (arguments : List String)
    (color : Bool) : m (Finish × List Record) :=
  match read arguments with
  | .error e => return (.usage e, [])
  | .ok .version => return (.done versionText "", [])
  | .ok .help => return (.done helpText "", [])
  | .ok (.run a file) => runScript storage a file color

end Exclaim.CommandLine
