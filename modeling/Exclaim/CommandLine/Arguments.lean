import Exclaim.Log

/-! The arguments of the command line. -/
namespace Exclaim.CommandLine

/-- The arguments as they are given so far. -/
structure Arguments where
  file : Option String := none
  config : Option String := none
  ast : Bool := false
  astOut : Option String := none
  tokens : Bool := false
  noEval : Bool := false
  logLevel : Option LogLevel := none
deriving DecidableEq, Repr

/-- What the arguments ask for. -/
inductive Request where
  | run (arguments : Arguments) (file : String)
  | version
  | help
deriving DecidableEq, Repr

inductive UsageError where
  | unknownOption (option : String)
  | repeatedOption (option : String)
  | missingValue (option : String)
  | unwantedValue (option : String)
  | invalidValue (option : String) (reason : String)
  | extraArgument (argument : String)
  | missingFile
deriving DecidableEq, Repr

def UsageError.message : UsageError → String
  | unknownOption option => s!"unexpected argument '{option}' found"
  | repeatedOption option => s!"the argument '{option}' cannot be used multiple times"
  | missingValue option => s!"a value is required for '{option}' but none was supplied"
  | unwantedValue option => s!"'{option}' takes no value"
  | invalidValue option reason => s!"invalid value for '{option}': {reason}"
  | extraArgument argument => s!"unexpected argument '{argument}' found"
  | missingFile => "the following required arguments were not provided: <FILE>"

/-- The options that take no value. -/
inductive Flag where
  | ast
  | tokens
  | noEval
  | version
  | help
deriving DecidableEq, Repr

/-- The options that take a value. -/
inductive Setting where
  | config
  | astOut
  | logLevel
deriving DecidableEq, Repr

def Setting.name : Setting → String
  | .config => "--config"
  | .astOut => "--ast-out"
  | .logLevel => "--log-level"

def longFlag? (name : String) : Option Flag :=
  [("ast", Flag.ast), ("tokens", .tokens), ("no-eval", .noEval), ("version", .version),
    ("help", .help)].lookup name

def longSetting? (name : String) : Option Setting :=
  [("config", Setting.config), ("ast-out", .astOut), ("log-level", .logLevel)].lookup name

/-- Notes a flag, which may be given once. -/
def Arguments.raise (a : Arguments) (flag : Flag) (name : String) : Except UsageError Arguments :=
  let once (given : Bool) (raised : Arguments) : Except UsageError Arguments :=
    if given then .error (.repeatedOption name) else .ok raised
  match flag with
  | .ast => once a.ast { a with ast := true }
  | .tokens => once a.tokens { a with tokens := true }
  | .noEval => once a.noEval { a with noEval := true }
  | .version | .help => .ok a

/-- Notes the value of a setting, which may be given once. Paths are not empty. -/
def Arguments.set (a : Arguments) (setting : Setting) (value : String) :
    Except UsageError Arguments :=
  let name := setting.name
  let path (given : Option String) (changed : Arguments) : Except UsageError Arguments :=
    if given.isSome then .error (.repeatedOption name)
    else if value = "" then .error (.missingValue name)
    else .ok changed
  match setting with
  | .config => path a.config { a with config := some value }
  | .astOut => path a.astOut { a with astOut := some value }
  | .logLevel =>
      if a.logLevel.isSome then .error (.repeatedOption name)
      else match LogLevel.ofText? value with
        | some level => .ok { a with logLevel := some level }
        | none => .error (.invalidValue name (LogLevel.unknownMessage value))

/-- Notes the file to run, of which there is one. -/
def Arguments.addFile (a : Arguments) (file : String) : Except UsageError Arguments :=
  if a.file.isSome then .error (.extraArgument file)
  else if file = "" then .error (.missingValue "<FILE>")
  else .ok { a with file := some file }

/-- Files only, as behind `--`. -/
def Arguments.addFiles (a : Arguments) : List String → Except UsageError Arguments
  | [] => .ok a
  | file :: files => do (← a.addFile file).addFiles files

/-- Whether an argument reads as an option. A lone hyphen does not. -/
def isOption (argument : String) : Bool :=
  argument.startsWith "-" && argument != "-"

/-- What stands before the first `=`, and what behind it. -/
def splitValue (cs : List Char) : List Char × Option (List Char) :=
  match cs.dropWhile (· ≠ '=') with
  | [] => (cs, none)
  | _ :: value => (cs.takeWhile (· ≠ '='), some value)

/-- One option with what may be its value behind it in the same argument. -/
inductive Given where
  | flag (flag : Flag)
  | setting (setting : Setting) (value : Option String)

/-- The option that an argument starts with. Of short options only the first one matters: it takes
the rest for its value or ends the reading. -/
def option? (argument : String) : Except UsageError Given :=
  match argument.toList with
  | '-' :: '-' :: cs =>
      let (name, value) := splitValue cs
      let name := String.ofList name
      match longFlag? name, longSetting? name, value with
      | some flag, _, none => .ok (.flag flag)
      | some _, _, some _ => .error (.unwantedValue argument)
      | none, some setting, value => .ok (.setting setting (value.map String.ofList))
      | none, none, _ => .error (.unknownOption argument)
  | '-' :: 'c' :: cs => match cs with
    | [] => .ok (.setting .config none)
    | '=' :: value => .ok (.setting .config (some (String.ofList value)))
    | value => .ok (.setting .config (some (String.ofList value)))
  | '-' :: 'V' :: _ => .ok (.flag .version)
  | '-' :: 'h' :: _ => .ok (.flag .help)
  | _ => .error (.unknownOption argument)

/-- Reads arguments from left to right. The first fault, or the first question for version or help,
decides. -/
def readFrom (a : Arguments) : List String → Except UsageError Request
  | [] => match a.file with
    | some file => .ok (.run a file)
    | none => .error .missingFile
  | "--" :: files => do
      let a ← a.addFiles files
      match a.file with
      | some file => .ok (.run a file)
      | none => .error .missingFile
  | argument :: rest =>
      if isOption argument then do
        match ← option? argument with
        | .flag .version => return .version
        | .flag .help => return .help
        | .flag flag => readFrom (← a.raise flag argument) rest
        | .setting setting (some value) => readFrom (← a.set setting value) rest
        | .setting setting none => match rest with
          | [] => throw (.missingValue setting.name)
          | value :: rest =>
              if isOption value then throw (.missingValue setting.name)
              readFrom (← a.set setting value) rest
      else do
        readFrom (← a.addFile argument) rest

def read (arguments : List String) : Except UsageError Request := readFrom {} arguments

end Exclaim.CommandLine
