import Exclaim.CommandLine.Run

/-! The program: the command line on real files and streams. -/
namespace Exclaim.CommandLine

/-- Why a file of the system cannot be used. Some calls give the number of a fault below zero. -/
def reasonOf : IO.Error → String
  | .noFileOrDirectory .. => Fault.absent.message
  | .inappropriateType _ code details | .permissionDenied _ code details
  | .invalidArgument _ code details =>
      let number := code.toInt32.toInt.natAbs
      match Fault.ofNumber? number with
      | some fault => fault.message
      | none => s!"{details} (os error {number})"
  | e => toString e

/-- An access to a file of the system under a path that can be one. -/
def attempt {α : Type} (path : String) (access : IO (Except Fault α)) : IO (Except String α) := do
  match Path.ofText path with
  | .error fault => return .error fault.message
  | .ok _ =>
      try
        return (← access).mapError Fault.message
      catch e => return .error (reasonOf e)

/-- Access to the files of the system. -/
def fileStorage : Storage IO where
  isFile path := do
    try
      discard <| IO.FS.readBinFile path
      return true
    catch
      | .noFileOrDirectory .. | .inappropriateType .. => return false
      | _ => return true
  read path := attempt path do
    match String.fromUTF8? (← IO.FS.readBinFile path) with
    | some text => return .ok text
    | none => return .error .notText
  write path content := attempt path do
    IO.FS.writeFile path content
    return .ok ()

/-- A failure as it is shown: its code, its message and the place in the source. -/
def fatalText (report : Report.Fatal) : String :=
  let code := (report.code.map (· ++ ": ")).getD ""
  let place := match report.label with
    | some (offset, length, text) => s!"\n  {text}: bytes {offset} to {offset + length}"
    | none => ""
  s!"{code}{report.message}{place}\n"

end Exclaim.CommandLine

open Exclaim CommandLine in
def main (arguments : List String) : IO UInt32 := do
  let stdout ← IO.getStdout
  let stderr ← IO.getStderr
  let (finish, records) ← CommandLine.run fileStorage arguments (← stderr.isTty)
  for record in records do
    stderr.putStr s!"[{record.level.label}][{record.target}] {record.message}\n"
  match finish with
  | .done output errors =>
      stderr.putStr errors
      stdout.putStr output
  | .unusable errors => stderr.putStr errors
  | .usage error => stderr.putStr (Report.errorLine error.message false)
  | .fatal report => stderr.putStr (fatalText report)
  return UInt32.ofNat finish.exitCode
