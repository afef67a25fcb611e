import Exclaim.Diagnostic.Basic
import Exclaim.Text.Lines

/-! How findings and failures are shown on a terminal. -/
namespace Exclaim.Report

def red : String := "\x1b[31m"
def yellow : String := "\x1b[33m"
def cyan : String := "\x1b[36m"
def gray : String := "\x1b[90m"
def bold : String := "\x1b[1m"
def reset : String := "\x1b[0m"

/-- File, line and column of a finding in a file. -/
def location? (d : Diagnostic) (lines : LineMap) : Option String :=
  d.file.map fun file => match d.span with
    | some span => s!"{file}({(lines.location span.start).render})"
    | none => file

def categoryColor : Category → String
  | .error => red
  | .warning => yellow
  | .suggestion | .message => gray

/-- The line that shows a finding. -/
def diagnosticLine (d : Diagnostic) (lines : LineMap) (color : Bool) : String :=
  match color, location? d lines with
  | false, some location => s!"{location}: {d.headline}\n"
  | false, none => s!"{d.render}\n"
  | true, location =>
      let place := match location with
        | some location => s!"{cyan}{location}{reset}: "
        | none => ""
      let category := s!"{bold}{categoryColor d.category}{d.category.name}{reset}"
      s!"{place}{category} {cyan}BD{d.code}{reset}: {d.text}\n"

/-- The line that shows a failure. -/
def errorLine (text : String) (color : Bool) : String :=
  if color then s!"{bold}{red}error{reset}: {text}\n" else s!"error: {text}\n"

/-- A failure with the place in the source that it points at. -/
structure Fatal where
  message : String
  code : Option String
  /-- Offset and length of the place, and what is written beside it. -/
  label : Option (Nat × Nat × String)
deriving DecidableEq, Repr

def fatal (source message : String) (code : Option Nat) (span : Option Span) : Fatal where
  message := message
  code := code.map fun code => s!"BD{code}"
  label := span.map fun span =>
    let (start, stop) := span.clamp source.utf8ByteSize
    (start, stop - start, "here")

end Exclaim.Report
