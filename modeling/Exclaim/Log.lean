/-! What a run notes about its work. -/
namespace Exclaim

/-- How much is noted, from nothing to everything. -/
inductive LogLevel where
  | off
  | error
  | warn
  | info
  | debug
  | trace
deriving DecidableEq, Repr, Inhabited

namespace LogLevel

def all : List LogLevel := [off, error, warn, info, debug, trace]

def ordinal : LogLevel → Nat
  | off => 0
  | error => 1
  | warn => 2
  | info => 3
  | debug => 4
  | trace => 5

def name : LogLevel → String
  | off => "off"
  | error => "error"
  | warn => "warn"
  | info => "info"
  | debug => "debug"
  | trace => "trace"

/-- The name in capital letters. -/
def label (level : LogLevel) : String := String.ofList (level.name.toList.map Char.toUpper)

/-- The level of a name spelled exactly. -/
def ofName? (name : String) : Option LogLevel := all.find? (·.name == name)

/-- The level of a name in any letter case. -/
def ofText? (text : String) : Option LogLevel :=
  ofName? (String.ofList (text.toList.map Char.toLower))

/-- The complaint about a text that names no level. -/
def unknownMessage (text : String) : String :=
  s!"unknown log level '{text}' (expected off, error, warn, info, debug or trace)"

theorem ofName?_name (level : LogLevel) : ofName? level.name = some level := by
  cases level <;> decide

end LogLevel

/-- One note: how important it is, which stage made it, and what it says. -/
structure Record where
  level : LogLevel
  target : String
  message : String
deriving DecidableEq, Repr

/-- The records that a threshold lets through. -/
def Record.select (threshold : LogLevel) (records : List Record) : List Record :=
  records.filter fun record => record.level.ordinal ≤ threshold.ordinal

theorem Record.mem_select {threshold : LogLevel} {records : List Record} {record : Record} :
    record ∈ Record.select threshold records ↔
      record ∈ records ∧ record.level.ordinal ≤ threshold.ordinal := by
  simp [Record.select]

end Exclaim
