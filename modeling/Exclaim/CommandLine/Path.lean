/-! Paths: the steps a text of names asks for, and what may be wrong with it. -/
namespace Exclaim.CommandLine

/-- Why a file cannot be used. -/
inductive Fault where
  | absent
  | denied
  | notDirectory
  | directory
  /-- A name or a whole path is longer than the disk allows. -/
  | tooLong
  /-- A path has the character that ends a name. -/
  | unnameable
  | notText
deriving DecidableEq, Repr

def Fault.message : Fault → String
  | absent => "No such file or directory (os error 2)"
  | denied => "Permission denied (os error 13)"
  | notDirectory => "Not a directory (os error 20)"
  | directory => "Is a directory (os error 21)"
  | tooLong => "File name too long (os error 36)"
  | unnameable => "file name contained an unexpected NUL byte"
  | notText => "stream did not contain valid UTF-8"

/-- The fault to which a system gives a number. -/
def Fault.ofNumber? : Nat → Option Fault
  | 2 => some .absent
  | 13 => some .denied
  | 20 => some .notDirectory
  | 21 => some .directory
  | 36 => some .tooLong
  | _ => none

/-- A step from a directory. -/
inductive Step where
  | stay
  | up
  | down (name : String)
deriving DecidableEq, Repr

/-- The step that a name asks for. Nothing between two slashes asks for none. -/
def Step.ofName? : String → Option Step
  | "" => none
  | "." => some .stay
  | ".." => some .up
  | name => some (.down name)

/-- A path starts at the root or at the working directory. One that ends with a slash asks for a
directory at its end. -/
structure Path where
  fromRoot : Bool
  steps : List Step
  endsInSlash : Bool
deriving DecidableEq, Repr

namespace Path

/-- The most bytes that a name has. -/
def nameLimit : Nat := 255

/-- The most bytes that a path has. -/
def limit : Nat := 4095

def ofText (text : String) : Except Fault Path :=
  if text.toList.contains '\x00' then .error .unnameable
  else if text = "" then .error .absent
  else if limit < text.utf8ByteSize then .error .tooLong
  else .ok {
    fromRoot := text.startsWith "/"
    steps := (text.splitOn "/").filterMap Step.ofName?
    endsInSlash := text.endsWith "/" }

end Path
end Exclaim.CommandLine
