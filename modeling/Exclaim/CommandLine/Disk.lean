import Exclaim.CommandLine.Path

/-! Files: what the command line needs of them, and a disk in memory. -/
namespace Exclaim.CommandLine

/-- Access to files. What fails gives a reason. -/
structure Storage (m : Type → Type) where
  isFile : String → m Bool
  read : String → m (Except String String)
  write : String → String → m (Except String Unit)

/-- What is found under a name. -/
inductive Item where
  | text (content : String)
  | bytes (content : ByteArray)
  | directory
  /-- Has no content, and keeps none. -/
  | void

def Item.isDirectory : Item → Bool
  | directory => true
  | _ => false

/-- A route is the list of the names on the way from the root. -/
abbrev Route := List String

/-- A disk in memory: what is found at each route, and the route of the working directory. -/
structure Disk where
  home : Route
  items : List (Route × Item)

namespace Disk

/-- What is found at a route. All that stands on the way to something is a directory. -/
def find? (d : Disk) (route : Route) : Option Item :=
  match d.items.lookup route with
  | some item => some item
  | none =>
      if route.isPrefixOf d.home || d.items.any (fun entry => route.isPrefixOf entry.1) then
        some .directory
      else none

/-- Where a step leads from a directory, and what is found there. The root is above itself. -/
def enter (d : Disk) (here : Route) : Step → Except Fault (Route × Item)
  | .stay => .ok (here, .directory)
  | .up => .ok (here.dropLast, .directory)
  | .down name =>
      if Path.nameLimit < name.utf8ByteSize then .error .tooLong
      else match d.find? (here ++ [name]) with
        | some item => .ok (here ++ [name], item)
        | none => .error .absent

/-- The directory that steps lead to. Each of them is taken on the disk, so a step up from what is
no directory fails. -/
def walk (d : Disk) (here : Route) : List Step → Except Fault Route
  | [] => .ok here
  | step :: steps =>
      match d.enter here step with
      | .error fault => .error fault
      | .ok (there, item) =>
          if item.isDirectory then d.walk there steps else .error .notDirectory

/-- The directory in which the last step of a path is taken. -/
def approach (d : Disk) (path : Path) : Except Fault Route :=
  d.walk (if path.fromRoot then [] else d.home) path.steps.dropLast

/-- What is found under a path. -/
def locate (d : Disk) (text : String) : Except Fault Item := do
  let path ← Path.ofText text
  let here ← d.approach path
  match path.steps.getLast? with
  | none => return .directory
  | some step =>
      let (_, item) ← d.enter here step
      if path.endsInSlash && !item.isDirectory then throw .notDirectory else return item

def isFile (d : Disk) (text : String) : Bool :=
  match d.locate text with
  | .ok (.text _) | .ok (.bytes _) => true
  | _ => false

def read (d : Disk) (text : String) : Except Fault String := do
  match ← d.locate text with
  | .directory => throw .directory
  | .void => return ""
  | .text content => return content
  | .bytes content => match String.fromUTF8? content with
    | some content => return content
    | none => throw .notText

/-- The disk with a text at a route, in place of what was there. -/
def put (d : Disk) (route : Route) (content : String) : Disk :=
  { d with items := d.items.filter (·.1 ≠ route) ++ [(route, .text content)] }

/-- The disk with a text under a path, in place of a file of that name. -/
def write (d : Disk) (text content : String) : Except Fault Disk := do
  let path ← Path.ofText text
  let here ← d.approach path
  match path.steps.getLast? with
  | some (.down name) =>
      if path.endsInSlash then throw .directory
      else match d.enter here (.down name) with
        | .ok (_, .directory) => throw .directory
        | .ok (_, .void) => return d
        | .ok _ | .error .absent => return d.put (here ++ [name]) content
        | .error fault => throw fault
  | _ => throw .directory

/-- Access to a disk in memory. -/
def storage : Storage (StateM Disk) where
  isFile text := return (← get).isFile text
  read text := return ((← get).read text).mapError Fault.message
  write text content := do
    match (← get).write text content with
    | .error fault => return .error fault.message
    | .ok d =>
        set d
        return .ok ()

end Disk
end Exclaim.CommandLine
