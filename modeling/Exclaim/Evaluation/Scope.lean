import Exclaim.Tree.Basic
import Exclaim.Value.Basic

/-! Scopes: where names have values. -/
namespace Exclaim

/-- A value under a name, with what was declared of it. -/
structure Binding where
  value : Value
  modifiers : Modifiers := {}
  lifetime : Option Lifetime := none

/-- The names of one scope in the order of their declaration. -/
abbrev Frame := List (String × Binding)

namespace Frame

def binding? (f : Frame) (name : String) : Option Binding := f.lookup name

def owns (f : Frame) (name : String) : Bool := (f.binding? name).isSome

def names (f : Frame) : List String := f.map (·.1)

/-- The frame with another value under a name; its place and the rest of its binding stay. -/
def setValue (name : String) (value : Value) : Frame → Frame
  | [] => []
  | (n, b) :: f => if n = name then (n, { b with value }) :: f else (n, b) :: setValue name value f

end Frame

/-- A scope inside others, the innermost of which comes first. -/
structure ScopeChain where
  current : Frame := []
  outer : List Frame := []

namespace ScopeChain

/-- The global scope, with nothing in it. -/
def global : ScopeChain := {}

/-- How many scopes surround the current one. -/
def depth (s : ScopeChain) : Nat := s.outer.length

def frames (s : ScopeChain) : List Frame := s.current :: s.outer

/-- Enters a new scope. -/
def push (s : ScopeChain) : ScopeChain := ⟨[], s.frames⟩

/-- Leaves the current scope; the global one is never left. -/
def pop (s : ScopeChain) : ScopeChain :=
  match s.outer with
  | [] => s
  | f :: fs => ⟨f, fs⟩

/-- Binds a name in the current scope, which must not own it yet. -/
def declare? (s : ScopeChain) (name : String) (binding : Binding) : Option ScopeChain :=
  if s.current.owns name then none else some { s with current := s.current ++ [(name, binding)] }

/-- Puts a value into the first frame that owns a name. -/
def setNearest? (name : String) (value : Value) : List Frame → Option (List Frame)
  | [] => none
  | f :: fs =>
      if f.owns name then some (f.setValue name value :: fs)
      else (setNearest? name value fs).map (f :: ·)

/-- Changes the value of a name in the nearest scope that owns it. -/
def assign? (s : ScopeChain) (name : String) (value : Value) : Option ScopeChain :=
  if s.current.owns name then some { s with current := s.current.setValue name value }
  else (setNearest? name value s.outer).map fun outer => { s with outer }

/-- The binding of a name in the nearest scope that owns it. -/
def binding? (s : ScopeChain) (name : String) : Option Binding :=
  s.frames.findSome? (·.binding? name)

def lookup? (s : ScopeChain) (name : String) : Option Value := (s.binding? name).map (·.value)

/-- The depth of the nearest scope that owns a name. -/
def ownerDepth? (s : ScopeChain) (name : String) : Option Nat :=
  (s.frames.findIdx? (·.owns name)).map (s.depth - ·)

end ScopeChain
end Exclaim
