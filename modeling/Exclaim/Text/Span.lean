/-! Stretches of source text, measured in UTF-8 bytes. -/
namespace Exclaim

/-- `length` bytes of source from byte `start` on. Both are unbounded here; words of 32 bits hold the
same numbers as long as a source has less than 4 GiB. -/
structure Span where
  start : Nat
  length : Nat
deriving DecidableEq, Repr, Inhabited

namespace Span

/-- The span from `start` up to, but not including, `stop`; empty when `stop` comes first. -/
def ofBounds (start stop : Nat) : Span := ⟨start, stop - start⟩

/-- The empty span at a position. -/
def empty (position : Nat) : Span := ⟨position, 0⟩

/-- The first byte after the span. -/
def stop (s : Span) : Nat := s.start + s.length

def isEmpty (s : Span) : Bool := s.length == 0

/-- The bounds of the part of the span that lies in a text of `size` bytes. -/
def clamp (s : Span) (size : Nat) : Nat × Nat :=
  let start := min s.start size
  (start, max start (min s.stop size))

/-- `start..stop` -/
def render (s : Span) : String := s!"{s.start}..{s.stop}"

@[simp] theorem stop_ofBounds {start stop : Nat} (h : start ≤ stop) :
    (ofBounds start stop).stop = stop := by
  simp only [ofBounds, Span.stop]; omega

theorem clamp_bounds (s : Span) (size : Nat) :
    (s.clamp size).1 ≤ (s.clamp size).2 ∧ (s.clamp size).2 ≤ size := by
  simp only [clamp]; omega

end Span
end Exclaim
