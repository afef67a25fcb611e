/-! Lines of a text. A carriage return, a line feed and the pair of the two each end a line. -/
namespace Exclaim

/-- The number of bytes of a text in UTF-8. -/
def byteSize : List Char → Nat
  | [] => 0
  | c :: cs => c.utf8Size + byteSize cs

@[simp] theorem byteSize_append (s t : List Char) :
    byteSize (s ++ t) = byteSize s + byteSize t := by
  induction s with
  | nil => simp [byteSize]
  | cons c s ih => simp [byteSize, ih]; omega

theorem byteSize_pos {cs : List Char} (h : cs ≠ []) : 0 < byteSize cs := by
  cases cs with
  | nil => exact absurd rfl h
  | cons c cs => exact Nat.add_pos_left c.utf8Size_pos _

/-- The bytes of a string are the bytes of its characters. -/
@[simp] theorem byteSize_toList (s : String) : byteSize s.toList = s.utf8ByteSize := by
  rw [← String.ofList_toList (s := s)]
  generalize s.toList = cs
  simp only [String.toList_ofList]
  induction cs with
  | nil => rfl
  | cons c cs ih => simp [byteSize, ih, String.ofList_cons, String.utf8ByteSize_append]

/-- How many line endings a text holds. -/
def lineEndings : List Char → Nat
  | [] => 0
  | '\r' :: '\n' :: cs => lineEndings cs + 1
  | c :: cs => if c = '\r' ∨ c = '\n' then lineEndings cs + 1 else lineEndings cs

/-- The byte offset behind each line ending of a text that starts at byte `offset`. -/
def lineStarts (offset : Nat) : List Char → List Nat
  | [] => []
  | '\r' :: '\n' :: cs => (offset + 2) :: lineStarts (offset + 2) cs
  | c :: cs =>
      if c = '\r' ∨ c = '\n' then (offset + 1) :: lineStarts (offset + 1) cs
      else lineStarts (offset + c.utf8Size) cs

/-- How many characters make up the first `bytes` bytes; none when that cuts a character or runs
past the end. -/
def charCount? (bytes : Nat) : List Char → Option Nat
  | [] => if bytes = 0 then some 0 else none
  | c :: cs =>
      if bytes = 0 then some 0
      else if c.utf8Size ≤ bytes then (charCount? (bytes - c.utf8Size) cs).map (· + 1)
      else none

/-- A line and a column, both counted from one. Columns count characters. -/
structure Location where
  line : Nat
  column : Nat
deriving DecidableEq, Repr

/-- `line,column` -/
def Location.render (l : Location) : String := s!"{l.line},{l.column}"

/-- A text with the offsets at which its lines after the first start. -/
structure LineMap where
  text : List Char
  starts : List Nat

namespace LineMap

def ofText (text : List Char) : LineMap := ⟨text, lineStarts 0 text⟩

def ofString (text : String) : LineMap := ofText text.toList

def lineCount (m : LineMap) : Nat := m.starts.length + 1

/-- Where a byte offset lies. Offsets past the end count as the end; a column of an offset inside
a character counts bytes. -/
def location (m : LineMap) (offset : Nat) : Location :=
  let offset := min offset (byteSize m.text)
  let before := m.starts.filter (· ≤ offset)
  let start := before.getLast?.getD 0
  let column := match charCount? offset m.text, charCount? start m.text with
    | some upTo, some upToStart => upTo - upToStart
    | _, _ => offset - start
  ⟨before.length + 1, column + 1⟩

end LineMap

@[simp] theorem length_lineStarts (offset : Nat) (cs : List Char) :
    (lineStarts offset cs).length = lineEndings cs := by
  fun_induction lineStarts offset cs <;> simp_all [lineEndings]

theorem LineMap.lineCount_ofText (cs : List Char) :
    (LineMap.ofText cs).lineCount = lineEndings cs + 1 := by
  simp [lineCount, ofText]

end Exclaim
