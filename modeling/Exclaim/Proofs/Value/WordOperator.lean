import Exclaim.Proofs.Number.Exact
import Exclaim.Value.Operation

/-! The operators on words. They act on the whole parts of their operands modulo `2^32`, and nothing
is lost on the way there or back: the number that comes out is exactly the word, read with a sign or
without. -/
namespace Exclaim.Value

/-- The whole part of a value's number as a word; zero for what is not finite. -/
def exactWord (v : Value) : BitVec 32 :=
  match Binary.rational? v.toNumber with
  | some q => BitVec.ofInt 32 (Binary.truncate q)
  | none => 0

lemma toWord_eq (v : Value) : v.toWord = v.exactWord := by
  rw [toWord, wordOf_eq_ofInt, Binary.wholePart_eq, exactWord]
  cases Binary.rational? v.toNumber <;> rfl

/-- A value that is an integer, zero without a sign. -/
def IsInteger (v : Value) (n : ℤ) : Prop :=
  ∃ x, v = number x ∧ Binary.rational? x = some (n : ℚ) ∧ (n = 0 → x = 0)

lemma isInteger_ofInt {n : ℤ} (h : n.natAbs < 2 ^ 53) : IsInteger (number (Binary.ofInt n)) n := by
  refine ⟨_, rfl, Binary.rational?_ofInt h, ?_⟩
  rintro rfl
  decide

section Reading
variable (signed : Bool) (w : BitVec 32)

/-- A word as an integer. -/
def reading : ℤ := if signed then w.toInt else w.toNat

/-- The integers that a word may be read as. -/
def InRange (n : ℤ) : Prop := if signed then -2 ^ 31 ≤ n ∧ n < 2 ^ 31 else 0 ≤ n ∧ n < 2 ^ 32

lemma inRange_reading : InRange signed (reading signed w) := by
  cases signed
  · exact ⟨Int.natCast_nonneg _, Int.ofNat_lt.2 w.isLt⟩
  · exact ⟨w.le_toInt, w.toInt_lt⟩

lemma isInteger_reading :
    IsInteger (number (Binary.ofInt (reading signed w))) (reading signed w) := by
  refine isInteger_ofInt ?_
  have hrange := inRange_reading signed w
  unfold InRange at hrange
  split at hrange <;> omega

end Reading

/-- What an operator with two operands does to their words, and whether the word that comes out is
read with a sign. -/
structure WordOperator where
  symbol : String
  kind : TokenKind
  operation : BitVec 32 → BitVec 32 → BitVec 32
  signed : Bool

/-- Both left shifts are one operation. The right shifts differ in the bit that they move in and in
how the outcome is read. -/
def wordOperators : List WordOperator := [
  ⟨"&", .bitwiseAnd, (· &&& ·), true⟩,
  ⟨"|", .bitwiseOr, (· ||| ·), true⟩,
  ⟨"**", .bitwiseXor, (· ^^^ ·), true⟩,
  ⟨"<<", .bitShiftLeft, fun m n => m <<< (n.toNat % 32), true⟩,
  ⟨"<<<", .bitShiftUnsignedLeft, fun m n => m <<< (n.toNat % 32), true⟩,
  ⟨">>", .bitShiftRight, fun m n => m.sshiftRight (n.toNat % 32), true⟩,
  ⟨">>>", .bitShiftUnsignedRight, fun m n => m >>> (n.toNat % 32), false⟩]

/-- The word that an operator makes of two, as an integer. -/
def WordOperator.result (o : WordOperator) (m n : BitVec 32) : ℤ :=
  reading o.signed (o.operation m n)

lemma spelling?_of_mem {o : WordOperator} (h : o ∈ wordOperators) :
    o.kind.spelling? = some o.symbol := by
  simp only [wordOperators, List.mem_cons, List.not_mem_nil, or_false] at h
  rcases h with rfl | rfl | rfl | rfl | rfl | rfl | rfl <;> rfl

/-- These operators see words only. -/
lemma binary_of_mem {o : WordOperator} (h : o ∈ wordOperators) (a b : Value) :
    binary o.kind a b = number (Binary.ofInt (o.result a.exactWord b.exactWord)) := by
  rw [← toWord_eq, ← toWord_eq]
  simp only [wordOperators, List.mem_cons, List.not_mem_nil, or_false] at h
  rcases h with rfl | rfl | rfl | rfl | rfl | rfl | rfl
  all_goals
    simp only [binary, bitwise, shiftCount_eq]
    rfl

lemma unary_bitwiseNot {a : Value} (h : a.isNullish = false) :
    unary .bitwiseNot a = number (Binary.ofInt (reading true (~~~a.exactWord))) := by
  rw [unary, h, toWord_eq]
  rfl

/-- The operators on words are exact. With two operands, and for any two, the outcome is the integer
that the operation on their words gives, shifts by the count modulo `32`; the complement is that of
the word of an operand that is neither null nor undefined. Operands with the same words give the
same outcome, in the range of the reading. -/
theorem word_operators_exact (a b : Value) :
    (∀ o ∈ wordOperators, o.kind.spelling? = some o.symbol ∧
      IsInteger (binary o.kind a b) (o.result a.exactWord b.exactWord) ∧
      InRange o.signed (o.result a.exactWord b.exactWord) ∧
      ∀ c d : Value, c.exactWord = a.exactWord → d.exactWord = b.exactWord →
        binary o.kind c d = binary o.kind a b) ∧
    TokenKind.spelling? .bitwiseNot = some "~" ∧
    (a.isNullish = false →
      IsInteger (unary .bitwiseNot a) (~~~a.exactWord).toInt ∧
      InRange true (~~~a.exactWord).toInt ∧
      ∀ c : Value, c.isNullish = false → c.exactWord = a.exactWord →
        unary .bitwiseNot c = unary .bitwiseNot a) := by
  refine ⟨fun o ho => ⟨spelling?_of_mem ho, ?_, inRange_reading _ _, fun c d hc hd => ?_⟩, rfl,
    fun ha => ⟨?_, inRange_reading true _, fun c hc hword => ?_⟩⟩
  · rw [binary_of_mem ho]
    exact isInteger_reading _ _
  · rw [binary_of_mem ho, binary_of_mem ho, hc, hd]
  · rw [unary_bitwiseNot ha]
    exact isInteger_reading true _
  · rw [unary_bitwiseNot hc, unary_bitwiseNot ha, hword]

theorem word_operators_exact_one :
    (number 4294967297.5).exactWord = (boolean true).exactWord ∧
      undefined.exactWord = null.exactWord ∧
      binary .bitShiftUnsignedRight (number 4294967297.5) undefined =
        binary .bitShiftUnsignedRight (boolean true) null ∧
      unary .bitwiseNot (number 4294967297.5) = unary .bitwiseNot (boolean true) := by
  have hone : (number 4294967297.5).exactWord = (boolean true).exactWord := by
    rw [← toWord_eq, ← toWord_eq]
    decide +kernel
  have hzero : undefined.exactWord = null.exactWord := by
    rw [← toWord_eq, ← toWord_eq]
    decide
  obtain ⟨hbinary, -, hunary⟩ := word_operators_exact (boolean true) null
  have hshift := (hbinary wordOperators[6] (List.getElem_mem _)).2.2.2 _ _ hone hzero
  exact ⟨hone, hzero, hshift, (hunary rfl).2.2 _ rfl hone⟩

end Exclaim.Value
