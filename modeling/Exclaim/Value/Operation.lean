import Exclaim.Token.Kind
import Exclaim.Value.Basic

/-! The operators on values. -/
namespace Exclaim.Value

/-- Two texts compare by their characters, everything else by number. -/
def compare (texts : String → String → Bool) (numbers : Float → Float → Bool) (a b : Value) :
    Value :=
  match a, b with
  | .text a, .text b => .boolean (texts a b)
  | a, b => .boolean (numbers a.toNumber b.toNumber)

def arithmetic (operation : Float → Float → Float) (a b : Value) : Value :=
  .number (operation a.toNumber b.toNumber)

/-- The word that an operation on two words gives, read with its sign. -/
def bitwise (operation : BitVec 32 → BitVec 32 → BitVec 32) (a b : Value) : Value :=
  .number (Binary.ofInt (operation a.toWord b.toWord).toInt)

/-- Words shift by the last five bits of the count. -/
def shiftCount (count : BitVec 32) : Nat := (count &&& 31).toNat

theorem shiftCount_eq (count : BitVec 32) : shiftCount count = count.toNat % 32 := by
  rw [shiftCount, BitVec.toNat_and]
  exact Nat.and_two_pow_sub_one_eq_mod count.toNat 5

/-- Joins texts, adds everything else. -/
def plus (a b : Value) : Value :=
  match a, b with
  | .text _, _ | _, .text _ => .text (a.render ++ b.render)
  | a, b => arithmetic (· + ·) a b

/-- What an operator makes of two operands; null when it is none that has a meaning. -/
def binary (operator : TokenKind) (a b : Value) : Value :=
  match operator with
  | .smaller => compare (fun a b => decide (a < b)) (fun a b => decide (a < b)) a b
  | .greater => compare (fun a b => decide (a > b)) (fun a b => decide (a > b)) a b
  | .smallerEq => compare (fun a b => decide (a ≤ b)) (fun a b => decide (a ≤ b)) a b
  | .greaterEq => compare (fun a b => decide (a ≥ b)) (fun a b => decide (a ≥ b)) a b
  | .equals => .boolean (a.looseEquals b)
  | .notEq => .boolean (!a.looseEquals b)
  | .strongEq => .boolean (a.strictEquals b)
  | .strongNotEq => .boolean (!a.strictEquals b)
  | .add => plus a b
  | .subtract => arithmetic (· - ·) a b
  | .multiply => arithmetic (· * ·) a b
  | .divide => arithmetic (· / ·) a b
  | .modulo => arithmetic remainder a b
  | .exponent => arithmetic power a b
  | .logicalAnd => .boolean (a.isTruthy && b.isTruthy)
  | .logicalOr => .boolean (a.isTruthy || b.isTruthy)
  | .bitwiseAnd => bitwise (· &&& ·) a b
  | .bitwiseOr => bitwise (· ||| ·) a b
  | .bitwiseXor => bitwise (· ^^^ ·) a b
  | .bitShiftLeft | .bitShiftUnsignedLeft => bitwise (fun w n => w <<< shiftCount n) a b
  | .bitShiftRight => bitwise (fun w n => w.sshiftRight (shiftCount n)) a b
  | .bitShiftUnsignedRight =>
      .number (Binary.ofInt (a.toWord >>> shiftCount b.toWord).toNat)
  | _ => .null

/-- What an operator makes of one operand; null when it has none or no meaning. -/
def unary (operator : TokenKind) (v : Value) : Value :=
  if v.isNullish then .null
  else match operator with
    | .subtract => .number (-v.toNumber)
    | .logicalNot => .boolean (!v.isTruthy)
    | .bitwiseNot => .number (Binary.ofInt (~~~v.toWord).toInt)
    | _ => .null

end Exclaim.Value
