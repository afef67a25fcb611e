/-! How tightly operators bind. -/
namespace Exclaim

/-- Binding powers, from the loosest to the tightest. -/
inductive Power where
  | lowest
  | comma
  | assignment
  | logicalOr
  | logicalAnd
  | bitwiseOr
  | bitwiseXor
  | bitwiseAnd
  | equality
  | relational
  | bitwiseShift
  | additive
  | multiplicative
  | exponentiation
  | unary
  | trailing
  | creation
  | access
  | grouping
  | primary
deriving DecidableEq, Repr

namespace Power

def all : List Power := [
  lowest, comma, assignment, logicalOr, logicalAnd, bitwiseOr, bitwiseXor, bitwiseAnd, equality,
  relational, bitwiseShift, additive, multiplicative, exponentiation, unary, trailing, creation,
  access, grouping, primary]

def rank (power : Power) : Nat := power.ctorIdx

instance : LT Power := ⟨fun a b => a.rank < b.rank⟩

instance (a b : Power) : Decidable (a < b) := inferInstanceAs (Decidable (a.rank < b.rank))

def name : Power → String
  | lowest => "DefaultBp"
  | comma => "Comma"
  | assignment => "Assignment"
  | logicalOr => "LogicalOr"
  | logicalAnd => "LogicalAnd"
  | bitwiseOr => "BitwiseOr"
  | bitwiseXor => "BitwiseXor"
  | bitwiseAnd => "BitwiseAnd"
  | equality => "Equality"
  | relational => "Relational"
  | bitwiseShift => "BitwiseShift"
  | additive => "Additive"
  | multiplicative => "Multiplicative"
  | exponentiation => "Exponentiation"
  | unary => "Prefix"
  | trailing => "Postfix"
  | creation => "New"
  | access => "AccessCallNew"
  | grouping => "Grouping"
  | primary => "Primary"

def ofName? (name : String) : Option Power := all.find? (·.name == name)

theorem mem_all (power : Power) : power ∈ all := by
  cases power <;> decide

end Power
end Exclaim
