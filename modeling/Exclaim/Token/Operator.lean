import Exclaim.Token.Kind

/-! The spellings of operators, longest first. -/
namespace Exclaim.Operator

def table : List (String × TokenKind) := [
  ("====", .strongestEq), (";===", .strongestNotEq),
  ("===", .strongEq), (";==", .strongNotEq), ("<<<", .bitShiftUnsignedLeft),
  (">>>", .bitShiftUnsignedRight),
  ("==", .equals), (";=", .notEq), ("<=", .smallerEq), (">=", .greaterEq), ("<<", .bitShiftLeft),
  (">>", .bitShiftRight), ("&&", .logicalAnd), ("||", .logicalOr), ("**", .bitwiseXor),
  ("=", .equalSign), ("<", .smaller), (">", .greater), ("+", .add), ("-", .subtract),
  ("*", .multiply), ("/", .divide), ("%", .modulo), ("^", .exponent), ("&", .bitwiseAnd),
  ("|", .bitwiseOr), (";", .logicalNot), ("~", .bitwiseNot)]

/-- The longest operator that a text starts with. -/
def first? (cs : List Char) : Option (String × TokenKind) :=
  table.find? fun entry => entry.1.toList.isPrefixOf cs

theorem spelling_of_mem_table {entry : String × TokenKind} (h : entry ∈ table) :
    entry.2.spelling? = some entry.1 := by
  revert entry; decide

/-- Spellings come longest first, so the first one found is the longest. -/
theorem table_longest_first :
    table.Pairwise fun a b => b.1.toList.length ≤ a.1.toList.length := by
  decide

end Exclaim.Operator
