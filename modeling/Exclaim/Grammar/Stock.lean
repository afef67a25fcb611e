import Exclaim.Grammar.Basic

/-! The grammar of the language. -/
namespace Exclaim.Grammar

/-- The operators between two operands, with their powers. -/
def binaryOperators : List (TokenKind × Power) := [
  (.logicalOr, .logicalOr), (.logicalAnd, .logicalAnd), (.bitwiseOr, .bitwiseOr),
  (.bitwiseXor, .bitwiseXor), (.bitwiseAnd, .bitwiseAnd), (.equals, .equality),
  (.notEq, .equality), (.strongEq, .equality), (.strongNotEq, .equality),
  (.strongestEq, .equality), (.strongestNotEq, .equality), (.smaller, .relational),
  (.greater, .relational), (.smallerEq, .relational), (.greaterEq, .relational),
  (.bitShiftLeft, .bitwiseShift), (.bitShiftRight, .bitwiseShift),
  (.bitShiftUnsignedLeft, .bitwiseShift), (.bitShiftUnsignedRight, .bitwiseShift),
  (.add, .additive), (.subtract, .additive), (.multiply, .multiplicative),
  (.divide, .multiplicative), (.modulo, .multiplicative), (.exponent, .exponentiation)]

/-- The words that ask for the history of a variable. -/
def stateWords : List String := ["previous", "next", "current"]

def stockOpenings : Registry OpeningRule :=
  stateWords.map (fun word => { kind := .identifier, word, power := .unary, rule := .state }) ++ [
    { kind := .openParen, power := .grouping, rule := .grouping },
    { kind := .identifier, power := .primary, rule := .primary },
    { kind := .string, power := .primary, rule := .primary },
    { kind := .number, power := .primary, rule := .primary },
    { kind := .minusMinus, power := .unary, rule := .state },
    { kind := .plusPlus, power := .unary, rule := .state },
    { kind := .bitwiseNot, power := .unary, rule := .unary },
    { kind := .logicalNot, power := .unary, rule := .unary },
    { kind := .subtract, power := .unary, rule := .unary }]

def stockJoinings : Registry JoiningRule :=
  [{ kind := .combinedAssignment, power := .assignment, rule := .assignment },
    { kind := .equalSign, power := .assignment, rule := .assignment },
    { kind := .openParen, power := .access, rule := .call },
    { kind := .openBracket, power := .access, rule := .member },
    { kind := .dot, power := .access, rule := .member }] ++
  binaryOperators.map fun (kind, power) => { kind, power, rule := .binary }

def stockStatements : Registry StatementRule := [
  { kind := .endOfFile, rule := .endOfFile },
  { kind := .openCurly, rule := .block },
  { kind := .identifier, word := "when", rule := .when },
  { kind := .identifier, word := "if", rule := .conditional },
  { kind := .identifier, word := "return", rule := .returning },
  { kind := .identifier, word := "async", rule := .functionDeclaration },
  { kind := .identifier, word := "function", rule := .functionDeclaration },
  { kind := .identifier, word := "var", rule := .variableDeclaration },
  { kind := .identifier, word := "const", rule := .variableDeclaration }]

def stock : Grammar where
  statements := stockStatements
  openings := stockOpenings
  joinings := stockJoinings

end Exclaim.Grammar
