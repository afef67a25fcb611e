/-! The lexical categories. Keywords are not among them: every word is an identifier. -/
namespace Exclaim

inductive TokenKind where
  | endOfFile
  | number
  | string
  | identifier
  | openBracket
  | closeBracket
  | openCurly
  | closeCurly
  | openParen
  | closeParen
  | arrow
  | plusPlus
  | minusMinus
  | equalSign
  | combinedAssignment
  | smaller
  | greater
  | smallerEq
  | greaterEq
  | equals
  | notEq
  | strongEq
  | strongNotEq
  | strongestEq
  | strongestNotEq
  | add
  | subtract
  | multiply
  | divide
  | modulo
  | exponent
  | logicalAnd
  | logicalOr
  | logicalNot
  | bitwiseNot
  | bitwiseAnd
  | bitwiseOr
  | bitwiseXor
  | bitShiftLeft
  | bitShiftRight
  | bitShiftUnsignedLeft
  | bitShiftUnsignedRight
  | dot
  | colon
  | comma
  | whiteSpace
  | lineBreak
  | exclamation
  | invertedExclamation
  | question
deriving DecidableEq, Repr, Inhabited

namespace TokenKind

/-- All kinds, in the order that numbers them. -/
def all : List TokenKind := [
  endOfFile, number, string, identifier, openBracket, closeBracket, openCurly, closeCurly,
  openParen, closeParen, arrow, plusPlus, minusMinus, equalSign, combinedAssignment, smaller,
  greater, smallerEq, greaterEq, equals, notEq, strongEq, strongNotEq, strongestEq,
  strongestNotEq, add, subtract, multiply, divide, modulo, exponent, logicalAnd, logicalOr,
  logicalNot, bitwiseNot, bitwiseAnd, bitwiseOr, bitwiseXor, bitShiftLeft, bitShiftRight,
  bitShiftUnsignedLeft, bitShiftUnsignedRight, dot, colon, comma, whiteSpace, lineBreak,
  exclamation, invertedExclamation, question]

def ordinal (kind : TokenKind) : Nat := all.idxOf kind

def name : TokenKind → String
  | endOfFile => "EndOfFile"
  | number => "Number"
  | string => "String"
  | identifier => "Identifier"
  | openBracket => "OpenBracket"
  | closeBracket => "CloseBracket"
  | openCurly => "OpenCurly"
  | closeCurly => "CloseCurly"
  | openParen => "OpenParen"
  | closeParen => "CloseParen"
  | arrow => "Arrow"
  | plusPlus => "PlusPlus"
  | minusMinus => "MinusMinus"
  | equalSign => "EqualSign"
  | combinedAssignment => "CombinedAssignment"
  | smaller => "Smaller"
  | greater => "Greater"
  | smallerEq => "SmallerEq"
  | greaterEq => "GreaterEq"
  | equals => "Equals"
  | notEq => "NotEq"
  | strongEq => "StrongEq"
  | strongNotEq => "StrongNotEq"
  | strongestEq => "StrongestEq"
  | strongestNotEq => "StrongestNotEq"
  | add => "Add"
  | subtract => "Subtract"
  | multiply => "Multiply"
  | divide => "Divide"
  | modulo => "Modulo"
  | exponent => "Exponent"
  | logicalAnd => "LogicalAnd"
  | logicalOr => "LogicalOr"
  | logicalNot => "LogicalNot"
  | bitwiseNot => "BitwiseNot"
  | bitwiseAnd => "BitwiseAnd"
  | bitwiseOr => "BitwiseOr"
  | bitwiseXor => "BitwiseXor"
  | bitShiftLeft => "BitShiftLeft"
  | bitShiftRight => "BitShiftRight"
  | bitShiftUnsignedLeft => "BitShiftUnsignedLeft"
  | bitShiftUnsignedRight => "BitShiftUnsignedRight"
  | dot => "Dot"
  | colon => "Colon"
  | comma => "Comma"
  | whiteSpace => "WhiteSpace"
  | lineBreak => "LineBreak"
  | exclamation => "Exclamation"
  | invertedExclamation => "InvertedExclamation"
  | question => "Question"

def ofName? (name : String) : Option TokenKind := all.find? (·.name == name)

/-- The spelling of the kinds that have exactly one. -/
def spelling? : TokenKind → Option String
  | openBracket => some "["
  | closeBracket => some "]"
  | openCurly => some "\x7b"
  | closeCurly => some "\x7d"
  | openParen => some "("
  | closeParen => some ")"
  | arrow => some "=>"
  | plusPlus => some "++"
  | minusMinus => some "--"
  | equalSign => some "="
  | smaller => some "<"
  | greater => some ">"
  | smallerEq => some "<="
  | greaterEq => some ">="
  | equals => some "=="
  | notEq => some ";="
  | strongEq => some "==="
  | strongNotEq => some ";=="
  | strongestEq => some "===="
  | strongestNotEq => some ";==="
  | add => some "+"
  | subtract => some "-"
  | multiply => some "*"
  | divide => some "/"
  | modulo => some "%"
  | exponent => some "^"
  | logicalAnd => some "&&"
  | logicalOr => some "||"
  | logicalNot => some ";"
  | bitwiseNot => some "~"
  | bitwiseAnd => some "&"
  | bitwiseOr => some "|"
  | bitwiseXor => some "**"
  | bitShiftLeft => some "<<"
  | bitShiftRight => some ">>"
  | bitShiftUnsignedLeft => some "<<<"
  | bitShiftUnsignedRight => some ">>>"
  | dot => some "."
  | colon => some ":"
  | comma => some ","
  | exclamation => some "!"
  | invertedExclamation => some "¡"
  | question => some "?"
  | endOfFile | number | string | identifier | combinedAssignment | whiteSpace | lineBreak => none

/-- Whether a token of this kind ends a statement. -/
def isTerminator : TokenKind → Bool
  | exclamation | invertedExclamation | question => true
  | _ => false

/-- Whether a token of this kind is mere layout. -/
def isIgnorable : TokenKind → Bool
  | whiteSpace | lineBreak => true
  | _ => false

def isComparison : TokenKind → Bool
  | equalSign | smaller | greater | smallerEq | greaterEq | equals | notEq | strongEq
  | strongNotEq | strongestEq | strongestNotEq => true
  | _ => false

def isArithmetic : TokenKind → Bool
  | add | subtract | multiply | divide | modulo | exponent => true
  | _ => false

/-- The logical operators with two operands. -/
def isLogical : TokenKind → Bool
  | logicalAnd | logicalOr => true
  | _ => false

/-- The bitwise operators with two operands. -/
def isBitwise : TokenKind → Bool
  | bitwiseAnd | bitwiseOr | bitwiseXor | bitShiftLeft | bitShiftRight | bitShiftUnsignedLeft
  | bitShiftUnsignedRight => true
  | _ => false

/-- Whether the operator and a following `=` make one combined assignment. -/
def combines (kind : TokenKind) : Bool := kind.isArithmetic || kind.isLogical || kind.isBitwise

/-- Names of kinds with commas between them. -/
def renderList (kinds : List TokenKind) : String := ",".intercalate (kinds.map name)

theorem mem_all (kind : TokenKind) : kind ∈ all := by
  cases kind <;> decide

end TokenKind
end Exclaim
