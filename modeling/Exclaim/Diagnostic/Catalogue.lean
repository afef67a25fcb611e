import Exclaim.Diagnostic.Basic

/-! The kinds of findings, by the stage that raises them. -/
namespace Exclaim.Message

def unterminatedString : Message := ⟨1002, .warning, "Unterminated string literal."⟩

def unterminatedComment : Message := ⟨1010, .warning, "'*/' expected."⟩

def invalidCharacter : Message :=
  ⟨1127, .error, "Invalid character '\x7b0\x7d' (code \x7b1\x7d)."⟩

def nonStandardCharacter : Message :=
  ⟨1129, .warning,
    "Non-standard character '\x7b0\x7d' (U+\x7b1\x7d) treated as part of an identifier."⟩

def tokenExpected : Message := ⟨1005, .error, "'\x7b0\x7d' expected."⟩

def wordExpected : Message := ⟨1006, .error, "One of \x7b0\x7d expected."⟩

def expressionExpected : Message := ⟨1109, .error, "Expression expected."⟩

def invalidShape : Message := ⟨1110, .error, "\x7b0\x7d"⟩

def invalidNumeral : Message := ⟨1125, .error, "Invalid numeric literal '\x7b0\x7d'."⟩

def statementExpected : Message := ⟨1128, .error, "Declaration or statement expected."⟩

def unknownName : Message := ⟨2304, .error, "Cannot find name '\x7b0\x7d'."⟩

def redeclaredName : Message := ⟨2451, .error, "Cannot redeclare variable '\x7b0\x7d'."⟩

def nodeNotSetUp : Message :=
  ⟨2800, .error, "This AST node type (\x7b0\x7d) has not yet been set up for interpretation."⟩

def nodeUnderConstruction : Message :=
  ⟨9001, .message, "This AST node type (\x7b0\x7d) is under construction."⟩

end Exclaim.Message
