import Exclaim.Grammar.Power
import Exclaim.Token.Basic

/-! The grammar table: which rule reads on from a token. Registering a rule puts it before the
older ones, and the first entry that fits is used. -/
namespace Exclaim

/-- How a statement is read from its first token on. -/
inductive StatementRule where
  | variableDeclaration
  | functionDeclaration
  | returning
  | conditional
  | when
  | block
  | endOfFile
deriving DecidableEq, Repr

/-- How an expression is read from its first token on. -/
inductive OpeningRule where
  | primary
  | grouping
  | unary
  | state
deriving DecidableEq, Repr

/-- How an expression goes on behind its left part. -/
inductive JoiningRule where
  | binary
  | assignment
  | member
  | call
deriving DecidableEq, Repr

/-- A registered rule. -/
structure Entry (Rule : Type) where
  kind : TokenKind
  /-- The only identifier that the entry is for; empty when it is for all. -/
  word : String := ""
  power : Power := .lowest
  rule : Rule
deriving DecidableEq, Repr

/-- Entries, newest first. -/
abbrev Registry (Rule : Type) := List (Entry Rule)

namespace Registry

def register {Rule : Type} (r : Registry Rule) (entry : Entry Rule) : Registry Rule := entry :: r

/-- The entry for a token: the newest for its kind, but for an identifier the newest for exactly
that word or else the newest for all words. -/
def find? {Rule : Type} (r : Registry Rule) (t : Token) : Option (Entry Rule) :=
  let entries := r.filter (·.kind == t.kind)
  if t.kind = .identifier then
    (List.find? (·.word == t.value) entries).or (List.find? (·.word == "") entries)
  else entries.head?

end Registry

/-- The rules for statements, for the start of expressions and for their continuation. -/
structure Grammar where
  statements : Registry StatementRule := []
  openings : Registry OpeningRule := []
  joinings : Registry JoiningRule := []

namespace Grammar

def empty : Grammar := {}

def addStatement (g : Grammar) (entry : Entry StatementRule) : Grammar :=
  { g with statements := g.statements.register entry }

def addOpening (g : Grammar) (entry : Entry OpeningRule) : Grammar :=
  { g with openings := g.openings.register entry }

def addJoining (g : Grammar) (entry : Entry JoiningRule) : Grammar :=
  { g with joinings := g.joinings.register entry }

def statement? (g : Grammar) (t : Token) : Option StatementRule :=
  (g.statements.find? t).map (·.rule)

def opening? (g : Grammar) (t : Token) : Option (OpeningRule × Power) :=
  (g.openings.find? t).map fun entry => (entry.rule, entry.power)

def joining? (g : Grammar) (t : Token) : Option (JoiningRule × Power) :=
  (g.joinings.find? t).map fun entry => (entry.rule, entry.power)

end Grammar
end Exclaim
