import Exclaim.Tree.Basic

/-! Equality of expressions as the language sees numbers: an undefined number differs from itself,
and the two zeros are one. -/
namespace Exclaim

mutual

def Expression.same : Expression → Expression → Bool
  | .assignment t v, .assignment t' v' => t.same t' && v.same v'
  | .unary o e, .unary o' e' => o == o' && e.same e'
  | .state o r, .state o' r' => o == o' && r.same r'
  | .binary l o r, .binary l' o' r' => l.same l' && o == o' && r.same r'
  | .number x, .number x' => x == x'
  | .string s, .string s' => s == s'
  | .symbol n, .symbol n' => n == n'
  | .object ps, .object ps' => Property.sameList ps ps'
  | .array es, .array es' => Expression.sameList es es'
  | .member o p c, .member o' p' c' => o.same o' && p.same p' && c == c'
  | .call f es, .call f' es' => f.same f' && Expression.sameList es es'
  | .branching es, .branching es' => Expression.sameList es es'
  | _, _ => false

def Reference.same : Reference → Reference → Bool
  | .symbol n, .symbol n' => n == n'
  | .member o p c, .member o' p' c' => o.same o' && p.same p' && c == c'
  | _, _ => false

def Property.same : Property → Property → Bool
  | .mk k v s c, .mk k' v' s' c' => k.same k' && v.same v' && s == s' && c == c'

def Expression.sameList : List Expression → List Expression → Bool
  | [], [] => true
  | e :: es, e' :: es' => e.same e' && Expression.sameList es es'
  | _, _ => false

def Property.sameList : List Property → List Property → Bool
  | [], [] => true
  | p :: ps, p' :: ps' => p.same p' && Property.sameList ps ps'
  | _, _ => false

end

end Exclaim
