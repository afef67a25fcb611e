import Exclaim.Proofs.Number.DigitRun
import Exclaim.Proofs.Parse.StockGrammar
import Exclaim.Proofs.Tree.Unplaced

/-! Chains of operands and binary operators. The powers of the operators decide how far an
expression reaches and how it is grouped: looser operators stand nearer to the root, and equal
ones group to the left. -/
namespace Exclaim

/-- The power of a token that stands between two operands. -/
def operatorPower? (t : Token) : Option Power :=
  match Grammar.stock.joining? t with
  | some (.binary, power) => some power
  | _ => none

lemma operatorPower?_eq_some {t : Token} {power : Power} :
    operatorPower? t = some power ↔ Grammar.stock.joining? t = some (.binary, power) := by
  unfold operatorPower?
  split <;> simp_all

/-- Whether a token is an operand by itself: a run of digits, a text, or a word that does not ask
for the history of a variable. -/
def IsOperand (t : Token) : Prop :=
  (t.kind = .number ∧ IsDigitRun t.value) ∨ t.kind = .string ∨
    (t.kind = .identifier ∧ t.value ∉ Grammar.stateWords)

/-- The expression that an operand spells. -/
def leafOf (t : Token) : Expression :=
  match t.kind with
  | .number => .number (digitRunValue t.value)
  | .string => .string t.value
  | _ => .symbol t.value

/-- A binary operator with the operand behind it. -/
structure Link where
  operator : Token
  power : Power
  isBinary : operatorPower? operator = some power
  operand : Token
  isOperand : IsOperand operand

namespace Link

def tokens (links : List Link) : List Token := links.flatMap fun l => [l.operator, l.operand]

def items (links : List Link) : List (Expression ⊕ Token) :=
  links.flatMap fun l => [.inr l.operator, .inl (leafOf l.operand)]

/-- Whether the operator of a link binds tighter than a limit. -/
def exceeds (limit : Power) (l : Link) : Bool := decide (limit < l.power)

end Link

namespace Expression

/-- The operands and operators of a tree of binary nodes, from left to right. -/
def inOrder : Expression → List (Expression ⊕ Token)
  | .binary left operator right => left.inOrder ++ .inr operator :: right.inOrder
  | e => [.inl e]

/-- The power of the operator at the root of a binary node. -/
def rootPower? : Expression → Option Power
  | .binary _ operator _ => operatorPower? operator
  | _ => none

/-- At every binary node a binary left child binds at least as tight as the node, and a binary
right child binds tighter. -/
def Grouped : Expression → Prop
  | .binary left operator right =>
      ∃ power, operatorPower? operator = some power ∧
        (∀ p ∈ left.rootPower?, power.rank ≤ p.rank) ∧
        (∀ p ∈ right.rootPower?, power.rank < p.rank) ∧ left.Grouped ∧ right.Grouped
  | _ => True

lemma binary_or_inOrder_eq (e : Expression) :
    (∃ left operator right, e = .binary left operator right) ∨ e.inOrder = [.inl e] := by
  cases e <;> simp [inOrder]

lemma inOrder_ne_nil (e : Expression) : e.inOrder ≠ [] := by
  cases e <;> simp [inOrder]

lemma inOrder_binary_ne_singleton (left : Expression) (operator : Token) (right : Expression)
    (x : Expression ⊕ Token) : (Expression.binary left operator right).inOrder ≠ [x] := by
  intro h
  have hl := List.length_pos_iff.2 left.inOrder_ne_nil
  have hr := List.length_pos_iff.2 right.inOrder_ne_nil
  have := congrArg List.length h
  simp only [inOrder, List.length_append, List.length_cons, List.length_nil] at this
  omega

/-- A bound that the root of a grouped tree keeps is kept by all its operators. -/
lemma Grouped.le_power {e : Expression} (h : e.Grouped) (bound : Nat)
    (hb : ∀ p ∈ e.rootPower?, bound ≤ p.rank) {operator : Token} {power : Power}
    (ho : .inr operator ∈ e.inOrder) (hp : operatorPower? operator = some power) :
    bound ≤ power.rank := by
  fun_induction inOrder e with
  | case1 left own right ihl ihr =>
    obtain ⟨root, hroot, hleft, hright, hl, hr⟩ := h
    have hbr : bound ≤ root.rank := hb root hroot
    rcases List.mem_append.1 ho with ho | ho
    · exact ihl hl (fun p hp => Nat.le_trans hbr (hleft p hp)) ho
    rcases List.mem_cons.1 ho with ho | ho
    · obtain rfl := Sum.inr.inj ho
      exact hb power hp
    · exact ihr hr (fun p hp => Nat.le_trans hbr (Nat.le_of_lt (hright p hp))) ho
  | case2 e hne => simp at ho

/-- Two grouped trees that agree from left to right split at the same operator: one that stood
further right in the first would bind tighter there, and no tighter in the second. -/
lemma Grouped.split {l r l' r' : Expression} {op op' : Token} {mid : List (Expression ⊕ Token)}
    (h : (Expression.binary l op r).Grouped) (h' : (Expression.binary l' op' r').Grouped)
    (hl : l'.inOrder = l.inOrder ++ mid)
    (hr : .inr op :: r.inOrder = mid ++ .inr op' :: r'.inOrder) : mid = [] := by
  obtain ⟨p, hp, -, hright, -, hgr⟩ := h
  obtain ⟨p', hp', hleft, -, hgl', -⟩ := h'
  cases mid with
  | nil => rfl
  | cons x mid =>
    obtain ⟨rfl, hrest⟩ := List.cons.inj hr
    have hlt : p.rank < p'.rank :=
      hgr.le_power (p.rank + 1) hright (by simp [hrest]) hp'
    have hle : p'.rank ≤ p.rank := hgl'.le_power p'.rank hleft (by simp [hl]) hp
    omega

/-- The order of its leaves and operators determines a grouped tree. -/
lemma Grouped.eq_of_inOrder {e e' : Expression} (h : e.Grouped) (h' : e'.Grouped)
    (he : e.inOrder = e'.inOrder) : e = e' := by
  fun_induction inOrder e generalizing e' with
  | case1 l op r ihl ihr =>
    rcases e'.binary_or_inOrder_eq with ⟨l', op', r', rfl⟩ | hleaf
    · have hroot : l.inOrder = l'.inOrder ∧ .inr op :: r.inOrder = .inr op' :: r'.inOrder := by
        rcases List.append_eq_append_iff.1 he with ⟨mid, hl, hr⟩ | ⟨mid, hl, hr⟩
        · obtain rfl := h.split h' hl hr
          exact ⟨by simpa using hl.symm, hr⟩
        · obtain rfl := h'.split h hl hr
          exact ⟨by simpa using hl, hr.symm⟩
      obtain ⟨p, hp, -, -, hgl, hgr⟩ := h
      obtain ⟨p', hp', -, -, hgl', hgr'⟩ := h'
      obtain ⟨hop, hrr⟩ := List.cons.inj hroot.2
      rw [ihl hgl hgl' hroot.1, Sum.inr.inj hop, ihr hgr hgr' hrr]
    · rw [hleaf] at he
      exact absurd he (inOrder_binary_ne_singleton _ _ _ _)
  | case2 e hne =>
    rcases e'.binary_or_inOrder_eq with ⟨l', op', r', rfl⟩ | hleaf
    · exact absurd he.symm (inOrder_binary_ne_singleton _ _ _ _)
    · simpa [hleaf] using he

end Expression

section Leaves
variable (t : Token)

@[simp] lemma inOrder_leafOf : (leafOf t).inOrder = [.inl (leafOf t)] := by
  unfold leafOf
  split <;> rfl

@[simp] lemma rootPower?_leafOf : (leafOf t).rootPower? = none := by
  unfold leafOf
  split <;> rfl

lemma grouped_leafOf : (leafOf t).Grouped := by
  unfold leafOf
  split <;> exact trivial

end Leaves

namespace Link

lemma exceeds_trans {limit power : Power} (h : limit < power) {l : Link} (hl : l.exceeds power) :
    l.exceeds limit :=
  decide_eq_true (Nat.lt_trans h (of_decide_eq_true hl))

/-- What binds tighter than a power is cut off first, then what binds tighter than a limit below
it: together that is all that binds tighter than the limit. -/
lemma takeWhile_exceeds {limit power : Power} (h : limit < power) (links : List Link) :
    links.takeWhile (exceeds power) ++ (links.dropWhile (exceeds power)).takeWhile (exceeds limit) =
      links.takeWhile (exceeds limit) := by
  induction links with
  | nil => rfl
  | cons l links ih =>
    by_cases hl : l.exceeds power
    · simp [hl, exceeds_trans h hl, ih]
    · simp [hl]

lemma dropWhile_exceeds {limit power : Power} (h : limit < power) (links : List Link) :
    (links.dropWhile (exceeds power)).dropWhile (exceeds limit) =
      links.dropWhile (exceeds limit) := by
  induction links with
  | nil => rfl
  | cons l links ih =>
    by_cases hl : l.exceeds power
    · simp [hl, exceeds_trans h hl, ih]
    · simp [hl]

/-- The first link that is not cut off binds no tighter than the power. -/
lemma power_le_of_head?_dropWhile {power : Power} {links : List Link} {l : Link}
    (h : l ∈ (links.dropWhile (exceeds power)).head?) : l.power.rank ≤ power.rank := by
  have hn := List.head?_dropWhile_not (exceeds power) links
  rw [show (links.dropWhile (exceeds power)).head? = some l from h] at hn
  exact Nat.le_of_not_lt (of_decide_eq_false hn)

lemma tokens_takeWhile_append (p : Link → Bool) (links : List Link) :
    tokens (links.takeWhile p) ++ tokens (links.dropWhile p) = tokens links := by
  rw [tokens, tokens, ← List.flatMap_append, List.takeWhile_append_dropWhile, tokens]

@[simp] lemma length_tokens (links : List Link) : (tokens links).length = 2 * links.length := by
  induction links with
  | nil => rfl
  | cons l links ih => simp [tokens] at ih ⊢; omega

lemma length_dropWhile_le (p : Link → Bool) (links : List Link) :
    (links.dropWhile p).length ≤ links.length := (List.dropWhile_sublist p).length_le

end Link

namespace Parse

variable {limit : Power} {t : Token} {ts tail : List Token} {e : Expression} {Q : Cursor → Prop}

lemma opening?_operand (h : IsOperand t) :
    Grammar.stock.opening? t = some (.primary, .primary) := by
  rcases h with ⟨hk, -⟩ | hk | ⟨hk, hw⟩
  · exact Grammar.opening?_of_kind hk (by decide) rfl
  · exact Grammar.opening?_of_kind hk (by decide) rfl
  · exact Grammar.opening?_word hk hw

lemma reads_primary (h : IsOperand t) : Reads (Ahead (t :: ts)) primary (leafOf t) (Ahead ts) := by
  unfold primary leafOf
  rcases h with ⟨hk, hd⟩ | hk | ⟨hk, hw⟩
  · refine (reads_expect (by simp [hk])).bind ?_
    simp only [hk, readNumber?_digitRun hd]
    exact .pure _
  · refine (reads_expect (by simp [hk])).bind ?_
    simp only [hk]
    exact .pure _
  · refine (reads_expect (by simp [hk])).bind ?_
    simp only [hk]
    exact .pure _

lemma reads_operand {n : Nat} (h : IsOperand t)
    (hc : Reads (Ahead ts) (climb .stock (expression .stock n) limit n (leafOf t)) e Q) :
    Reads (Ahead (t :: ts)) (expression .stock (n + 1) limit) e Q :=
  reads_expression (opening?_operand h) (reads_primary h).before hc

/-- A grouped tree of what was read before and of all links that bind tighter than the limit. -/
structure Chained (limit : Power) (before : List (Expression ⊕ Token)) (links : List Link)
    (e : Expression) : Prop where
  inOrder : e.inOrder = before ++ Link.items (links.takeWhile (Link.exceeds limit))
  grouped : e.Grouped
  root : ∀ p ∈ e.rootPower?, limit < p

/-- The climb takes up one operator after the other. The invariant is that the tree so far binds at
least as tight as the operator that comes next: its own operator was passed only when all that
binds tighter had gone into the right operand. -/
lemma reads_climb_links (links : List Link) (tail : List Token)
    (htail : ∀ t ∈ tail.head?, Grammar.stock.joining? t = none) (left : Expression) (limit : Power)
    (n m : Nat) (hn : (Link.tokens links ++ tail).length < n)
    (hm : (Link.tokens links ++ tail).length < m) (hleft : left.Grouped)
    (hroot : ∀ p ∈ left.rootPower?, limit < p ∧ ∀ l ∈ links.head?, l.power.rank ≤ p.rank) :
    ∃ e, Reads (Ahead (Link.tokens links ++ tail))
        (climb .stock (expression .stock m) limit n left) e
        (Before (Link.tokens (links.dropWhile (Link.exceeds limit)) ++ tail)) ∧
      Chained limit left.inOrder links e := by
  induction hk : links.length using Nat.strong_induction_on generalizing links left limit n m with
  | _ k ih =>
  obtain ⟨n, rfl⟩ := Nat.exists_eq_add_one_of_ne_zero (Nat.ne_zero_of_lt hn)
  cases links with
  | nil =>
    exact ⟨left, reads_climb_stop (stops_of_none htail), by simp [Link.items], hleft,
      fun p hp => (hroot p hp).1⟩
  | cons l rest =>
    have hj := operatorPower?_eq_some.1 l.isBinary
    have htokens : Link.tokens (l :: rest) ++ tail =
      l.operator :: l.operand :: (Link.tokens rest ++ tail) := rfl
    rw [htokens] at hn hm ⊢
    simp only [List.length_cons] at hn hm hk
    by_cases hp : limit < l.power
    · have hex : l.exceeds limit := decide_eq_true hp
      obtain ⟨m, rfl⟩ := Nat.exists_eq_add_one_of_ne_zero (Nat.ne_zero_of_lt hm)
      obtain ⟨right, hright, hr⟩ := ih rest.length (by omega) rest (leafOf l.operand) l.power m m
        (by omega) (by omega) (grouped_leafOf _) (by simp) rfl
      have hjoin : Reads (Before (l.operator :: l.operand :: (Link.tokens rest ++ tail)))
          (joining (expression .stock (m + 1)) n left l.power .binary)
          (.binary left l.operator right)
          (Ahead (Link.tokens (rest.dropWhile (Link.exceeds l.power)) ++ tail)) :=
        reads_pass.bind ((reads_operand l.isOperand hright).ahead.bind (.pure _))
      have hlen := Link.length_dropWhile_le (Link.exceeds l.power) rest
      simp only [List.length_append, Link.length_tokens] at hn hm
      obtain ⟨e, he, hc⟩ := ih (rest.dropWhile (Link.exceeds l.power)).length (by omega)
        (rest.dropWhile (Link.exceeds l.power)) (.binary left l.operator right) limit n (m + 1)
        (by simp only [List.length_append, Link.length_tokens]; omega)
        (by simp only [List.length_append, Link.length_tokens]; omega)
        ⟨l.power, l.isBinary, fun p hp => (hroot p hp).2 l rfl, hr.root, hleft, hr.grouped⟩
        (by
          intro p hroot'
          obtain rfl : l.power = p := Option.some.inj (l.isBinary.symm.trans hroot')
          exact ⟨hp, fun _ => Link.power_le_of_head?_dropWhile⟩) rfl
      refine ⟨e, ?_, ?_, hc.grouped, hc.root⟩
      · rw [Link.dropWhile_exceeds hp] at he
        rw [List.dropWhile_cons, if_pos hex]
        exact reads_climb_step hj hp hjoin he
      · rw [hc.inOrder, List.takeWhile_cons, if_pos hex, ← Link.takeWhile_exceeds hp rest]
        simp [Expression.inOrder, hr.inOrder, Link.items]
    · have hex : l.exceeds limit = false := decide_eq_false hp
      refine ⟨left, ?_, by simp [hex, Link.items], hleft, fun p hp => (hroot p hp).1⟩
      simp only [List.dropWhile_cons, hex]
      refine reads_climb_stop fun t ht rule power ht' => ?_
      obtain rfl : l.operator = t := by simpa using ht
      rw [hj] at ht'
      obtain ⟨-, rfl⟩ := Prod.mk.inj (Option.some.inj ht')
      exact hp

end Parse

/-- An expression reaches over all operators before the first that binds no tighter than the limit,
whatever layout stands between the tokens. From left to right its tree holds what was read, and no
other tree with the same order of operands and operators is grouped by their powers. -/
theorem parseExpression_chain (s : ParseState) (limit : Power) (first : Token)
    (hfirst : IsOperand first) (links : List Link) (tail : List Token)
    (htail : ∀ t ∈ tail.head?, Grammar.stock.joining? t = none)
    (hs : s.cursor.ahead = first :: (Link.tokens links ++ tail)) :
    ∃ e s', (parseExpression .stock limit).run s = (.ok e, s') ∧
      (∃ used, s.cursor.upcoming = used ++ s'.cursor.upcoming ∧
        used.filter (!·.kind.isIgnorable) =
          first :: Link.tokens (links.takeWhile (Link.exceeds limit))) ∧
      s'.cursor.ahead = Link.tokens (links.dropWhile (Link.exceeds limit)) ++ tail ∧
      e.inOrder = .inl (leafOf first) :: Link.items (links.takeWhile (Link.exceeds limit)) ∧
      e.Grouped ∧ ∀ e', e'.Grouped → e'.inOrder = e.inOrder → e' = e := by
  have hn := s.cursor.length_ahead_le
  rw [hs, List.length_cons] at hn
  obtain ⟨e, hreads, hchain⟩ := Parse.reads_climb_links links tail htail (leafOf first) limit
    (s.cursor.remaining + 1) (s.cursor.remaining + 1) (by omega) (by omega) (grouped_leafOf _)
    (by simp)
  obtain ⟨s', hrun, hleads, hahead, -⟩ := Parse.reads_operand hfirst hreads s hs
  obtain ⟨used, hused, hfilter⟩ := hleads.passed
  refine ⟨e, s', (Parse.run_budget_bind _ s).trans hrun, ⟨used, hused, ?_⟩, hahead, ?_,
    hchain.grouped, fun e' he' ho => he'.eq_of_inOrder hchain.grouped ho⟩
  · rw [hs, hahead, ← Link.tokens_takeWhile_append (Link.exceeds limit) links,
      List.append_assoc] at hfilter
    exact (List.append_cancel_right hfilter).symm
  · simpa using hchain.inOrder

/-- `1 - x * 2 == y` above equality: the product binds tighter, and the comparison is left over. -/
theorem parseExpression_chain_above_equality :
    let one : Token := .plain .number "1"
    let minus : Token := .plain .subtract "-"
    let x : Token := .plain .identifier "x"
    let times : Token := .plain .multiply "*"
    let two : Token := .plain .number "2"
    let same : Token := .plain .equals "=="
    let y : Token := .plain .identifier "y"
    let gap : Token := .plain .whiteSpace "1"
    ∃ e s', (parseExpression .stock .equality).run (.ofTokens
        [one, gap, minus, gap, x, gap, times, gap, two, gap, same, gap, y]) = (.ok e, s') ∧
      s'.cursor.ahead = [same, y] ∧
      e.inOrder = [.inl (leafOf one), .inr minus, .inl (leafOf x), .inr times, .inl (leafOf two)] ∧
      e.Grouped := by
  intro one minus x times two same y gap
  have hx : IsOperand x := .inr (.inr ⟨rfl, by decide⟩)
  have htwo : IsOperand two := .inl ⟨rfl, by decide⟩
  have hy : IsOperand y := .inr (.inr ⟨rfl, by decide⟩)
  obtain ⟨e, s', hrun, -, hahead, horder, hgrouped, -⟩ := parseExpression_chain
    (.ofTokens [one, gap, minus, gap, x, gap, times, gap, two, gap, same, gap, y]) .equality
    one (.inl ⟨rfl, by decide⟩)
    [⟨minus, .additive, rfl, x, hx⟩, ⟨times, .multiplicative, rfl, two, htwo⟩,
      ⟨same, .equality, rfl, y, hy⟩] [] (by simp) rfl
  exact ⟨e, s', hrun, hahead, horder, hgrouped⟩

end Exclaim
