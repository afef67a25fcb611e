import Exclaim.Proofs.Json.Compact
import Exclaim.Proofs.Tree.Nodes
import Exclaim.Proofs.Tree.Unplaced
import Exclaim.Tree.Json

/-! The JSON form of trees is unambiguous: it leaves out places and nothing else. -/
namespace Exclaim

lemma TokenKind.name_inj {kind kind' : TokenKind} (h : kind.name = kind'.name) : kind = kind' := by
  have hall : ∀ k ∈ TokenKind.all, ∀ k' ∈ TokenKind.all, k.name = k'.name → k = k' := by
    decide +kernel
  have hmem : ∀ k : TokenKind, k ∈ TokenKind.all := by
    intro k
    cases k <;> decide
  exact hall kind (hmem kind) kind' (hmem kind') h

lemma NodeKind.name_inj {kind kind' : NodeKind} (h : kind.name = kind'.name) : kind = kind' := by
  have hall : ∀ k ∈ NodeKind.all, ∀ k' ∈ NodeKind.all, k.name = k'.name → k = k' := by
    decide +kernel
  exact hall kind kind.mem_all kind' kind'.mem_all h

@[simp] lemma NodeKind.tagged_inj {kind kind' : NodeKind} {fields fields' : List (String × Json)} :
    kind.tagged fields = kind'.tagged fields' ↔ kind = kind' ∧ fields = fields' := by
  simp only [NodeKind.tagged, Json.record.injEq, List.cons.injEq, Prod.mk.injEq, true_and,
    Json.text.injEq]
  exact ⟨fun h => ⟨NodeKind.name_inj h.1, h.2⟩, fun h => ⟨congrArg _ h.1, h.2⟩⟩

/-- A value carries at most one tag. -/
lemma NodeKind.eq_of_tagged {kind kind' : NodeKind} {j : Json}
    (h : ∃ fields, j = kind.tagged fields) (h' : ∃ fields, j = kind'.tagged fields) :
    kind = kind' := by
  obtain ⟨fields, rfl⟩ := h
  obtain ⟨fields', hfields⟩ := h'
  exact (NodeKind.tagged_inj.1 hfields).1

/-- An optional field is there when it has a value. -/
lemma Json.optionalField_inj {name : String} {value value' : Option Json} :
    Json.optionalField name value = Json.optionalField name value' ↔ value = value' := by
  cases value <;> cases value' <;> simp [Json.optionalField]

lemma Token.unplaced_eq_of_toJson_eq {t t' : Token} (h : t.toJson = t'.toJson) :
    t.unplaced = t'.unplaced := by
  simp only [Token.toJson, List.cons_append, List.nil_append, Json.record.injEq, List.cons.injEq,
    Prod.mk.injEq, Json.text.injEq, true_and, Json.optionalField_inj] at h
  obtain ⟨hvalue, hkind, hoperation⟩ := h
  refine Token.unplaced_eq_iff.2 ⟨TokenKind.name_inj hkind, hvalue, ?_⟩
  refine Option.map_injective (fun k k' hk => ?_) hoperation
  exact TokenKind.name_inj (Json.text.inj hk)

lemma Lifetime.toJson_inj {l l' : Lifetime} (h : l.toJson = l'.toJson) : l = l' := by
  obtain ⟨duration, unit⟩ := l
  obtain ⟨duration', unit'⟩ := l'
  simp only [Lifetime.toJson, Json.record.injEq, List.cons.injEq, Prod.mk.injEq,
    Json.number.injEq, Json.text.injEq, true_and, and_true] at h
  obtain ⟨rfl, hunit⟩ := h
  cases unit <;> cases unit' <;> simp_all [LifetimeUnit.name]

lemma Modifiers.toJson_inj {m m' : Modifiers} (h : m.toJson = m'.toJson) : m = m' := by
  obtain ⟨canReassign, canMutate⟩ := m
  obtain ⟨canReassign', canMutate'⟩ := m'
  simpa [Modifiers.toJson] using h

lemma Parameter.unplaced_eq_of_toJson_eq {p p' : Parameter} (h : p.toJson = p'.toJson) :
    p.unplaced = p'.unplaced := by
  obtain ⟨identifier, lifetime⟩ := p
  obtain ⟨identifier', lifetime'⟩ := p'
  simp only [Parameter.toJson, Json.record.injEq, List.cons.injEq, Prod.mk.injEq, true_and,
    Json.optionalField_inj] at h
  obtain ⟨hidentifier, hlifetime⟩ := h
  obtain rfl : lifetime = lifetime' :=
    Option.map_injective (fun l l' hl => Lifetime.toJson_inj hl) hlifetime
  simp [Parameter.unplaced, Token.unplaced_eq_of_toJson_eq hidentifier]

lemma Expression.exists_tagged (e : Expression) : ∃ fields, e.toJson = e.kind.tagged fields := by
  cases e <;> exact ⟨_, rfl⟩

lemma Expression.kind_eq_of_toJson_eq {e e' : Expression} (h : e.toJson = e'.toJson) :
    e.kind = e'.kind :=
  NodeKind.eq_of_tagged e.exists_tagged (h ▸ e'.exists_tagged)

lemma Statement.exists_tagged (s : Statement) : ∃ fields, s.toJson = s.kind.tagged fields := by
  cases s <;> exact ⟨_, rfl⟩

lemma Statement.kind_eq_of_toJson_eq {s s' : Statement} (h : s.toJson = s'.toJson) :
    s.kind = s'.kind :=
  NodeKind.eq_of_tagged s.exists_tagged (h ▸ s'.exists_tagged)

mutual

lemma Expression.unplaced_eq_of_toJson_eq : ∀ {e e' : Expression}, e.toJson = e'.toJson →
    e.unplaced = e'.unplaced
  | .assignment target value, e', h => by
      have hkind := Expression.kind_eq_of_toJson_eq h
      cases e' with
      | assignment target' value' =>
        simp only [Expression.toJson, NodeKind.tagged_inj, List.cons.injEq, Prod.mk.injEq, true_and,
          and_true] at h
        simp [Expression.unplaced, Reference.unplaced_eq_of_toJson_eq h.1,
          Expression.unplaced_eq_of_toJson_eq h.2]
      | _ => exact NodeKind.noConfusion hkind
  | .unary operator operand, e', h => by
      have hkind := Expression.kind_eq_of_toJson_eq h
      cases e' with
      | unary operator' operand' =>
        simp only [Expression.toJson, NodeKind.tagged_inj, List.cons.injEq, Prod.mk.injEq, true_and,
          and_true] at h
        simp [Expression.unplaced, Token.unplaced_eq_of_toJson_eq h.1,
          Expression.unplaced_eq_of_toJson_eq h.2]
      | _ => exact NodeKind.noConfusion hkind
  | .state operator argument, e', h => by
      have hkind := Expression.kind_eq_of_toJson_eq h
      cases e' with
      | state operator' argument' =>
        simp only [Expression.toJson, NodeKind.tagged_inj, List.cons.injEq, Prod.mk.injEq, true_and,
          and_true] at h
        simp [Expression.unplaced, Token.unplaced_eq_of_toJson_eq h.1,
          Reference.unplaced_eq_of_toJson_eq h.2]
      | _ => exact NodeKind.noConfusion hkind
  | .binary left operator right, e', h => by
      have hkind := Expression.kind_eq_of_toJson_eq h
      cases e' with
      | binary left' operator' right' =>
        simp only [Expression.toJson, NodeKind.tagged_inj, List.cons.injEq, Prod.mk.injEq, true_and,
          and_true] at h
        obtain ⟨hleft, hoperator, hright⟩ := h
        simp [Expression.unplaced, Expression.unplaced_eq_of_toJson_eq hleft,
          Token.unplaced_eq_of_toJson_eq hoperator, Expression.unplaced_eq_of_toJson_eq hright]
      | _ => exact NodeKind.noConfusion hkind
  | .number value, e', h => by
      have hkind := Expression.kind_eq_of_toJson_eq h
      cases e' with
      | number value' =>
        simp only [Expression.toJson, NodeKind.tagged_inj, List.cons.injEq, Prod.mk.injEq, true_and,
          and_true, Json.number.injEq] at h
        rw [h]
      | _ => exact NodeKind.noConfusion hkind
  | .string value, e', h => by
      have hkind := Expression.kind_eq_of_toJson_eq h
      cases e' with
      | string value' =>
        simp only [Expression.toJson, NodeKind.tagged_inj, List.cons.injEq, Prod.mk.injEq, true_and,
          and_true, Json.text.injEq] at h
        rw [h]
      | _ => exact NodeKind.noConfusion hkind
  | .symbol name, e', h => by
      have hkind := Expression.kind_eq_of_toJson_eq h
      cases e' with
      | symbol name' =>
        simp only [Expression.toJson, NodeKind.tagged_inj, List.cons.injEq, Prod.mk.injEq, true_and,
          and_true, Json.text.injEq] at h
        rw [h]
      | _ => exact NodeKind.noConfusion hkind
  | .object properties, e', h => by
      have hkind := Expression.kind_eq_of_toJson_eq h
      cases e' with
      | object properties' =>
        simp only [Expression.toJson, NodeKind.tagged_inj, List.cons.injEq, Prod.mk.injEq, true_and,
          and_true, Json.list.injEq] at h
        simp [Expression.unplaced, Property.unplacedList_eq_of_toJson_eq h]
      | _ => exact NodeKind.noConfusion hkind
  | .array elements, e', h => by
      have hkind := Expression.kind_eq_of_toJson_eq h
      cases e' with
      | array elements' =>
        simp only [Expression.toJson, NodeKind.tagged_inj, List.cons.injEq, Prod.mk.injEq, true_and,
          and_true, Json.list.injEq] at h
        simp [Expression.unplaced, Expression.unplacedList_eq_of_toJson_eq h]
      | _ => exact NodeKind.noConfusion hkind
  | .member object property computed, e', h => by
      have hkind := Expression.kind_eq_of_toJson_eq h
      cases e' with
      | member object' property' computed' =>
        simp only [Expression.toJson, NodeKind.tagged_inj, List.cons.injEq, Prod.mk.injEq, true_and,
          and_true, Json.boolean.injEq] at h
        obtain ⟨hobject, hproperty, hcomputed⟩ := h
        simp [Expression.unplaced, Expression.unplaced_eq_of_toJson_eq hobject,
          Expression.unplaced_eq_of_toJson_eq hproperty, hcomputed]
      | _ => exact NodeKind.noConfusion hkind
  | .call callee arguments, e', h => by
      have hkind := Expression.kind_eq_of_toJson_eq h
      cases e' with
      | call callee' arguments' =>
        simp only [Expression.toJson, NodeKind.tagged_inj, List.cons.injEq, Prod.mk.injEq, true_and,
          and_true, Json.list.injEq] at h
        simp [Expression.unplaced, Expression.unplaced_eq_of_toJson_eq h.1,
          Expression.unplacedList_eq_of_toJson_eq h.2]
      | _ => exact NodeKind.noConfusion hkind
  | .branching branches, e', h => by
      have hkind := Expression.kind_eq_of_toJson_eq h
      cases e' with
      | branching branches' =>
        simp only [Expression.toJson, NodeKind.tagged_inj, List.cons.injEq, Prod.mk.injEq, true_and,
          and_true, Json.list.injEq] at h
        simp [Expression.unplaced, Expression.unplacedList_eq_of_toJson_eq h]
      | _ => exact NodeKind.noConfusion hkind

lemma Reference.unplaced_eq_of_toJson_eq : ∀ {r r' : Reference}, r.toJson = r'.toJson →
    r.unplaced = r'.unplaced
  | .symbol name, .symbol name', h => by
      simp only [Reference.toJson, NodeKind.tagged_inj, List.cons.injEq, Prod.mk.injEq, true_and,
        and_true, Json.text.injEq] at h
      rw [h]
  | .member object property computed, .member object' property' computed', h => by
      simp only [Reference.toJson, NodeKind.tagged_inj, List.cons.injEq, Prod.mk.injEq, true_and,
        and_true, Json.boolean.injEq] at h
      obtain ⟨hobject, hproperty, hcomputed⟩ := h
      simp [Reference.unplaced, Expression.unplaced_eq_of_toJson_eq hobject,
        Expression.unplaced_eq_of_toJson_eq hproperty, hcomputed]
  | .symbol _, .member .., h | .member .., .symbol _, h => by simp [Reference.toJson] at h

lemma Property.unplaced_eq_of_toJson_eq : ∀ {p p' : Property}, p.toJson = p'.toJson →
    p.unplaced = p'.unplaced
  | .mk key value shorthand computed, .mk key' value' shorthand' computed', h => by
      simp only [Property.toJson, Json.record.injEq, List.cons.injEq, Prod.mk.injEq, true_and,
        and_true, Json.boolean.injEq] at h
      obtain ⟨hkey, hvalue, hshorthand, hcomputed⟩ := h
      simp [Property.unplaced, Expression.unplaced_eq_of_toJson_eq hkey,
        Expression.unplaced_eq_of_toJson_eq hvalue, hshorthand, hcomputed]

lemma Expression.unplacedList_eq_of_toJson_eq : ∀ {es es' : List Expression},
    Expression.listToJson es = Expression.listToJson es' →
      Expression.unplacedList es = Expression.unplacedList es'
  | [], [], _ => rfl
  | e :: es, e' :: es', h => by
      obtain ⟨hhead, htail⟩ := List.cons.inj h
      simp [Expression.unplacedList, Expression.unplaced_eq_of_toJson_eq hhead,
        Expression.unplacedList_eq_of_toJson_eq htail]
  | [], _ :: _, h | _ :: _, [], h => by simp [Expression.listToJson] at h

lemma Property.unplacedList_eq_of_toJson_eq : ∀ {ps ps' : List Property},
    Property.listToJson ps = Property.listToJson ps' →
      Property.unplacedList ps = Property.unplacedList ps'
  | [], [], _ => rfl
  | p :: ps, p' :: ps', h => by
      obtain ⟨hhead, htail⟩ := List.cons.inj h
      simp [Property.unplacedList, Property.unplaced_eq_of_toJson_eq hhead,
        Property.unplacedList_eq_of_toJson_eq htail]
  | [], _ :: _, h | _ :: _, [], h => by simp [Property.listToJson] at h

end

lemma Parameter.unplaced_eq_of_map_toJson_eq : ∀ {ps ps' : List Parameter},
    ps.map Parameter.toJson = ps'.map Parameter.toJson →
      ps.map Parameter.unplaced = ps'.map Parameter.unplaced
  | [], [], _ => rfl
  | p :: ps, p' :: ps', h => by
      obtain ⟨hhead, htail⟩ := List.cons.inj h
      simp [Parameter.unplaced_eq_of_toJson_eq hhead, unplaced_eq_of_map_toJson_eq htail]
  | [], _ :: _, h | _ :: _, [], h => by simp at h

/-- The two optional fields of a declaration have names of their own. -/
lemma optionalFields_inj {value value' lifetime lifetime' : Option Json}
    (h : Json.optionalField "value" value ++ Json.optionalField "lifetime" lifetime =
      Json.optionalField "value" value' ++ Json.optionalField "lifetime" lifetime') :
    value = value' ∧ lifetime = lifetime' := by
  cases value <;> cases value' <;> cases lifetime <;> cases lifetime' <;>
    simp_all [Json.optionalField]

lemma Expression.map_unplaced_eq_of_toJson_eq {value value' : Option Expression}
    (h : value.map Expression.toJson = value'.map Expression.toJson) :
    value.map Expression.unplaced = value'.map Expression.unplaced := by
  cases value <;> cases value' <;> simp at h ⊢
  exact Expression.unplaced_eq_of_toJson_eq h

mutual

lemma Statement.unplaced_eq_of_toJson_eq : ∀ {s s' : Statement}, s.toJson = s'.toJson →
    s.unplaced = s'.unplaced
  | .expression e, s', h => by
      have hkind := Statement.kind_eq_of_toJson_eq h
      cases s' with
      | expression e' =>
        simp only [Statement.toJson, NodeKind.tagged_inj, List.cons.injEq, Prod.mk.injEq, true_and,
          and_true] at h
        simp [Statement.unplaced, Expression.unplaced_eq_of_toJson_eq h]
      | _ => exact NodeKind.noConfusion hkind
  | .block body, s', h => by
      have hkind := Statement.kind_eq_of_toJson_eq h
      cases s' with
      | block body' =>
        simp only [Statement.toJson, NodeKind.tagged_inj, List.cons.injEq, Prod.mk.injEq, true_and,
          and_true, Json.list.injEq] at h
        simp [Statement.unplaced, Statement.unplacedList_eq_of_toJson_eq h]
      | _ => exact NodeKind.noConfusion hkind
  | .variableDeclaration name modifiers value lifetime, s', h => by
      have hkind := Statement.kind_eq_of_toJson_eq h
      cases s' with
      | variableDeclaration name' modifiers' value' lifetime' =>
        simp only [Statement.toJson, NodeKind.tagged_inj, List.cons.injEq, Prod.mk.injEq, true_and,
          List.cons_append, List.nil_append, Json.text.injEq] at h
        obtain ⟨rfl, hmodifiers, hoptional⟩ := h
        obtain ⟨hvalue, hlifetime⟩ := optionalFields_inj hoptional
        obtain rfl : lifetime = lifetime' :=
          Option.map_injective (fun l l' hl => Lifetime.toJson_inj hl) hlifetime
        simp [Statement.unplaced, Modifiers.toJson_inj hmodifiers,
          Expression.map_unplaced_eq_of_toJson_eq hvalue]
      | _ => exact NodeKind.noConfusion hkind
  | .functionDeclaration identifier parameters isAsync body, s', h => by
      have hkind := Statement.kind_eq_of_toJson_eq h
      cases s' with
      | functionDeclaration identifier' parameters' isAsync' body' =>
        simp only [Statement.toJson, NodeKind.tagged_inj, List.cons.injEq, Prod.mk.injEq, true_and,
          and_true, Json.list.injEq, Json.boolean.injEq] at h
        obtain ⟨hidentifier, hparameters, hasync, hbody⟩ := h
        simp [Statement.unplaced, Token.unplaced_eq_of_toJson_eq hidentifier,
          Parameter.unplaced_eq_of_map_toJson_eq hparameters, hasync,
          FunctionBody.unplaced_eq_of_toJson_eq hbody]
      | _ => exact NodeKind.noConfusion hkind
  | .returning argument, s', h => by
      have hkind := Statement.kind_eq_of_toJson_eq h
      cases s' with
      | returning argument' =>
        simp only [Statement.toJson, NodeKind.tagged_inj, List.cons.injEq, Prod.mk.injEq, true_and,
          and_true] at h
        simp [Statement.unplaced, Expression.unplaced_eq_of_toJson_eq h]
      | _ => exact NodeKind.noConfusion hkind
  | .conditional branch, s', h => by
      have hkind := Statement.kind_eq_of_toJson_eq h
      cases s' with
      | conditional branch' =>
        simp only [Statement.toJson, NodeKind.tagged_inj, true_and] at h
        simp [Statement.unplaced, Conditional.unplaced_eq_of_fields_eq h]
      | _ => exact NodeKind.noConfusion hkind
  | .when test consequent, s', h => by
      have hkind := Statement.kind_eq_of_toJson_eq h
      cases s' with
      | when test' consequent' =>
        simp only [Statement.toJson, NodeKind.tagged_inj, List.cons.injEq, Prod.mk.injEq, true_and,
          and_true, Json.record.injEq, Json.list.injEq] at h
        simp [Statement.unplaced, Expression.unplaced_eq_of_toJson_eq h.1,
          Statement.unplacedList_eq_of_toJson_eq h.2]
      | _ => exact NodeKind.noConfusion hkind
  | .classDeclaration, s', h => by
      have hkind := Statement.kind_eq_of_toJson_eq h
      cases s' with
      | classDeclaration => rfl
      | _ => exact NodeKind.noConfusion hkind
  | .delete, s', h => by
      have hkind := Statement.kind_eq_of_toJson_eq h
      cases s' with
      | delete => rfl
      | _ => exact NodeKind.noConfusion hkind
  | .reverse, s', h => by
      have hkind := Statement.kind_eq_of_toJson_eq h
      cases s' with
      | reverse => rfl
      | _ => exact NodeKind.noConfusion hkind
  | .importing, s', h => by
      have hkind := Statement.kind_eq_of_toJson_eq h
      cases s' with
      | importing => rfl
      | _ => exact NodeKind.noConfusion hkind
  | .exporting, s', h => by
      have hkind := Statement.kind_eq_of_toJson_eq h
      cases s' with
      | exporting => rfl
      | _ => exact NodeKind.noConfusion hkind
  | .branching branches, s', h => by
      have hkind := Statement.kind_eq_of_toJson_eq h
      cases s' with
      | branching branches' =>
        simp only [Statement.toJson, NodeKind.tagged_inj, List.cons.injEq, Prod.mk.injEq, true_and,
          and_true, Json.list.injEq] at h
        simp [Statement.unplaced, Statement.unplacedBranches_eq_of_toJson_eq h]
      | _ => exact NodeKind.noConfusion hkind
  | .endOfFile, s', h => by
      have hkind := Statement.kind_eq_of_toJson_eq h
      cases s' with
      | endOfFile => rfl
      | _ => exact NodeKind.noConfusion hkind
  | .endOfBlock, s', h => by
      have hkind := Statement.kind_eq_of_toJson_eq h
      cases s' with
      | endOfBlock => rfl
      | _ => exact NodeKind.noConfusion hkind

lemma FunctionBody.unplaced_eq_of_toJson_eq : ∀ {b b' : FunctionBody}, b.toJson = b'.toJson →
    b.unplaced = b'.unplaced
  | .block body, .block body', h => by
      simp only [FunctionBody.toJson, NodeKind.tagged_inj, List.cons.injEq, Prod.mk.injEq, true_and,
        and_true, Json.list.injEq] at h
      simp [FunctionBody.unplaced, Statement.unplacedList_eq_of_toJson_eq h]
  | .expression e, .expression e', h => by
      simp only [FunctionBody.toJson, NodeKind.tagged_inj, List.cons.injEq, Prod.mk.injEq, true_and,
        and_true] at h
      simp [FunctionBody.unplaced, Expression.unplaced_eq_of_toJson_eq h]
  | .block _, .expression _, h | .expression _, .block _, h => by simp [FunctionBody.toJson] at h

lemma Conditional.unplaced_eq_of_fields_eq : ∀ {c c' : Conditional}, c.fields = c'.fields →
    c.unplaced = c'.unplaced
  | .mk test consequent alternate, .mk test' consequent' alternate', h => by
      simp only [Conditional.fields, List.cons_append, List.nil_append, List.cons.injEq,
        Prod.mk.injEq, true_and, and_true, Json.record.injEq, Json.list.injEq,
        Json.optionalField_inj] at h
      obtain ⟨htest, hconsequent, halternate⟩ := h
      simp [Conditional.unplaced, Expression.unplaced_eq_of_toJson_eq htest,
        Statement.unplacedList_eq_of_toJson_eq hconsequent,
        Alternate.unplaced_eq_of_toJson_eq halternate]

lemma Alternate.unplaced_eq_of_toJson_eq : ∀ {a a' : Alternate}, a.toJson? = a'.toJson? →
    a.unplaced = a'.unplaced
  | .none, .none, _ => rfl
  | .conditional branch, .conditional branch', h => by
      simp only [Alternate.toJson?, Option.some.injEq, NodeKind.tagged_inj, true_and] at h
      simp [Alternate.unplaced, Conditional.unplaced_eq_of_fields_eq h]
  | .block body, .block body', h => by
      simp only [Alternate.toJson?, Option.some.injEq, NodeKind.tagged_inj, List.cons.injEq,
        Prod.mk.injEq, true_and, and_true, Json.list.injEq] at h
      simp [Alternate.unplaced, Statement.unplacedList_eq_of_toJson_eq h]
  | .none, .conditional _, h | .none, .block _, h | .conditional _, .none, h
  | .conditional _, .block _, h | .block _, .none, h | .block _, .conditional _, h => by
      simp [Alternate.toJson?] at h

lemma Statement.unplacedList_eq_of_toJson_eq : ∀ {ss ss' : List Statement},
    Statement.listToJson ss = Statement.listToJson ss' →
      Statement.unplacedList ss = Statement.unplacedList ss'
  | [], [], _ => rfl
  | s :: ss, s' :: ss', h => by
      obtain ⟨hhead, htail⟩ := List.cons.inj h
      simp [Statement.unplacedList, Statement.unplaced_eq_of_toJson_eq hhead,
        Statement.unplacedList_eq_of_toJson_eq htail]
  | [], _ :: _, h | _ :: _, [], h => by simp [Statement.listToJson] at h

lemma Statement.unplacedBranches_eq_of_toJson_eq : ∀ {bs bs' : List (List Statement)},
    Statement.branchesToJson bs = Statement.branchesToJson bs' →
      Statement.unplacedBranches bs = Statement.unplacedBranches bs'
  | [], [], _ => rfl
  | b :: bs, b' :: bs', h => by
      obtain ⟨hhead, htail⟩ := List.cons.inj h
      simp [Statement.unplacedBranches,
        Statement.unplacedList_eq_of_toJson_eq (Json.list.inj hhead),
        Statement.unplacedBranches_eq_of_toJson_eq htail]
  | [], _ :: _, h | _ :: _, [], h => by simp [Statement.branchesToJson] at h

end

/-- The number of a literal, and how long bindings live that are declared. -/
def Node.numbers : Node → List Float
  | .expression (.number value) => [value]
  | .expression _ => []
  | .statement (.variableDeclaration _ _ _ lifetime) => lifetime.toList.map Lifetime.duration
  | .statement (.functionDeclaration _ parameters _ _) =>
      parameters.flatMap fun p => p.lifetime.toList.map Lifetime.duration
  | .statement _ => []

def NumbersFinite (nodes : List Node) : Prop := ∀ n ∈ nodes, ∀ x ∈ n.numbers, Binary.IsFinite x

section NumbersFinite
variable {n : Node} {nodes nodes' : List Node}

@[simp] lemma numbersFinite_cons :
    NumbersFinite (n :: nodes) ↔ (∀ x ∈ n.numbers, Binary.IsFinite x) ∧ NumbersFinite nodes :=
  List.forall_mem_cons

@[simp] lemma numbersFinite_append :
    NumbersFinite (nodes ++ nodes') ↔ NumbersFinite nodes ∧ NumbersFinite nodes' :=
  List.forall_mem_append

end NumbersFinite

@[simp] lemma NodeKind.isFinite_tagged {kind : NodeKind} {fields : List (String × Json)} :
    (kind.tagged fields).IsFinite ↔ Json.FieldsFinite fields := by
  simp [NodeKind.tagged]

lemma fieldsFinite_append {fields fields' : List (String × Json)} :
    Json.FieldsFinite (fields ++ fields') ↔
      Json.FieldsFinite fields ∧ Json.FieldsFinite fields' := by
  induction fields with
  | nil => simp
  | cons field fields ih => simp [ih, and_assoc]

lemma fieldsFinite_optionalField {name : String} {value : Option Json}
    (h : ∀ j ∈ value, j.IsFinite) : Json.FieldsFinite (Json.optionalField name value) := by
  cases value with
  | none => trivial
  | some j => exact ⟨h j rfl, trivial⟩

lemma Token.isFinite_toJson (t : Token) : t.toJson.IsFinite := by
  unfold Token.toJson
  cases t.operation <;> simp [Json.optionalField]

mutual

lemma Expression.isFinite_toJson : ∀ e : Expression, NumbersFinite e.nodes → e.toJson.IsFinite
  | .assignment target value, h => by
      simp only [Expression.nodes, numbersFinite_cons, numbersFinite_append] at h
      simp [Expression.toJson, target.isFinite_toJson h.2.1, value.isFinite_toJson h.2.2]
  | .unary operator operand, h => by
      simp only [Expression.nodes, numbersFinite_cons] at h
      simp [Expression.toJson, operator.isFinite_toJson, operand.isFinite_toJson h.2]
  | .state operator argument, h => by
      simp only [Expression.nodes, numbersFinite_cons] at h
      simp [Expression.toJson, operator.isFinite_toJson, argument.isFinite_toJson h.2]
  | .binary left operator right, h => by
      simp only [Expression.nodes, numbersFinite_cons, numbersFinite_append] at h
      simp [Expression.toJson, left.isFinite_toJson h.2.1, operator.isFinite_toJson,
        right.isFinite_toJson h.2.2]
  | .number value, h => by
      simp only [Expression.nodes, numbersFinite_cons] at h
      simpa [Expression.toJson, Node.numbers] using h.1
  | .string _, _ | .symbol _, _ => by simp [Expression.toJson]
  | .object properties, h => by
      simp only [Expression.nodes, numbersFinite_cons] at h
      simp [Expression.toJson, Property.allFinite_toJson properties h.2]
  | .array elements, h => by
      simp only [Expression.nodes, numbersFinite_cons] at h
      simp [Expression.toJson, Expression.allFinite_toJson elements h.2]
  | .member object property computed, h => by
      simp only [Expression.nodes, numbersFinite_cons, numbersFinite_append] at h
      simp [Expression.toJson, object.isFinite_toJson h.2.1, property.isFinite_toJson h.2.2]
  | .call callee arguments, h => by
      simp only [Expression.nodes, numbersFinite_cons, numbersFinite_append] at h
      simp [Expression.toJson, callee.isFinite_toJson h.2.1,
        Expression.allFinite_toJson arguments h.2.2]
  | .branching branches, h => by
      simp only [Expression.nodes, numbersFinite_cons] at h
      simp [Expression.toJson, Expression.allFinite_toJson branches h.2]

lemma Reference.isFinite_toJson : ∀ r : Reference, NumbersFinite r.nodes → r.toJson.IsFinite
  | .symbol _, _ => by simp [Reference.toJson]
  | .member object property computed, h => by
      simp only [Reference.nodes, numbersFinite_cons, numbersFinite_append] at h
      simp [Reference.toJson, object.isFinite_toJson h.2.1, property.isFinite_toJson h.2.2]

lemma Property.isFinite_toJson : ∀ p : Property, NumbersFinite p.nodes → p.toJson.IsFinite
  | .mk key value _ _, h => by
      simp only [Property.nodes, numbersFinite_append] at h
      simp [Property.toJson, key.isFinite_toJson h.1, value.isFinite_toJson h.2]

lemma Expression.allFinite_toJson : ∀ es : List Expression,
    NumbersFinite (Expression.allNodes es) → Json.AllFinite (Expression.listToJson es)
  | [], _ => trivial
  | e :: es, h => by
      simp only [Expression.allNodes, numbersFinite_append] at h
      exact ⟨e.isFinite_toJson h.1, Expression.allFinite_toJson es h.2⟩

lemma Property.allFinite_toJson : ∀ ps : List Property,
    NumbersFinite (Property.allNodes ps) → Json.AllFinite (Property.listToJson ps)
  | [], _ => trivial
  | p :: ps, h => by
      simp only [Property.allNodes, numbersFinite_append] at h
      exact ⟨p.isFinite_toJson h.1, Property.allFinite_toJson ps h.2⟩

end

lemma Lifetime.isFinite_toJson {lifetime : Option Lifetime}
    (h : ∀ x ∈ lifetime.toList.map Lifetime.duration, Binary.IsFinite x) :
    ∀ j ∈ lifetime.map Lifetime.toJson, j.IsFinite := by
  cases lifetime with
  | none => simp
  | some l => simpa [Lifetime.toJson] using h

lemma Parameter.allFinite_toJson : ∀ ps : List Parameter,
    (∀ x ∈ ps.flatMap (fun p => p.lifetime.toList.map Lifetime.duration), Binary.IsFinite x) →
      Json.AllFinite (ps.map Parameter.toJson)
  | [], _ => trivial
  | p :: ps, h => by
      rw [List.flatMap_cons, List.forall_mem_append] at h
      exact ⟨⟨p.identifier.isFinite_toJson,
        fieldsFinite_optionalField (Lifetime.isFinite_toJson h.1)⟩,
        Parameter.allFinite_toJson ps h.2⟩

lemma Expression.isFinite_map_toJson {value : Option Expression}
    (h : NumbersFinite (value.toList.flatMap Expression.nodes)) :
    ∀ j ∈ value.map Expression.toJson, j.IsFinite := by
  cases value with
  | none => simp
  | some e => simpa using e.isFinite_toJson (by simpa using h)

mutual

lemma Statement.isFinite_toJson : ∀ s : Statement, NumbersFinite s.nodes → s.toJson.IsFinite
  | .expression e, h => by
      simp only [Statement.nodes, numbersFinite_cons] at h
      simp [Statement.toJson, e.isFinite_toJson h.2]
  | .block body, h => by
      simp only [Statement.nodes, numbersFinite_cons] at h
      simp [Statement.toJson, Statement.allFinite_toJson body h.2]
  | .variableDeclaration name modifiers value lifetime, h => by
      simp only [Statement.nodes, numbersFinite_cons] at h
      simp [Statement.toJson, Modifiers.toJson, fieldsFinite_append,
        fieldsFinite_optionalField (Expression.isFinite_map_toJson h.2),
        fieldsFinite_optionalField (Lifetime.isFinite_toJson h.1)]
  | .functionDeclaration identifier parameters isAsync body, h => by
      simp only [Statement.nodes, numbersFinite_cons] at h
      simp [Statement.toJson, identifier.isFinite_toJson, Parameter.allFinite_toJson parameters h.1,
        body.isFinite_toJson h.2]
  | .returning argument, h => by
      simp only [Statement.nodes, numbersFinite_cons] at h
      simp [Statement.toJson, argument.isFinite_toJson h.2]
  | .conditional branch, h => by
      simp only [Statement.nodes, numbersFinite_cons] at h
      simp [Statement.toJson, branch.fieldsFinite_fields h.2]
  | .when test consequent, h => by
      simp only [Statement.nodes, numbersFinite_cons, numbersFinite_append] at h
      simp [Statement.toJson, test.isFinite_toJson h.2.1,
        Statement.allFinite_toJson consequent h.2.2]
  | .branching branches, h => by
      simp only [Statement.nodes, numbersFinite_cons] at h
      simp [Statement.toJson, Statement.branchesFinite_toJson branches h.2]
  | .classDeclaration, _ | .delete, _ | .reverse, _ | .importing, _ | .exporting, _
  | .endOfFile, _ | .endOfBlock, _ => by simp [Statement.toJson]

lemma FunctionBody.isFinite_toJson : ∀ b : FunctionBody, NumbersFinite b.nodes → b.toJson.IsFinite
  | .block body, h => by simp [FunctionBody.toJson, Statement.allFinite_toJson body h]
  | .expression e, h => by simp [FunctionBody.toJson, e.isFinite_toJson h]

lemma Conditional.fieldsFinite_fields : ∀ c : Conditional, NumbersFinite c.nodes →
    Json.FieldsFinite c.fields
  | .mk test consequent alternate, h => by
      simp only [Conditional.nodes, numbersFinite_append] at h
      simp [Conditional.fields, test.isFinite_toJson h.1.1,
        Statement.allFinite_toJson consequent h.1.2,
        fieldsFinite_optionalField (alternate.isFinite_toJson h.2)]

lemma Alternate.isFinite_toJson : ∀ a : Alternate, NumbersFinite a.nodes →
    ∀ j ∈ a.toJson?, j.IsFinite
  | .none, _ => by simp [Alternate.toJson?]
  | .conditional branch, h => by simp [Alternate.toJson?, branch.fieldsFinite_fields h]
  | .block body, h => by simp [Alternate.toJson?, Statement.allFinite_toJson body h]

lemma Statement.allFinite_toJson : ∀ ss : List Statement,
    NumbersFinite (Statement.allNodes ss) → Json.AllFinite (Statement.listToJson ss)
  | [], _ => trivial
  | s :: ss, h => by
      simp only [Statement.allNodes, numbersFinite_append] at h
      exact ⟨s.isFinite_toJson h.1, Statement.allFinite_toJson ss h.2⟩

lemma Statement.branchesFinite_toJson : ∀ bs : List (List Statement),
    NumbersFinite (Statement.branchNodes bs) → Json.AllFinite (Statement.branchesToJson bs)
  | [], _ => trivial
  | b :: bs, h => by
      simp only [Statement.branchNodes, numbersFinite_append] at h
      exact ⟨Statement.allFinite_toJson b h.1, Statement.branchesFinite_toJson bs h.2⟩

end

/-- Programs with finite numbers that have one compact text differ at most in places. -/
theorem Block.unplaced_eq_of_compactText_eq {program program' : Block}
    (hfinite : ∀ n ∈ program.nodes, ∀ x ∈ n.numbers, Binary.IsFinite x)
    (hfinite' : ∀ n ∈ program'.nodes, ∀ x ∈ n.numbers, Binary.IsFinite x)
    (h : program.toJson.compactText = program'.toJson.compactText) :
    program.unplaced = program'.unplaced := by
  have hjson : program.toJson.IsFinite := by
    simpa [Block.toJson] using Statement.allFinite_toJson program hfinite
  have hjson' : program'.toJson.IsFinite := by
    simpa [Block.toJson] using Statement.allFinite_toJson program' hfinite'
  have heq := Json.compactText_inj hjson hjson' h
  simp only [Block.toJson, Json.record.injEq, List.cons.injEq, Prod.mk.injEq, true_and, and_true,
    Json.list.injEq] at heq
  exact Statement.unplacedList_eq_of_toJson_eq heq

/-- `x + 5!`, once with the operator on the first line and once on the second. -/
theorem Block.unplaced_eq_sum :
    let sum (line : Nat) : Block := [.expression (.binary (.symbol "x")
      { kind := .add, value := "+", span := default, line } (.number (digitRunValue "5")))]
    (sum 1).toJson.compactText = (sum 2).toJson.compactText ∧
      (sum 1).unplaced = (sum 2).unplaced := by
  intro sum
  have hfive : Binary.IsFinite (digitRunValue "5") := by decide +kernel
  have hfinite : ∀ line, ∀ n ∈ (sum line).nodes, ∀ x ∈ n.numbers, Binary.IsFinite x := by
    intro line
    simpa [sum, Block.nodes, Statement.allNodes, Statement.nodes, Expression.nodes, Node.numbers]
      using hfive
  have htext : (sum 1).toJson.compactText = (sum 2).toJson.compactText := rfl
  exact ⟨htext, Block.unplaced_eq_of_compactText_eq (hfinite 1) (hfinite 2) htext⟩

end Exclaim
