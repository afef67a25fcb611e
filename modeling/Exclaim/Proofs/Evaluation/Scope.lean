import Mathlib.Data.List.Basic
import Exclaim.Evaluation.Scope

/-! What declaring and assigning do to a chain of scopes. -/
namespace Exclaim

namespace Frame

/-- What is declared in a frame: its names in order, with modifiers and lifetimes. -/
def outline (f : Frame) : List (String × Modifiers × Option Lifetime) :=
  f.map fun entry => (entry.1, entry.2.modifiers, entry.2.lifetime)

variable {f g : Frame} {name other : String} {value : Value}

lemma map_fst_outline (f : Frame) : f.outline.map (·.1) = f.names := by
  simp [outline, names]

lemma binding?_cons (n : String) (b : Binding) (f : Frame) (name : String) :
    binding? ((n, b) :: f) name = if name = n then some b else f.binding? name := by
  by_cases h : name = n
  · simp [binding?, h]
  · simp [binding?, List.lookup_cons, h, beq_false_of_ne h]

lemma owns_iff_mem_names : f.owns name ↔ name ∈ f.names := by
  induction f with
  | nil => simp [owns, binding?, names]
  | cons entry f ih =>
    obtain ⟨n, b⟩ := entry
    by_cases h : name = n
    · simp [owns, binding?_cons, names, h]
    · simpa [owns, binding?_cons, names, h] using ih

@[simp] lemma outline_setValue (name : String) (value : Value) (f : Frame) :
    (f.setValue name value).outline = f.outline := by
  induction f with
  | nil => rfl
  | cons entry f ih =>
    obtain ⟨n, b⟩ := entry
    by_cases h : n = name
    · simp [setValue, h, outline]
    · simpa [setValue, h, outline] using ih

@[simp] lemma names_setValue (name : String) (value : Value) (f : Frame) :
    (f.setValue name value).names = f.names := by
  rw [← map_fst_outline, outline_setValue, map_fst_outline]

lemma binding?_setValue (name : String) (value : Value) (f : Frame) :
    (f.setValue name value).binding? name = (f.binding? name).map ({ · with value }) := by
  induction f with
  | nil => rfl
  | cons entry f ih =>
    obtain ⟨n, b⟩ := entry
    by_cases h : n = name
    · simp [setValue, h, binding?_cons]
    · simp [setValue, h, binding?_cons, Ne.symm h, ih]

lemma binding?_setValue_of_ne (h : other ≠ name) :
    (f.setValue name value).binding? other = f.binding? other := by
  induction f with
  | nil => rfl
  | cons entry f ih =>
    obtain ⟨n, b⟩ := entry
    by_cases hn : n = name
    · simp [setValue, hn, binding?_cons, h]
    · simp [setValue, hn, binding?_cons, ih]

lemma owns_of_outline_prefix (h : f.outline <+: g.outline) (hf : f.owns name) : g.owns name := by
  rw [owns_iff_mem_names, ← map_fst_outline] at hf ⊢
  exact (h.map _).subset hf

end Frame

namespace ScopeChain

variable {s s' : ScopeChain} {name : String} {binding : Binding} {value : Value}

lemma declare?_eq_some (h : s.declare? name binding = some s') :
    s.current.owns name = false ∧ s' = { s with current := s.current ++ [(name, binding)] } := by
  unfold declare? at h
  cases howns : s.current.owns name with
  | true => simp [howns] at h
  | false =>
    rw [howns] at h
    exact ⟨rfl, (Option.some.inj h).symm⟩

lemma setNearest?_eq_some {fs fs' : List Frame} (h : setNearest? name value fs = some fs') :
    ∃ nearer owner rest, fs = nearer ++ owner :: rest ∧ (∀ f ∈ nearer, f.owns name = false) ∧
      owner.owns name ∧ fs' = nearer ++ owner.setValue name value :: rest := by
  induction fs generalizing fs' with
  | nil => simp [setNearest?] at h
  | cons f fs ih =>
    cases howns : f.owns name with
    | true =>
      simp only [setNearest?, howns, if_true, Option.some.injEq] at h
      exact ⟨[], f, fs, rfl, by simp, howns, h.symm⟩
    | false =>
      simp only [setNearest?, howns, Bool.false_eq_true, if_false, Option.map_eq_some_iff] at h
      obtain ⟨gs, hgs, rfl⟩ := h
      obtain ⟨nearer, owner, rest, rfl, hnearer, howner, rfl⟩ := ih hgs
      exact ⟨f :: nearer, owner, rest, rfl, by simpa [howns] using hnearer, howner, rfl⟩

/-- An assignment changes one frame: the nearest one that owns the name. -/
lemma assign?_eq_some (h : s.assign? name value = some s') :
    ∃ nearer owner rest, s.frames = nearer ++ owner :: rest ∧
      (∀ f ∈ nearer, f.owns name = false) ∧ owner.owns name ∧
      s'.frames = nearer ++ owner.setValue name value :: rest := by
  unfold assign? at h
  cases howns : s.current.owns name with
  | true =>
    simp only [howns, if_true, Option.some.injEq] at h
    subst h
    exact ⟨[], s.current, s.outer, rfl, by simp, howns, rfl⟩
  | false =>
    simp only [howns, Bool.false_eq_true, if_false, Option.map_eq_some_iff] at h
    obtain ⟨outer, houter, rfl⟩ := h
    obtain ⟨nearer, owner, rest, hrest, hnearer, howner, rfl⟩ := setNearest?_eq_some houter
    refine ⟨s.current :: nearer, owner, rest, ?_, by simpa [howns] using hnearer, howner, rfl⟩
    rw [frames, hrest]
    rfl

/-- The binding of a name in one scope of the chain, the innermost being number zero. -/
def bindingAt? (s : ScopeChain) (index : Nat) (name : String) : Option Binding :=
  (s.frames[index]?).bind (·.binding? name)

/-- The nearest scope that owns a name. -/
structure IsOwner (s : ScopeChain) (name : String) (index : Nat) : Prop where
  owns : (s.bindingAt? index name).isSome
  nearest : ∀ nearer < index, s.bindingAt? nearer name = none

lemma bindingAt?_split {nearer rest : List Frame} {owner : Frame}
    (hs : s.frames = nearer ++ owner :: rest) :
    s.bindingAt? nearer.length name = owner.binding? name := by
  simp [bindingAt?, hs]

lemma isOwner_of_split {nearer rest : List Frame} {owner : Frame}
    (hs : s.frames = nearer ++ owner :: rest) (hnearer : ∀ f ∈ nearer, f.owns name = false)
    (howner : owner.owns name) : s.IsOwner name nearer.length where
  owns := by
    rw [bindingAt?_split hs]
    exact howner
  nearest := by
    intro index hindex
    have hfree := hnearer _ (List.getElem_mem hindex)
    rw [bindingAt?, hs, List.getElem?_append_left hindex, List.getElem?_eq_getElem hindex]
    simpa [Frame.owns] using hfree

/-- An assignment changes one value in the chain, in the nearest scope that owns the name. -/
lemma bindingAt?_assign? (h : s.assign? name value = some s') :
    ∃ owner, s.IsOwner name owner ∧
      s'.frames.map Frame.outline = s.frames.map Frame.outline ∧
      ∀ index other, s'.bindingAt? index other =
        if index = owner ∧ other = name then (s.bindingAt? index other).map ({ · with value })
        else s.bindingAt? index other := by
  obtain ⟨nearer, owner, rest, hs, hnearer, howner, hs'⟩ := assign?_eq_some h
  refine ⟨nearer.length, isOwner_of_split hs hnearer howner, by simp [hs, hs'], ?_⟩
  intro index other
  by_cases hindex : index = nearer.length
  · subst hindex
    rw [bindingAt?_split hs, bindingAt?_split hs']
    by_cases hother : other = name
    · simp [hother, Frame.binding?_setValue]
    · simp [hother, Frame.binding?_setValue_of_ne hother]
  · have hframe : s'.frames[index]? = s.frames[index]? := by
      rw [hs, hs', List.getElem?_append, List.getElem?_append, List.getElem?_cons,
        List.getElem?_cons]
      have hrest : nearer.length ≤ index → index - nearer.length ≠ 0 := by omega
      split <;> simp_all
    simp [bindingAt?, hframe, hindex]

end ScopeChain
end Exclaim
