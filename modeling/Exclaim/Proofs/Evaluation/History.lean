import Mathlib.Data.List.Induction
import Mathlib.Data.List.Nodup
import Exclaim.Proofs.Evaluation.Order

/-! Chains of scopes that come about by entering and leaving scopes, declaring names and assigning
values. Each scope maps its names to bindings and keeps them in the order of their declarations. -/
namespace Exclaim

lemma Frame.binding?_concat {f : Frame} {name : String} (h : f.owns name = false)
    (binding : Binding) : Frame.binding? (f ++ [(name, binding)]) name = some binding := by
  have hnone : f.lookup name = none := by simpa [owns, binding?] using h
  rw [binding?, List.lookup_append, hnone]
  simp

namespace ScopeChain
variable {s : ScopeChain} {name : String} {index owner : Nat}

/-- The chain as one of its scopes sees it, the innermost being number zero. -/
def seenFrom (s : ScopeChain) : Nat → ScopeChain
  | 0 => s
  | index + 1 => s.pop.seenFrom index

lemma bindingAt?_seenFrom (hindex : index ≤ s.depth) (i : Nat) (name : String) :
    (s.seenFrom index).bindingAt? i name = s.bindingAt? (index + i) name := by
  induction index generalizing s with
  | zero => rw [seenFrom, Nat.zero_add]
  | succ index ih =>
    obtain ⟨current, outer⟩ := s
    cases outer with
    | nil => simp [depth] at hindex
    | cons f fs =>
      rw [seenFrom, pop, ih (by simpa [depth] using hindex), Nat.add_right_comm]
      rfl

/-- What the lookups of a name give: the binding and its value, the depth of the scope that owns
the name, and whether that is the current scope. They all speak of the nearest owner. -/
inductive Resolves (s : ScopeChain) (name : String) :
    Option Binding → Option Value → Option Nat → Bool → Prop
  | unknown (hunknown : ∀ index, s.bindingAt? index name = none) :
      Resolves s name none none none false
  | owned {owner : Nat} {binding : Binding} (howner : s.IsOwner name owner)
      (hbinding : s.bindingAt? owner name = some binding) :
      Resolves s name (some binding) (some binding.value) (some (s.depth - owner))
        (decide (owner = 0))

lemma IsOwner.unique {owner' : Nat} (h : s.IsOwner name owner) (h' : s.IsOwner name owner') :
    owner = owner' := by
  rcases Nat.lt_trichotomy owner owner' with hlt | heq | hlt
  · simpa [h'.nearest owner hlt] using h.owns
  · exact heq
  · simpa [h.nearest owner' hlt] using h'.owns

section Lookups
variable {binding : Binding}

lemma bindingAt?_eq_none (hname : name ∉ s.inScope) (index : Nat) :
    s.bindingAt? index name = none := by
  rw [mem_inScope, not_exists] at hname
  cases hf : s.frames[index]? with
  | none => simp [bindingAt?, hf]
  | some f =>
    have hfree := not_and.1 (hname f) (List.mem_of_getElem? hf)
    simpa [bindingAt?, hf, Frame.owns] using hfree

lemma ownerDepth?_of_split {nearer rest : List Frame} {f : Frame}
    (hs : s.frames = nearer ++ f :: rest) (hnearer : ∀ g ∈ nearer, g.owns name = false)
    (hf : f.owns name) : s.ownerDepth? name = some (s.depth - nearer.length) := by
  have hnone : nearer.findIdx? (·.owns name) = none := List.findIdx?_eq_none_iff.2 hnearer
  rw [ownerDepth?, hs, List.findIdx?_append, hnone, List.findIdx?_cons, if_pos hf]
  simp

lemma owns_current_of_split {nearer rest : List Frame} {f : Frame}
    (hs : s.frames = nearer ++ f :: rest) (hnearer : ∀ g ∈ nearer, g.owns name = false)
    (hf : f.owns name) : s.current.owns name = decide (nearer.length = 0) := by
  cases nearer with
  | nil =>
    obtain ⟨rfl, -⟩ := List.cons.inj hs
    exact hf
  | cons g nearer =>
    obtain ⟨rfl, -⟩ := List.cons.inj hs
    exact hnearer _ (by simp)

lemma resolves (s : ScopeChain) (name : String) :
    s.Resolves name (s.binding? name) (s.lookup? name) (s.ownerDepth? name)
      (s.current.owns name) := by
  cases hfind : s.binding? name with
  | none =>
    have hnone : ∀ f ∈ s.frames, f.binding? name = none := List.findSome?_eq_none_iff.1 hfind
    have hdepth : s.ownerDepth? name = none := by
      rw [ownerDepth?, List.findIdx?_eq_none_iff.2 fun f hf => by simp [Frame.owns, hnone f hf]]
      rfl
    have hcurrent : s.current.owns name = false := by
      simp [Frame.owns, hnone s.current (by simp [frames])]
    rw [lookup?, hfind, hdepth, hcurrent]
    refine .unknown (bindingAt?_eq_none ?_)
    rw [← lookup?_eq_none_iff, lookup?, hfind]
    rfl
  | some binding =>
    obtain ⟨nearer, f, rest, hs, hbinding, hnone⟩ := List.findSome?_eq_some_iff.1 hfind
    have hf : f.owns name := by simp [Frame.owns, hbinding]
    have hnearer : ∀ g ∈ nearer, g.owns name = false := fun g hg => by simp [Frame.owns, hnone g hg]
    rw [lookup?, hfind, ownerDepth?_of_split hs hnearer hf, owns_current_of_split hs hnearer hf]
    exact .owned (isOwner_of_split hs hnearer hf) (bindingAt?_split hs ▸ hbinding)

lemma lookup?_of_isOwner (howner : s.IsOwner name owner)
    (hbinding : s.bindingAt? owner name = some binding) : s.lookup? name = some binding.value := by
  have hresolves := s.resolves name
  revert hresolves
  generalize s.binding? name = b, s.lookup? name = v, s.ownerDepth? name = d,
    s.current.owns name = c
  rintro (hunknown | ⟨howner', hbinding'⟩)
  · simp [hunknown] at hbinding
  · rw [howner.unique howner', hbinding'] at hbinding
    rw [Option.some.inj hbinding]

lemma lookup?_of_declare? {s' : ScopeChain} (h : s.declare? name binding = some s') :
    s'.lookup? name = some binding.value := by
  obtain ⟨hfree, rfl⟩ := declare?_eq_some h
  have hnew : bindingAt? { s with current := s.current ++ [(name, binding)] } 0 name =
      some binding := Frame.binding?_concat hfree binding
  exact lookup?_of_isOwner ⟨by simp [hnew], by simp⟩ hnew

lemma IsOwner.le_depth (howner : s.IsOwner name owner) : owner ≤ s.depth := by
  by_contra hdeep
  have hnone : s.frames[owner]? = none := by
    simp only [List.getElem?_eq_none_iff, frames, List.length_cons]
    simp only [depth] at hdeep
    omega
  simpa [bindingAt?, hnone] using howner.owns

/-- Every scope from the current one to the owner of a name has the same owner for it. -/
lemma IsOwner.seenFrom (howner : s.IsOwner name owner) (hindex : index ≤ owner) :
    (s.seenFrom index).IsOwner name (owner - index) := by
  have hdepth : index ≤ s.depth := Nat.le_trans hindex howner.le_depth
  constructor
  · rw [bindingAt?_seenFrom hdepth, Nat.add_sub_cancel' hindex]
    exact howner.owns
  · intro nearer hnearer
    rw [bindingAt?_seenFrom hdepth]
    exact howner.nearest _ (by omega)

/-- They all read the value that the name has there. -/
lemma IsOwner.lookup?_seenFrom (howner : s.IsOwner name owner) (hindex : index ≤ owner)
    (hbinding : s.bindingAt? owner name = some binding) :
    (s.seenFrom index).lookup? name = some binding.value := by
  apply lookup?_of_isOwner (howner.seenFrom hindex)
  rw [bindingAt?_seenFrom (Nat.le_trans hindex howner.le_depth), Nat.add_sub_cancel' hindex, hbinding]

end Lookups
end ScopeChain

namespace Eval

/-- How a declaration ends. The name and its binding come behind all others of the current scope,
which must not have the name. -/
inductive Declares (s : EvalState) (name : String) (binding : Binding) :
    Except EvalError Value × EvalState → Prop
  | again (hname : name ∈ s.scopes.current.names) :
      Declares s name binding (.error (.alreadyDeclared name), s)
  | fresh {s' : EvalState} (hname : name ∉ s.scopes.current.names)
      (hframes : s'.scopes.frames = (s.scopes.current ++ [(name, binding)]) :: s.scopes.outer)
      (hlookup : s'.scopes.lookup? name = some binding.value) :
      Declares s name binding (.ok binding.value, s')

/-- How an assignment ends. One value changes, in the nearest scope that has the name: its place,
modifiers and lifetime stay, and so does everything else. The scopes from there inwards, for which
that scope is the nearest owner, read the new value. -/
inductive Assigns (s : EvalState) (name : String) (value : Value) :
    Except EvalError Value × EvalState → Prop
  | unknown (hunknown : ∀ index, s.scopes.bindingAt? index name = none) :
      Assigns s name value (.error (.unresolved name), s)
  | stored {owner : Nat} {s' : EvalState} (howner : s.scopes.IsOwner name owner)
      (houtline : s'.scopes.frames.map Frame.outline = s.scopes.frames.map Frame.outline)
      (hbindings : ∀ index other, s'.scopes.bindingAt? index other =
        if index = owner ∧ other = name then
          (s.scopes.bindingAt? index other).map ({ · with value })
        else s.scopes.bindingAt? index other)
      (hlookup : ∀ index ≤ owner, (s.scopes.seenFrom index).IsOwner name (owner - index) ∧
        (s'.scopes.seenFrom index).lookup? name = some value) :
      Assigns s name value (.ok value, s')

section Runs
variable {s : EvalState} {name : String} {binding : Binding} {value : Value}
  {scopes : ScopeChain}

lemma run_declare_of_none (h : s.scopes.declare? name binding = none) :
    (declare name binding).run s = (.error (.alreadyDeclared name), s) := by
  unfold declare
  rw [run_get_bind, h]
  rfl

lemma run_declare_of_some (h : s.scopes.declare? name binding = some scopes) :
    ∃ log, (declare name binding).run s = (.ok binding.value, { s with scopes, log }) := by
  unfold declare
  rw [run_get_bind, h]
  exact ⟨_, rfl⟩

lemma run_assign_of_none (h : s.scopes.assign? name value = none) :
    (assign name value).run s = (.error (.unresolved name), s) := by
  unfold assign
  rw [run_get_bind, h]
  rfl

lemma run_assign_of_some (h : s.scopes.assign? name value = some scopes) :
    (assign name value).run s = (.ok value, { s with scopes }) := by
  unfold assign
  rw [run_get_bind, h]
  rfl

lemma Declares.map_names {r : Except EvalError Value × EvalState} (h : Declares s name binding r) :
    r.2.scopes.frames.map Frame.names =
      (if name ∈ s.scopes.current.names then s.scopes.current.names
        else s.scopes.current.names ++ [name]) :: s.scopes.outer.map Frame.names := by
  cases h with
  | again hname => rw [if_pos hname, ScopeChain.frames, List.map_cons]
  | fresh hname hframes =>
    rw [if_neg hname, hframes, List.map_cons]
    simp [Frame.names]

lemma Assigns.map_names {r : Except EvalError Value × EvalState} (h : Assigns s name value r) :
    r.2.scopes.frames.map Frame.names = s.scopes.frames.map Frame.names := by
  cases h with
  | unknown => rfl
  | stored howner houtline =>
    have hnames : Frame.names = (List.map (·.1)) ∘ Frame.outline :=
      funext fun f => (Frame.map_fst_outline f).symm
    rw [hnames, ← List.map_map, ← List.map_map, houtline]

end Runs

lemma declares_run (s : EvalState) (name : String) (binding : Binding) :
    Declares s name binding ((declare name binding).run s) := by
  cases hdeclare : s.scopes.declare? name binding with
  | none =>
    rw [run_declare_of_none hdeclare]
    refine .again (Frame.owns_iff_mem_names.1 ?_)
    by_contra hfree
    simp [ScopeChain.declare?, hfree] at hdeclare
  | some scopes =>
    obtain ⟨log, hrun⟩ := run_declare_of_some hdeclare
    obtain ⟨hfree, rfl⟩ := ScopeChain.declare?_eq_some hdeclare
    rw [hrun]
    refine .fresh ?_ rfl ?_
    · rw [← Frame.owns_iff_mem_names, hfree]
      simp
    · exact ScopeChain.lookup?_of_declare? hdeclare

lemma assigns_run (s : EvalState) (name : String) (value : Value) :
    Assigns s name value ((assign name value).run s) := by
  cases hassign : s.scopes.assign? name value with
  | none =>
    rw [run_assign_of_none hassign]
    exact .unknown (ScopeChain.bindingAt?_eq_none (ScopeChain.assign?_eq_none_iff.1 hassign))
  | some scopes =>
    rw [run_assign_of_some hassign]
    obtain ⟨owner, howner, houtline, hbindings⟩ := ScopeChain.bindingAt?_assign? hassign
    refine .stored howner houtline hbindings fun index hindex => ⟨howner.seenFrom hindex, ?_⟩
    obtain ⟨binding, hbinding⟩ := Option.isSome_iff_exists.1 howner.owns
    have hnew : scopes.bindingAt? owner name = some { binding with value } := by
      rw [hbindings, if_pos ⟨rfl, rfl⟩, hbinding]
      rfl
    have howner' : scopes.IsOwner name owner := by
      refine ⟨by simp [hnew], fun nearer hnearer => ?_⟩
      rw [hbindings, if_neg fun heq => Nat.ne_of_lt hnearer heq.1]
      exact howner.nearest nearer hnearer
    exact howner'.lookup?_seenFrom hindex hnew

end Eval

/-- What can be done with a chain of scopes. -/
inductive ScopeAction where
  | push
  | pop
  | declare (name : String) (binding : Binding)
  | assign (name : String) (value : Value)

namespace ScopeAction

/-- The state after an action, whether it succeeds or fails. -/
def after (s : EvalState) : ScopeAction → EvalState
  | .push => { s with scopes := s.scopes.push }
  | .pop => { s with scopes := s.scopes.pop }
  | .declare name binding => ((Eval.declare name binding).run s).2
  | .assign name value => ((Eval.assign name value).run s).2

/-- The names of all scopes after an action, the innermost scope first. A name stands where it was
first declared in its scope. -/
def declaring : List (List String) → ScopeAction → List (List String)
  | names, .push => [] :: names
  | _ :: outer :: rest, .pop => outer :: rest
  | names :: outer, .declare name _ => (if name ∈ names then names else names ++ [name]) :: outer
  | names, _ => names

lemma map_names_after (s : EvalState) (a : ScopeAction) :
    (after s a).scopes.frames.map Frame.names =
      declaring (s.scopes.frames.map Frame.names) a := by
  cases a with
  | push => rfl
  | pop => rcases s with ⟨⟨current, _ | ⟨f, fs⟩⟩, reports, log⟩ <;> rfl
  | declare name binding => exact (Eval.declares_run s name binding).map_names
  | assign name value => exact (Eval.assigns_run s name value).map_names

lemma nodup_declaring {stack : List (List String)} (h : ∀ names ∈ stack, names.Nodup)
    (a : ScopeAction) : ∀ names ∈ declaring stack a, names.Nodup := by
  fun_cases declaring stack a with
  | case1 => simpa using h
  | case2 => exact fun names hnames => h names (List.mem_cons_of_mem _ hnames)
  | case3 names outer name =>
    rw [List.forall_mem_cons] at h ⊢
    refine ⟨?_, h.2⟩
    split
    · exact h.1
    · next hname =>
      rw [← List.concat_eq_append]
      exact h.1.concat hname
  | case4 => exact h

end ScopeAction

/-- The state that comes about by some actions on the global scope. -/
def EvalState.ofHistory (history : List ScopeAction) : EvalState :=
  history.foldl ScopeAction.after {}

lemma map_names_ofHistory (history : List ScopeAction) :
    (EvalState.ofHistory history).scopes.frames.map Frame.names =
      history.foldl ScopeAction.declaring [[]] := by
  induction history using List.reverseRecOn with
  | nil => rfl
  | append_singleton history a ih =>
    rw [EvalState.ofHistory, List.foldl_append, List.foldl_append, ← ih]
    exact ScopeAction.map_names_after _ a

lemma nodup_names_ofHistory (history : List ScopeAction) :
    ∀ f ∈ (EvalState.ofHistory history).scopes.frames, f.names.Nodup := by
  rw [← List.forall_mem_map (P := List.Nodup), map_names_ofHistory]
  induction history using List.reverseRecOn with
  | nil => simp
  | append_singleton history a ih =>
    rw [List.foldl_append]
    exact ScopeAction.nodup_declaring ih a

/-- After any actions, every scope has each of its names once, in the order of the declarations.
A declaration fails if the current scope has the name, an assignment if no scope has it, and a
failure changes nothing. Else the one adds the name at the end of the current scope, and the other
changes the value in the nearest scope that has the name and nothing beside it. From every scope of
the chain all lookups mean the nearest scope that has the name. -/
theorem scopes_of_history (history : List ScopeAction) :
    let s := EvalState.ofHistory history
    s.scopes.frames.map Frame.names = history.foldl ScopeAction.declaring [[]] ∧
    (∀ f ∈ s.scopes.frames, f.names.Nodup) ∧
    (∀ name binding, Eval.Declares s name binding ((Eval.declare name binding).run s)) ∧
    (∀ name value, Eval.Assigns s name value ((Eval.assign name value).run s)) ∧
    ∀ index name, (s.scopes.seenFrom index).Resolves name
      ((s.scopes.seenFrom index).binding? name) ((s.scopes.seenFrom index).lookup? name)
      ((s.scopes.seenFrom index).ownerDepth? name)
      ((s.scopes.seenFrom index).current.owns name) := by
  intro s
  refine ⟨map_names_ofHistory history, nodup_names_ofHistory history, ?_, ?_, ?_⟩
  · exact Eval.declares_run s
  · exact Eval.assigns_run s
  · exact fun index => (s.scopes.seenFrom index).resolves

/-- An assignment passes a scope without the name, ends at the first that has it, and leaves the one
that this hides as it is. -/
example :
    let binding (text : String) : Binding := { value := .text text }
    let s := EvalState.ofHistory [.declare "x" (binding "outer"), .push,
      .declare "x" (binding "inner"), .push, .assign "x" (.text "new")]
    s.scopes.lookup? "x" = some (.text "new") ∧
      (s.scopes.seenFrom 1).lookup? "x" = some (.text "new") ∧
      (s.scopes.seenFrom 2).lookup? "x" = some (.text "outer") :=
  ⟨rfl, rfl, rfl⟩

end Exclaim
