import Mathlib.Data.List.Infix
import Mathlib.Tactic.MkIffOfInductiveProp
import Exclaim.Proofs.Source.Stray

/-! The wording of findings. Placeholders are filled one after the other, each through the whole
text. That comes to filling all of them at once as long as no placeholder comes of the arguments
before its own. -/
namespace Exclaim
namespace Template

/-- What a template is made of. -/
inductive Part where
  | letter (c : Char)
  /-- The placeholder of the argument at `index`. -/
  | slot (index : Nat)
deriving DecidableEq

/-- The text of a part when these arguments are given: placeholders without one stay. -/
def Part.fill (args : List String) : Part → List Char
  | letter c => [c]
  | slot index => (args[index]?.map String.toList).getD (placeholder index)

/-- The text of some parts when these arguments are given. -/
def text (args : List String) (ps : List Part) : List Char := ps.flatMap (Part.fill args)

/-- Which of the first `count` placeholders a text starts with. -/
def slot? (count : Nat) (text : List Char) : Option Nat :=
  (List.range count).find? fun index => (placeholder index).isPrefixOf text

/-- The parts of a template for `count` arguments. The first `skip` characters belong to a
placeholder already found. -/
def partsFrom (count : Nat) : Nat → List Char → List Part
  | _, [] => []
  | skip + 1, _ :: cs => partsFrom count skip cs
  | 0, c :: cs =>
      match slot? count (c :: cs) with
      | some index => .slot index :: partsFrom count ((placeholder index).length - 1) cs
      | none => .letter c :: partsFrom count 0 cs

def parts (count : Nat) (text : List Char) : List Part := partsFrom count 0 text

/-- A template with all placeholders replaced at once. -/
def substitute (template : String) (args : List String) : String :=
  String.ofList (text args (parts args.length template.toList))

/-- No occurrence of the pattern starts in the text when `rest` comes next. -/
def ClearBefore (pattern text rest : List Char) : Prop :=
  ∀ tail ∈ text.tails, tail ≠ [] → ¬ pattern <+: tail ++ rest

instance (pattern text rest : List Char) : Decidable (ClearBefore pattern text rest) :=
  List.decidableBAll _ _

/-- With some arguments given, placeholder `k` starts only where the parts have it. -/
def Unmixed (k : Nat) (args : List String) : List Part → Prop
  | [] => True
  | p :: ps =>
      (p ≠ .slot k → ClearBefore (placeholder k) (p.fill args) (text args ps)) ∧ Unmixed k args ps

instance decidableUnmixed (k : Nat) (args : List String) : ∀ ps, Decidable (Unmixed k args ps)
  | [] => .isTrue trivial
  | p :: ps =>
      have := decidableUnmixed k args ps
      inferInstanceAs (Decidable ((p ≠ .slot k → _) ∧ Unmixed k args ps))

/-- No occurrence of the pattern starts in the text, whatever comes next. -/
def Clear (pattern text : List Char) : Prop :=
  ∀ tail ∈ text.tails, tail ≠ [] → ¬ tail <+: pattern ∧ ¬ pattern <+: tail

instance (pattern text : List Char) : Decidable (Clear pattern text) := List.decidableBAll _ _

/-- No proper start of placeholder `k` stands right before placeholder `i` in the template. -/
def Apart (template : List Char) (i k : Nat) : Prop :=
  ∀ start ∈ (placeholder k).inits, start ≠ [] → start ≠ placeholder k →
    ¬ start ++ placeholder i <:+: template

instance (template : List Char) (i k : Nat) : Decidable (Apart template i k) :=
  List.decidableBAll _ _

/-- No placeholder can be read into an argument before its own, wherever that argument stands. -/
@[mk_iff] structure Independent (template : List Char) (args : List String) : Prop where
  apart : ∀ k < args.length, ∀ i < k, Apart template i k
  clear : ∀ k < args.length, ∀ i < k, ∀ arg ∈ args[i]?, Clear (placeholder k) arg.toList

instance (template : List Char) (args : List String) : Decidable (Independent template args) :=
  decidable_of_iff _ (independent_iff template args).symm

section Placeholders
variable {i k : Nat} {xs ys : List Char}

lemma placeholder_cons (k : Nat) :
    placeholder k = '\x7b' :: (Nat.toDigits 10 k ++ ['\x7d']) := by
  simp [placeholder]

/-- A placeholder ends with its first closing bracket, so it can be told apart from all others. -/
lemma placeholder_append_inj (h : placeholder i ++ xs = placeholder k ++ ys) : i = k := by
  have hdigits : ∀ n, ∀ c ∈ Nat.toDigits 10 n, (c != '\x7d') = true := by
    intro n c hc
    have hdigit := Nat.isDigit_of_mem_toDigits (by decide) (by decide) hc
    apply bne_iff_ne.2
    rintro rfl
    exact absurd hdigit (by decide)
  have hbody : ∀ n zs, ((placeholder n ++ zs).tail).takeWhile (· != '\x7d') =
      Nat.toDigits 10 n := by
    intro n zs
    rw [placeholder_cons, List.cons_append, List.tail_cons, List.append_assoc,
      List.takeWhile_append_of_pos (hdigits n)]
    simp
  have hsame : Nat.toDigits 10 i = Nat.toDigits 10 k := by rw [← hbody i xs, h, hbody]
  rw [← Nat.ofDigitChars_ten_toDigits (n := i), hsame, Nat.ofDigitChars_ten_toDigits]

/-- A placeholder opens once. -/
lemma not_mem_tail_placeholder (k : Nat) : '\x7b' ∉ (placeholder k).tail := by
  rw [placeholder_cons, List.tail_cons, List.mem_append, not_or]
  refine ⟨fun hmem => ?_, by decide⟩
  have hdigit := Nat.isDigit_of_mem_toDigits (by decide) (by decide) hmem
  exact absurd hdigit (by decide)

/-- Another placeholder does not start in a placeholder. -/
lemma clearBefore_placeholder (h : i ≠ k) : ClearBefore (placeholder k) (placeholder i) ys := by
  have hopen := not_mem_tail_placeholder i
  unfold ClearBefore
  rw [placeholder_cons i, List.tails_cons, List.forall_mem_cons]
  rw [placeholder_cons i, List.tail_cons] at hopen
  constructor
  · rintro - ⟨zs, hzs⟩
    rw [← placeholder_cons] at hzs
    exact h (placeholder_append_inj hzs.symm)
  · intro tail htail hne hprefix
    obtain ⟨c, cs, rfl⟩ := List.exists_cons_of_ne_nil hne
    rw [placeholder_cons k] at hprefix
    obtain ⟨rfl, -⟩ := List.cons_prefix_cons.1 hprefix
    exact hopen (((List.mem_tails _ _).1 htail).subset List.mem_cons_self)

lemma Apart.mono {template template' : List Char} (h : Apart template i k)
    (hsub : template' <:+: template) : Apart template' i k := by
  intro start hstart hne hproper hinside
  exact h start hstart hne hproper (hinside.trans hsub)

end Placeholders

section Replacing
variable {pattern new text rest : List Char}

lemma replaceFrom_length (cs rest : List Char) :
    replaceFrom pattern new cs.length (cs ++ rest) = replaceAll pattern new rest := by
  induction cs with
  | nil => rfl
  | cons c cs ih =>
    rw [List.cons_append, List.length_cons, replaceFrom]
    exact ih

lemma replaceAll_pattern (hne : pattern ≠ []) :
    replaceAll pattern new (pattern ++ rest) = new ++ replaceAll pattern new rest := by
  cases pattern with
  | nil => exact absurd rfl hne
  | cons c cs =>
    have hstarts : (c :: cs).isPrefixOf (c :: (cs ++ rest)) :=
      List.isPrefixOf_iff_prefix.2 (List.prefix_append (c :: cs) rest)
    rw [replaceAll, List.cons_append, replaceFrom, if_pos hstarts]
    exact congrArg (new ++ ·) (replaceFrom_length cs rest)

/-- A text stays when no occurrence starts in it. -/
lemma replaceAll_append (h : ClearBefore pattern text rest) :
    replaceAll pattern new (text ++ rest) = text ++ replaceAll pattern new rest := by
  induction text with
  | nil => rfl
  | cons c text ih =>
    rw [ClearBefore, List.tails_cons, List.forall_mem_cons] at h
    have hstarts : ¬ pattern.isPrefixOf (c :: (text ++ rest)) = true := by
      rw [List.isPrefixOf_iff_prefix]
      exact h.1 (by simp)
    rw [replaceAll, List.cons_append, replaceFrom, if_neg hstarts, List.cons_append]
    exact congrArg (c :: ·) (ih h.2)

lemma Clear.before (h : Clear pattern text) : ClearBefore pattern text rest := by
  intro tail htail hne hprefix
  obtain ⟨hshort, hlong⟩ := h tail htail hne
  rcases List.prefix_or_prefix_of_prefix hprefix (List.prefix_append tail rest) with h | h
  · exact hlong h
  · exact hshort h

/-- Where no bracket opens, no placeholder starts. -/
lemma clear_of_notMem {k : Nat} (h : '\x7b' ∉ text) : Clear (placeholder k) text := by
  intro tail htail hne
  obtain ⟨c, cs, rfl⟩ := List.exists_cons_of_ne_nil hne
  have hc : c ≠ '\x7b' := by
    rintro rfl
    exact h (((List.mem_tails _ _).1 htail).subset List.mem_cons_self)
  rw [placeholder_cons]
  constructor
  · intro hshort
    exact hc (List.cons_prefix_cons.1 hshort).1
  · intro hlong
    exact hc (List.cons_prefix_cons.1 hlong).1.symm

end Replacing

/-- No placeholder has been missed. -/
inductive Resolved (count : Nat) : List Part → Prop where
  | nil : Resolved count []
  | slot {index : Nat} {ps : List Part} (h : index < count) (hps : Resolved count ps) :
      Resolved count (.slot index :: ps)
  | letter {c : Char} {ps : List Part} (h : slot? count (c :: text [] ps) = none)
      (hps : Resolved count ps) : Resolved count (.letter c :: ps)

section Parts
variable {count : Nat} {pre : List String} {ps : List Part}

@[simp] lemma text_nil (args : List String) : text args [] = [] := rfl

@[simp] lemma text_cons (args : List String) (p : Part) (ps : List Part) :
    text args (p :: ps) = p.fill args ++ text args ps := rfl

lemma text_append (args : List String) (ps qs : List Part) :
    text args (ps ++ qs) = text args ps ++ text args qs := List.flatMap_append

lemma text_letters (args : List String) (cs : List Char) : text args (cs.map .letter) = cs := by
  induction cs with
  | nil => rfl
  | cons c cs ih => simpa [Part.fill] using ih

lemma slot?_eq_some {cs : List Char} {index : Nat} (h : slot? count cs = some index) :
    index < count ∧ placeholder index <+: cs := by
  obtain ⟨hstarts, hmem⟩ := And.intro (List.find?_some h) (List.mem_of_find?_eq_some h)
  exact ⟨List.mem_range.1 hmem, List.isPrefixOf_iff_prefix.1 hstarts⟩

lemma not_prefix_of_slot? {cs : List Char} {index : Nat} (h : slot? count cs = none)
    (hindex : index < count) : ¬ placeholder index <+: cs := by
  intro hprefix
  have hmem : index ∈ List.range count := List.mem_range.2 hindex
  exact List.find?_eq_none.1 h index hmem (List.isPrefixOf_iff_prefix.2 hprefix)

/-- Without arguments the parts of a template give it back. -/
lemma text_partsFrom (skip : Nat) (cs : List Char) :
    text [] (partsFrom count skip cs) = cs.drop skip := by
  fun_induction partsFrom count skip cs with
  | case1 skip => simp
  | case2 skip c cs ih => simpa using ih
  | case3 c cs index hslot ih =>
    obtain ⟨-, rest, hrest⟩ := slot?_eq_some hslot
    rw [placeholder_cons, List.cons_append] at hrest
    obtain ⟨rfl, rfl⟩ := List.cons.inj hrest
    rw [text_cons, ih]
    simp [Part.fill, placeholder_cons]
  | case4 c cs hslot ih => simpa [Part.fill] using ih

lemma resolved_partsFrom (skip : Nat) (cs : List Char) :
    Resolved count (partsFrom count skip cs) := by
  fun_induction partsFrom count skip cs with
  | case1 skip => exact .nil
  | case2 skip c cs ih => exact ih
  | case3 c cs index hslot ih => exact .slot (slot?_eq_some hslot).1 ih
  | case4 c cs hslot ih =>
    apply Resolved.letter _ ih
    rwa [text_partsFrom, List.drop_zero]

lemma Part.fill_slot_of_lt {index : Nat} (h : index < pre.length) :
    (Part.slot index).fill pre = pre[index].toList := by
  simp [Part.fill, h]

lemma Part.fill_slot_of_le {index : Nat} (h : pre.length ≤ index) :
    (Part.slot index).fill pre = placeholder index := by
  simp [Part.fill, h]

/-- What starts a text with some arguments and does not open a placeholder starts the text without
them, or it runs into an argument. -/
lemma prefix_text {w : List Char} (hw : '\x7b' ∉ w) (h : w <+: text pre ps) :
    w <+: text [] ps ∨ ∃ i < pre.length, ∃ u v, w = u ++ v ∧ v ≠ [] ∧
      u ++ placeholder i <+: text [] ps := by
  induction ps generalizing w with
  | nil => exact .inl h
  | cons p ps ih =>
    cases w with
    | nil => exact .inl List.nil_prefix
    | cons x w =>
      rw [text_cons] at h ⊢
      cases p with
      | letter c =>
        obtain ⟨rfl, hprefix⟩ := List.cons_prefix_cons.1 h
        rcases ih (fun hmem => hw (List.mem_cons_of_mem _ hmem)) hprefix with
          hplain | ⟨i, hi, u, v, rfl, hv, hinto⟩
        · exact .inl (List.cons_prefix_cons.2 ⟨rfl, hplain⟩)
        · exact .inr ⟨i, hi, x :: u, v, rfl, hv, List.cons_prefix_cons.2 ⟨rfl, hinto⟩⟩
      | slot i =>
        rcases Nat.lt_or_ge i pre.length with hi | hi
        · exact .inr ⟨i, hi, [], x :: w, rfl, by simp, List.prefix_append _ _⟩
        · rw [Part.fill_slot_of_le hi, placeholder_cons] at h
          obtain ⟨rfl, -⟩ := List.cons_prefix_cons.1 h
          exact absurd List.mem_cons_self hw

/-- A letter of the template starts no placeholder, however the rest is filled. -/
lemma not_prefix_letter {c : Char} (hc : slot? count (c :: text [] ps) = none)
    (hcount : pre.length < count)
    (hapart : ∀ i < pre.length, Apart (c :: text [] ps) i pre.length) :
    ¬ placeholder pre.length <+: c :: text pre ps := by
  intro h
  have hopen := not_mem_tail_placeholder pre.length
  rw [placeholder_cons, List.tail_cons] at hopen
  rw [placeholder_cons] at h
  obtain ⟨rfl, hbody⟩ := List.cons_prefix_cons.1 h
  rcases prefix_text hopen hbody with hplain | ⟨i, hi, u, v, huv, hv, hinto⟩
  · apply not_prefix_of_slot? hc hcount
    rw [placeholder_cons]
    exact List.cons_prefix_cons.2 ⟨rfl, hplain⟩
  · have hstart : placeholder pre.length = ('\x7b' :: u) ++ v := by
      rw [placeholder_cons, huv, List.cons_append]
    have hinits : '\x7b' :: u ∈ (placeholder pre.length).inits := by
      rw [List.mem_inits, hstart]
      exact List.prefix_append _ _
    have hproper : '\x7b' :: u ≠ placeholder pre.length := by
      rw [hstart]
      intro hall
      exact hv (List.self_eq_append_right.1 hall)
    have hinside : ('\x7b' :: u) ++ placeholder i <:+: '\x7b' :: text [] ps :=
      (List.cons_prefix_cons.2 ⟨rfl, hinto⟩).isInfix
    exact hapart i hi _ hinits (by simp) hproper hinside

/-- Where arguments and placeholders cannot meet, placeholders start only where they stand. -/
lemma Resolved.unmixed {k : Nat} (hps : Resolved count ps) (hpre : pre.length = k)
    (hcount : k < count) (hapart : ∀ i < k, Apart (text [] ps) i k)
    (hclear : ∀ early ∈ pre, Clear (placeholder k) early.toList) : Unmixed k pre ps := by
  subst hpre
  induction hps with
  | nil => trivial
  | @slot index ps hindex hps ih =>
    refine ⟨fun hne => ?_, ih fun i hi => (hapart i hi).mono (List.suffix_append _ _).isInfix⟩
    rcases Nat.lt_or_ge index pre.length with hlt | hge
    · rw [Part.fill_slot_of_lt hlt]
      exact (hclear _ (List.getElem_mem hlt)).before
    · rw [Part.fill_slot_of_le hge]
      exact clearBefore_placeholder fun heq => hne (congrArg Part.slot heq)
  | @letter c ps hc hps ih =>
    refine ⟨fun _ => ?_, ih fun i hi => (hapart i hi).mono (List.suffix_append _ _).isInfix⟩
    simpa [ClearBefore, Part.fill] using not_prefix_letter hc hcount hapart

end Parts

section Step
variable {pre rest : List String} {arg : String} {ps : List Part}

lemma Part.fill_concat {p : Part} (h : p ≠ .slot pre.length) :
    p.fill (pre ++ [arg]) = p.fill pre := by
  cases p with
  | letter c => rfl
  | slot index =>
    have hne : index ≠ pre.length := fun heq => h (congrArg Part.slot heq)
    rcases Nat.lt_or_ge index pre.length with hlt | hge
    · simp [Part.fill, List.getElem?_append_left hlt]
    · have hlonger : (pre ++ [arg]).length ≤ index := by
        rw [List.length_append, List.length_singleton]
        omega
      rw [Part.fill_slot_of_le hge, Part.fill_slot_of_le hlonger]

/-- One more argument: its placeholder is replaced where the template has it and nowhere else. -/
lemma replaceAll_text (h : Unmixed pre.length pre ps) :
    replaceAll (placeholder pre.length) arg.toList (text pre ps) = text (pre ++ [arg]) ps := by
  induction ps with
  | nil => rfl
  | cons p ps ih =>
    obtain ⟨hp, hps⟩ := h
    rw [text_cons, text_cons, ← ih hps]
    by_cases hslot : p = .slot pre.length
    · rw [hslot, Part.fill_slot_of_le le_rfl, Part.fill_slot_of_lt (by simp),
        List.getElem_concat_length rfl]
      exact replaceAll_pattern (by simp [placeholder_cons])
    · rw [Part.fill_concat hslot]
      exact replaceAll_append (hp hslot)

/-- Filling goes through the arguments, each of which takes the places of its placeholder. -/
lemma fillFrom_text
    (h : ∀ k, pre.length ≤ k → k < (pre ++ rest).length → Unmixed k ((pre ++ rest).take k) ps) :
    fillFrom pre.length (text pre ps) rest = text (pre ++ rest) ps := by
  induction rest generalizing pre with
  | nil => simp [fillFrom]
  | cons arg rest ih =>
    have hstep : replaceAll (placeholder pre.length) arg.toList (text pre ps) =
        text (pre ++ [arg]) ps := by
      apply replaceAll_text
      simpa using h pre.length le_rfl (by simp)
    have hlength : (pre ++ [arg]).length = pre.length + 1 := List.length_append
    rw [List.append_cons] at h ⊢
    rw [fillFrom, hstep, ← hlength]
    apply ih
    intro k hk
    exact h k (by omega)

end Step

section Whole
variable {template : String} {args : List String}

/-- When no placeholder comes of the arguments before its own, filling one after the other is
filling all at once. -/
lemma fill_eq_substitute
    (h : ∀ k < args.length, Unmixed k (args.take k) (parts args.length template.toList)) :
    fill template args = substitute template args := by
  have hparts : text [] (parts args.length template.toList) = template.toList :=
    text_partsFrom 0 _
  have hfill : fillFrom ([] : List String).length
      (text [] (parts args.length template.toList)) args =
        text ([] ++ args) (parts args.length template.toList) := by
    apply fillFrom_text
    intro k _ hk
    exact h k hk
  rw [hparts] at hfill
  exact congrArg String.ofList hfill

lemma Independent.unmixed (h : Independent template.toList args) :
    ∀ k < args.length, Unmixed k (args.take k) (parts args.length template.toList) := by
  intro k hk
  have hlength : (args.take k).length = k := List.length_take_of_le hk.le
  have hparts : text [] (parts args.length template.toList) = template.toList :=
    text_partsFrom 0 _
  have hresolved : Resolved args.length (parts args.length template.toList) :=
    resolved_partsFrom 0 _
  apply hresolved.unmixed hlength hk
  · intro i hi
    rw [hparts]
    exact h.apart k hk i hi
  · intro early hearly
    obtain ⟨i, hi, rfl⟩ := List.getElem_of_mem hearly
    have hlt : i < k := by rwa [hlength] at hi
    have hfound : args[i]? = some (args.take k)[i] := by
      rw [← List.getElem?_eq_getElem hi, List.getElem?_take_of_lt hlt]
    exact h.clear k hk i hlt _ hfound

lemma Independent.fill_eq (h : Independent template.toList args) :
    fill template args = substitute template args := fill_eq_substitute h.unmixed

/-- A single argument has no later placeholder to meet. -/
lemma independent_of_length_le_one (h : args.length ≤ 1) : Independent template.toList args := by
  constructor
  · intro k hk i hi
    omega
  · intro k hk i hi
    omega

end Whole
end Template

open Template

lemma mem_escapeChar {c : Char} (hcontrol : ¬ (c.toNat < 0x20 ∨ c.toNat = 0x7f)) {d : Char}
    (hd : d ∈ (escapeChar c).toList) : d = '\\' ∨ d = c := by
  have hname : ∀ e : Char, e.toNat < 0x20 → c ≠ e := by
    rintro e he rfl
    exact hcontrol (.inl he)
  rw [escapeChar, if_neg (hname _ (by decide)), if_neg (hname _ (by decide)),
    if_neg (hname _ (by decide)), if_neg (hname _ (by decide)), if_neg hcontrol] at hd
  split at hd
  · simpa using hd
  · exact .inr (by simpa using hd)

/-- The escape of a stray character holds the second placeholder for one character only. -/
lemma Piece.IsStray.clear_escapeChar {c : Char} (h : IsStray c) (hc : c ≠ '\x01') :
    Clear (placeholder 1) (escapeChar c).toList := by
  by_cases hcontrol : c.toNat < 0x20 ∨ c.toNat = 0x7f
  · have hall : ∀ n ∈ 0x7f :: List.range 0x20, Char.ofNat n ≠ '\x01' →
        Clear (placeholder 1) (escapeChar (Char.ofNat n)).toList := by decide +kernel
    have hmem : c.toNat ∈ 0x7f :: List.range 0x20 := by simpa [or_comm] using hcontrol
    have hclear := hall c.toNat hmem
    rw [Char.ofNat_toNat] at hclear
    exact hclear hc
  · apply clear_of_notMem
    intro hopen
    rcases mem_escapeChar hcontrol hopen with hopen | rfl
    · exact absurd hopen (by decide)
    · exact absurd h (by decide)

/-- The two placeholders of the message stand apart. -/
lemma substitute_invalidCharacter (shown code : String) :
    substitute Message.invalidCharacter.template [shown, code] =
      "Invalid character '" ++ shown ++ "' (code " ++ code ++ ")." := by
  have hparts : parts 2 Message.invalidCharacter.template.toList =
      "Invalid character '".toList.map Part.letter ++ [.slot 0] ++
        "' (code ".toList.map Part.letter ++ [.slot 1] ++ ").".toList.map Part.letter := by
    decide +kernel
  have htext : text [shown, code] (parts 2 Message.invalidCharacter.template.toList) =
      "Invalid character '".toList ++ shown.toList ++ "' (code ".toList ++ code.toList ++
        ").".toList := by
    rw [hparts]
    simp only [text_append, text_letters]
    simp [Part.fill]
  apply String.toList_inj.1
  simp only [String.toList_append]
  exact (String.toList_ofList).trans htext

lemma Piece.IsStray.text_invalidCharacter {c : Char} (h : IsStray c) (hc : c ≠ '\x01')
    (code : String) :
    fill Message.invalidCharacter.template [escapeChar c, code] =
      "Invalid character '" ++ escapeChar c ++ "' (code " ++ code ++ ")." := by
  have hapart : Apart Message.invalidCharacter.template.toList 0 1 := by decide +kernel
  have hindependent :
      Independent Message.invalidCharacter.template.toList [escapeChar c, code] := by
    constructor
    · intro k hk i hi
      obtain ⟨rfl, rfl⟩ : k = 1 ∧ i = 0 := by simp at hk; omega
      exact hapart
    · intro k hk i hi arg harg
      obtain ⟨rfl, rfl⟩ : k = 1 ∧ i = 0 := by simp at hk; omega
      obtain rfl : escapeChar c = arg := by simpa using harg
      exact h.clear_escapeChar hc
  rw [hindependent.fill_eq, substitute_invalidCharacter]

lemma ScanError.text_toDiagnostic (e : ScanError) :
    e.toDiagnostic.text =
      fill Message.invalidCharacter.template [escapeChar e.character, toString e.code] := rfl

/-- The escape of U+0001 reads as the second placeholder, so the code takes the place of a part of
it. -/
lemma ScanError.text_ne_of_character {e : ScanError} (h : e.character = '\x01') :
    e.toDiagnostic.text ≠
      "Invalid character '" ++ escapeChar e.character ++ "' (code " ++ toString e.code ++ ")." := by
  rw [text_toDiagnostic, code, h]
  decide +kernel

/-- Filling a template comes to replacing all placeholders at once when no placeholder comes of the
arguments before its own. That is so where none can be read into them wherever they stand, and
where there is one argument at most. The finding about a character that cannot be read shows it and
its code, unless that character is U+0001. -/
theorem fill_simultaneous (template : String) (args : List String) :
    ((∀ k < args.length, Unmixed k (args.take k) (parts args.length template.toList)) →
      fill template args = substitute template args) ∧
    (Independent template.toList args → fill template args = substitute template args) ∧
    (args.length ≤ 1 → fill template args = substitute template args) ∧
    ∀ source e, tokenize source = .error e →
      (e.toDiagnostic.text =
          "Invalid character '" ++ escapeChar e.character ++ "' (code " ++ toString e.code ++ ")." ↔
        e.character ≠ '\x01') := by
  refine ⟨fill_eq_substitute, Independent.fill_eq, fun h => ?_,
    fun source e he => ⟨fun htext hc => ?_, ?_⟩⟩
  · exact (independent_of_length_le_one h).fill_eq
  · exact ScanError.text_ne_of_character hc htext
  · intro hc
    have hstray : Piece.IsStray e.character := Scanner.isStray_of_tokenize_error (Prod.ext he rfl)
    rw [e.text_toDiagnostic]
    exact hstray.text_invalidCharacter hc _

/-- Brackets in an argument do no harm where no placeholder comes of them, and neither do escapes
with other codes. -/
theorem fill_simultaneous_brackets :
    fill "'\x7b0\x7d' expected, found '\x7b1\x7d'." ["\x7b", "\x7b0\x7d"] =
      "'\x7b' expected, found '\x7b0\x7d'." ∧
    fill "\x7b1\x7d: \x7b0\x7d\x7b0\x7d" ["\x7b7\x7d\x7d", ""] = ": \x7b7\x7d\x7d\x7b7\x7d\x7d" ∧
    fill "\x7b0\x7d\x7b1\x7d" ["\x7b1\x7d"] = "\x7b1\x7d\x7b1\x7d" ∧
    ∃ e, tokenize "\x1b" = .error e ∧
      e.toDiagnostic.text = "Invalid character '\\u\x7b1b\x7d' (code 27)." := by
  have hstray : Piece.IsStray '\x1b' := by decide
  have hfails : tokenize "\x1b" = .error ⟨'\x1b', 0, 1⟩ :=
    congrArg Prod.fst (Scanner.tokenize_of_isStray hstray rfl)
  refine ⟨?_, ?_, ?_, _, hfails, ?_⟩
  · rw [(fill_simultaneous _ _).1 (by decide +kernel)]
    decide +kernel
  · rw [(fill_simultaneous _ _).2.1 (by decide +kernel)]
    decide +kernel
  · rw [(fill_simultaneous _ _).2.2.1 (by decide)]
    decide +kernel
  · rw [((fill_simultaneous "" []).2.2.2 _ _ hfails).2 (by decide)]
    decide +kernel

/-- A source that is U+0001 alone. -/
theorem fill_not_simultaneous :
    ∃ e, tokenize "\x01" = .error e ∧
      e.toDiagnostic.text = "Invalid character '\\u1' (code 1)." ∧
      e.toDiagnostic.text ≠ "Invalid character '" ++ escapeChar e.character ++
        "' (code " ++ toString e.code ++ ")." := by
  have hstray : Piece.IsStray '\x01' := by decide
  have hfails : tokenize "\x01" = .error ⟨'\x01', 0, 1⟩ :=
    congrArg Prod.fst (Scanner.tokenize_of_isStray hstray rfl)
  exact ⟨_, hfails, by decide +kernel, ScanError.text_ne_of_character rfl⟩

end Exclaim
