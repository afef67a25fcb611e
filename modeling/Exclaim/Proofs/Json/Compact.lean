import Exclaim.Json.Basic
import Exclaim.Json.Reader
import Exclaim.Proofs.Number.ReadBack

/-! The compact form of JSON values is unambiguous. No text imitates structure, no number is cut
short, and finite numbers that differ are written differently. -/
namespace Exclaim.Json

section Texts
variable {c : Char} {cs rest rest' : List Char} {s s' : String}

lemma hexDigits_control : ∀ code < 0x20,
    ∃ a b c d, hexDigits code = [a, b, c, d] ∧ Raw.hexCode? [a, b, c, d] = some code := by
  have hall : ∀ code < 0x20, (hexDigits code).length = 4 ∧
      Raw.hexCode? (hexDigits code) = some code := by decide
  intro code hcode
  obtain ⟨hlength, hread⟩ := hall code hcode
  match h : hexDigits code, hlength with
  | [a, b, c, d], _ => exact ⟨a, b, c, d, rfl, h ▸ hread⟩

/-- What is read for one more character. -/
def readMore (code : Nat) (cs : List Char) : Option (List Nat × List Char) :=
  (Raw.codes? cs).map fun (codes, rest) => (code :: codes, rest)

lemma codes?_escape {code : Nat} (hu : c ≠ 'u') (h : Raw.escape? c = some code) (cs : List Char) :
    Raw.codes? ('\\' :: c :: cs) = readMore code cs := by
  rw [Raw.codes?]
  · rw [h, readMore]
    cases Raw.codes? cs <;> rfl
  · exact fun a b d e more hc => absurd hc hu

/-- An escaped character is read back. -/
lemma codes?_escapeChar (c : Char) (cs : List Char) :
    Raw.codes? (escapeChar c ++ cs) = readMore c.toNat cs := by
  unfold escapeChar
  split_ifs with hq hb h08 h0c hn hr ht hu
  · exact codes?_escape (by decide) (by rw [hq]; rfl) cs
  · exact codes?_escape (by decide) (by rw [hb]; rfl) cs
  · exact codes?_escape (by decide) (by rw [h08]; rfl) cs
  · exact codes?_escape (by decide) (by rw [h0c]; rfl) cs
  · exact codes?_escape (by decide) (by rw [hn]; rfl) cs
  · exact codes?_escape (by decide) (by rw [hr]; rfl) cs
  · exact codes?_escape (by decide) (by rw [ht]; rfl) cs
  · obtain ⟨a, b, d, e, hdigits, hread⟩ := hexDigits_control c.toNat hu
    rw [hdigits, readMore]
    simp only [List.cons_append, List.nil_append, Raw.codes?, hread]
    cases Raw.codes? cs <;> rfl
  · rw [List.singleton_append, Raw.codes?]
    · rw [if_neg hq, if_neg (by simp [hb, hu]), readMore]
      cases Raw.codes? cs <;> rfl
    · simp [hb]
    · simp [hb]

lemma codes?_quoted (cs rest : List Char) :
    Raw.codes? (cs.flatMap escapeChar ++ '\x22' :: rest) = some (cs.map Char.toNat, rest) := by
  induction cs with
  | nil => simp [Raw.codes?]
  | cons c cs ih =>
    rw [List.flatMap_cons, List.append_assoc, codes?_escapeChar, readMore, ih]
    rfl

/-- A quoted text ends where it says. -/
lemma quote_append_inj (h : quote s ++ rest = quote s' ++ rest') : s = s' ∧ rest = rest' := by
  simp only [quote, List.cons_append, List.cons.injEq, true_and, List.append_assoc,
    List.nil_append] at h
  have hread := codes?_quoted s.toList rest
  rw [h, codes?_quoted] at hread
  simp only [Option.some.injEq, Prod.mk.injEq] at hread
  have hchars : s'.toList = s.toList :=
    List.map_injective_iff.2 (fun c d hcd => Char.toNat_inj.1 hcd) hread.1
  exact ⟨String.toList_inj.1 hchars.symm, hread.2.symm⟩

end Texts

section Numbers
variable {x y : Float}

/-- A text that is a number from its first character to its last. -/
structure IsNumber (text : List Char) : Prop where
  head : ∃ c ∈ text.head?, c.isDigit ∨ c = '-'
  all : ∀ c ∈ text, isNumeric c

lemma isNumber_write (hx : Binary.IsFinite x) : IsNumber (numberStyle.write x).toList := by
  obtain ⟨negative, mantissa, shift, hread⟩ := hx.read_eq
  rcases Nat.eq_zero_or_pos mantissa with rfl | hm
  · rw [write_zero numberStyle hread]
    cases negative with
    | false => exact ⟨⟨'0', rfl, .inl rfl⟩, by simp [numberStyle, isNumeric]⟩
    | true => exact ⟨⟨'-', rfl, .inr rfl⟩, by simp [numberStyle, isNumeric]⟩
  · refine ⟨?_, NumberStyle.isNumeric_write numberStyle hread hm⟩
    obtain ⟨c, hc, hdigit⟩ := (ReadsAs.writeDecimal numberStyle
      (Shortest.ofReading numberStyle.tie mantissa shift)).head
    rw [write_of_read numberStyle hread hm, String.toList_ofList]
    cases negative with
    | false => exact ⟨c, hc, .inl hdigit⟩
    | true => exact ⟨'-', rfl, .inr rfl⟩

lemma readNumber?_write_finite (hx : Binary.IsFinite x) :
    readNumber? (numberStyle.write x) = some x := by
  obtain ⟨negative, mantissa, shift, hread⟩ := hx.read_eq
  rcases Nat.eq_zero_or_pos mantissa with rfl | hm
  · rw [write_zero numberStyle hread, Binary.eq_zero_of_read hread]
    cases negative <;> decide +kernel
  · exact readNumber?_write numberStyle hread hm

/-- Finite numbers that differ are written differently. -/
lemma write_inj (hx : Binary.IsFinite x) (hy : Binary.IsFinite y)
    (h : numberStyle.write x = numberStyle.write y) : x = y := by
  have hread := readNumber?_write_finite hx
  rw [h, readNumber?_write_finite hy] at hread
  exact (Option.some.inj hread).symm

/-- What may follow a value. -/
def Delimits (rest : List Char) : Prop := ∀ c ∈ rest.head?, isNumeric c = false

/-- A number ends where no more characters of a number come. -/
lemma number_append_inj {text text' rest rest' : List Char} (ht : IsNumber text)
    (ht' : IsNumber text') (hrest : Delimits rest) (hrest' : Delimits rest')
    (h : text ++ rest = text' ++ rest') : text = text' ∧ rest = rest' := by
  have hspan : ∀ {text rest : List Char}, IsNumber text → Delimits rest →
      (text ++ rest).takeWhile isNumeric = text := by
    intro text rest ht hrest
    rw [List.takeWhile_append_of_pos ht.all]
    cases rest with
    | nil => simp
    | cons c rest => simp [hrest c rfl]
  have htext : text = text' := by rw [← hspan ht hrest, h, hspan ht' hrest']
  subst htext
  exact ⟨rfl, List.append_cancel_left h⟩

end Numbers

mutual

/-- Whether all numbers in a value are finite. Others are written like an absent value. -/
@[simp] def IsFinite : Json → Prop
  | .number value => Binary.IsFinite value
  | .list items => AllFinite items
  | .record fields => FieldsFinite fields
  | _ => True

@[simp] def AllFinite : List Json → Prop
  | [] => True
  | item :: items => item.IsFinite ∧ AllFinite items

@[simp] def FieldsFinite : List (String × Json) → Prop
  | [] => True
  | field :: fields => field.2.IsFinite ∧ FieldsFinite fields

end

/-- What the first character of a value tells about it. -/
inductive Form where
  | null
  | boolean
  | number
  | text
  | list
  | record
deriving DecidableEq

def form : Json → Form
  | .null => .null
  | .boolean _ => .boolean
  | .number _ => .number
  | .text _ => .text
  | .list _ => .list
  | .record _ => .record

def Form.ofLead? (c : Char) : Option Form :=
  if c = 'n' then some .null
  else if c = 't' ∨ c = 'f' then some .boolean
  else if c = '\x22' then some .text
  else if c = '[' then some .list
  else if c = '\x7b' then some .record
  else if c.isDigit ∨ c = '-' then some .number
  else none

lemma ofLead?_numeric {c : Char} (h : c.isDigit ∨ c = '-') : Form.ofLead? c = some .number := by
  have hne : ∀ d : Char, d.isDigit = false → d ≠ '-' → c ≠ d := by
    rintro d hd hm rfl
    simp [hd, hm] at h
  unfold Form.ofLead?
  rw [if_neg (hne _ rfl (by decide)),
    if_neg (not_or.2 ⟨hne _ rfl (by decide), hne _ rfl (by decide)⟩),
    if_neg (hne _ rfl (by decide)), if_neg (hne _ rfl (by decide)), if_neg (hne _ rfl (by decide)),
    if_pos h]

lemma lead_compact {j : Json} (h : j.IsFinite) :
    ∃ c cs, j.compact = c :: cs ∧ Form.ofLead? c = some j.form := by
  cases j with
  | null => exact ⟨_, _, rfl, rfl⟩
  | boolean value => cases value <;> exact ⟨_, _, rfl, rfl⟩
  | number value =>
    obtain ⟨c, hc, hlead⟩ := (isNumber_write h).head
    obtain ⟨cs, hcs⟩ := List.head?_eq_some_iff.1 hc
    exact ⟨c, cs, hcs, ofLead?_numeric hlead⟩
  | text value => exact ⟨_, _, rfl, rfl⟩
  | list items => exact ⟨_, _, rfl, rfl⟩
  | record fields => exact ⟨_, _, rfl, rfl⟩

lemma form_eq {j j' : Json} {rest rest' : List Char} (hj : j.IsFinite) (hj' : j'.IsFinite)
    (h : j.compact ++ rest = j'.compact ++ rest') : j.form = j'.form := by
  obtain ⟨c, cs, hc, hform⟩ := lead_compact hj
  obtain ⟨c', cs', hc', hform'⟩ := lead_compact hj'
  rw [hc, hc'] at h
  obtain ⟨rfl, -⟩ := List.cons.inj h
  exact Option.some.inj (hform.symm.trans hform')

/-- No value starts with a closing bracket. -/
lemma compact_ne_close {j : Json} {rest rest' : List Char} (hj : j.IsFinite) :
    j.compact ++ rest ≠ ']' :: rest' := by
  obtain ⟨c, cs, hc, hform⟩ := lead_compact hj
  intro h
  rw [hc] at h
  obtain ⟨rfl, -⟩ := List.cons.inj h
  exact absurd hform (by simp [Form.ofLead?])

/-- The items behind the first one. -/
def moreItems : List Json → List Char
  | [] => []
  | items => ',' :: compactItems items

def moreFields : List (String × Json) → List Char
  | [] => []
  | fields => ',' :: compactFields fields

lemma compactItems_cons (item : Json) (items : List Json) :
    compactItems (item :: items) = item.compact ++ moreItems items := by
  cases items <;> simp [compactItems, moreItems]

lemma compactFields_cons (field : String × Json) (fields : List (String × Json)) :
    compactFields (field :: fields) =
      quote field.1 ++ ':' :: field.2.compact ++ moreFields fields := by
  cases fields <;> simp [compactFields, moreFields]

lemma delimits_moreItems (items : List Json) (rest : List Char) :
    Delimits (moreItems items ++ ']' :: rest) := by
  cases items <;> simp [Delimits, moreItems, isNumeric]

lemma delimits_moreFields (fields : List (String × Json)) (rest : List Char) :
    Delimits (moreFields fields ++ '\x7d' :: rest) := by
  cases fields <;> simp [Delimits, moreFields, isNumeric]

mutual

/-- No finite value is the start of another one. -/
lemma compact_append_inj {rest rest' : List Char} (hrest : Delimits rest)
    (hrest' : Delimits rest') : ∀ {j j' : Json}, j.IsFinite → j'.IsFinite →
      j.compact ++ rest = j'.compact ++ rest' → j = j' ∧ rest = rest'
  | .null, j', hj, hj', h => by
      have hform := form_eq hj hj' h
      cases j' <;> simp [form] at hform
      exact ⟨rfl, List.append_cancel_left h⟩
  | .boolean value, j', hj, hj', h => by
      have hform := form_eq hj hj' h
      cases j' with
      | boolean value' =>
        cases value <;> cases value' <;> simp_all [compact, writeScalar]
      | _ => simp [form] at hform
  | .number value, j', hj, hj', h => by
      have hform := form_eq hj hj' h
      cases j' with
      | number value' =>
        obtain ⟨htext, hrest⟩ :=
          number_append_inj (isNumber_write hj) (isNumber_write hj') hrest hrest' h
        exact ⟨congrArg number (write_inj hj hj' (String.toList_inj.1 htext)), hrest⟩
      | _ => simp [form] at hform
  | .text value, j', hj, hj', h => by
      have hform := form_eq hj hj' h
      cases j' with
      | text value' =>
        obtain ⟨rfl, hrest⟩ := quote_append_inj h
        exact ⟨rfl, hrest⟩
      | _ => simp [form] at hform
  | .list items, j', hj, hj', h => by
      have hform := form_eq hj hj' h
      cases j' with
      | list items' =>
        have hitems : compactItems items ++ ']' :: rest = compactItems items' ++ ']' :: rest' := by
          simpa [compact] using h
        obtain ⟨rfl, hrest⟩ := compactItems_append_inj hj hj' hitems
        exact ⟨rfl, hrest⟩
      | _ => simp [form] at hform
  | .record fields, j', hj, hj', h => by
      have hform := form_eq hj hj' h
      cases j' with
      | record fields' =>
        have hfields : compactFields fields ++ '\x7d' :: rest =
            compactFields fields' ++ '\x7d' :: rest' := by
          simpa [compact] using h
        obtain ⟨rfl, hrest⟩ := compactFields_append_inj hj hj' hfields
        exact ⟨rfl, hrest⟩
      | _ => simp [form] at hform

lemma compactItems_append_inj {rest rest' : List Char} : ∀ {items items' : List Json},
    AllFinite items → AllFinite items' →
      compactItems items ++ ']' :: rest = compactItems items' ++ ']' :: rest' →
        items = items' ∧ rest = rest'
  | [], [], _, _, h => ⟨rfl, (List.cons.inj h).2⟩
  | [], item' :: items', _, hfinite, h => by
      rw [compactItems_cons, List.append_assoc] at h
      exact absurd h.symm (compact_ne_close hfinite.1)
  | item :: items, [], hfinite, _, h => by
      rw [compactItems_cons, List.append_assoc] at h
      exact absurd h (compact_ne_close hfinite.1)
  | item :: items, item' :: items', hfinite, hfinite', h => by
      rw [compactItems_cons, compactItems_cons, List.append_assoc, List.append_assoc] at h
      obtain ⟨rfl, hmore⟩ := compact_append_inj (delimits_moreItems _ _) (delimits_moreItems _ _)
        hfinite.1 hfinite'.1 h
      match items, items', hfinite.2, hfinite'.2, hmore with
      | [], [], _, _, hmore => exact ⟨rfl, (List.cons.inj hmore).2⟩
      | [], second :: more, _, _, hmore => exact absurd (List.cons.inj hmore).1 (by decide)
      | second :: more, [], _, _, hmore => exact absurd (List.cons.inj hmore).1 (by decide)
      | second :: more, second' :: more', hitems, hitems', hmore =>
        obtain ⟨heq, hrest⟩ := compactItems_append_inj hitems hitems' (List.cons.inj hmore).2
        exact ⟨congrArg (item :: ·) heq, hrest⟩

lemma compactFields_append_inj {rest rest' : List Char} : ∀ {fields fields' : List (String × Json)},
    FieldsFinite fields → FieldsFinite fields' →
      compactFields fields ++ '\x7d' :: rest = compactFields fields' ++ '\x7d' :: rest' →
        fields = fields' ∧ rest = rest'
  | [], [], _, _, h => ⟨rfl, (List.cons.inj h).2⟩
  | [], field' :: fields', _, _, h => by
      rw [compactFields_cons] at h
      exact absurd (List.cons.inj h).1 (by decide)
  | field :: fields, [], _, _, h => by
      rw [compactFields_cons] at h
      exact absurd (List.cons.inj h).1 (by decide)
  | (name, value) :: fields, (name', value') :: fields', hfinite, hfinite', h => by
      simp only [compactFields_cons, List.append_assoc, List.cons_append] at h
      obtain ⟨rfl, hvalue⟩ := quote_append_inj h
      obtain ⟨rfl, hmore⟩ := compact_append_inj (delimits_moreFields _ _)
        (delimits_moreFields _ _) hfinite.1 hfinite'.1 (List.cons.inj hvalue).2
      match fields, fields', hfinite.2, hfinite'.2, hmore with
      | [], [], _, _, hmore => exact ⟨rfl, (List.cons.inj hmore).2⟩
      | [], second :: more, _, _, hmore => exact absurd (List.cons.inj hmore).1 (by decide)
      | second :: more, [], _, _, hmore => exact absurd (List.cons.inj hmore).1 (by decide)
      | second :: more, second' :: more', hfields, hfields', hmore =>
        obtain ⟨heq, hrest⟩ := compactFields_append_inj hfields hfields' (List.cons.inj hmore).2
        exact ⟨congrArg ((name, value) :: ·) heq, hrest⟩

end

/-- Values with finite numbers that have one compact text are one value. -/
lemma compactText_inj {j j' : Json} (hj : j.IsFinite) (hj' : j'.IsFinite)
    (h : j.compactText = j'.compactText) : j = j' := by
  have hchars : j.compact ++ [] = j'.compact ++ [] := by
    rw [List.append_nil, List.append_nil]
    exact String.ofList_inj.1 h
  exact (compact_append_inj (by simp [Delimits]) (by simp [Delimits]) hj hj' hchars).1

end Exclaim.Json
