import Mathlib
import ServingTuner.Json.Printer
import ServingTuner.Json.Reader
import ServingTuner.Proofs.Text.Digits

/-!
# What the text of a JSON value tells

A quoted string reads back as itself (`readQuoted_quote`), so that its text tells the string and
where it ends.  The text of a float does not tell the float, and so the text of a value tells the
value only among values that agree outside their integers and strings (`Aligned`).  Two variants of
one baseline always do.
-/

namespace ServingTuner.Json

/-! ### Quoted strings -/

/-- What a reader found, and what it left. -/
def Read.parts {α : Type} {s : List Char} (r : Read α s) : α × List Char := (r.value, r.rest)

/-- The characters of a string as they stand between its quotes. -/
def escaped (s : List Char) : List Char := s.flatMap fun c => (escapeChar c).toList

/-- The characters of a quoted string. -/
lemma toList_quote (s : String) : (quote s).toList = '"' :: escaped s.toList ++ ['"'] := by
  simp [quote, escaped, List.flatMap_map]

/-- The three ways to write a character inside a string: as itself, with a letter after a backslash,
or as the number of a control character. -/
lemma escapeChar_cases (c : Char) :
    (c ≠ '"' ∧ c ≠ '\\' ∧ 32 ≤ c.toNat ∧ (escapeChar c).toList = [c]) ∨
    (∃ letter, simpleEscape? letter = some c ∧ letter ≠ 'u' ∧
      (escapeChar c).toList = ['\\', letter]) ∨
    (c.toNat < 32 ∧ (escapeChar c).toList =
      ['\\', 'u', '0', '0', hexDigit (c.toNat / 16), hexDigit (c.toNat % 16)]) := by
  unfold escapeChar
  split_ifs with h1 h2 h3 h4 h5 h6 h7 h8
  · exact Or.inr (Or.inl ⟨'"', by rw [h1]; rfl, by decide, by decide⟩)
  · exact Or.inr (Or.inl ⟨'\\', by rw [h2]; rfl, by decide, by decide⟩)
  · exact Or.inr (Or.inl ⟨'b', by rw [h3]; rfl, by decide, by decide⟩)
  · exact Or.inr (Or.inl ⟨'f', by rw [h4]; rfl, by decide, by decide⟩)
  · exact Or.inr (Or.inl ⟨'n', by rw [h5]; rfl, by decide, by decide⟩)
  · exact Or.inr (Or.inl ⟨'r', by rw [h6]; rfl, by decide, by decide⟩)
  · exact Or.inr (Or.inl ⟨'t', by rw [h7]; rfl, by decide, by decide⟩)
  · exact Or.inr (Or.inr ⟨h8, by simp⟩)
  · exact Or.inl ⟨h1, h2, by omega, by simp⟩

/-- The number of a control character is read back from its two digits. -/
lemma hexQuad?_control :
    ∀ n < 32, hexQuad? '0' '0' (hexDigit (n / 16)) (hexDigit (n % 16)) = some n := by
  decide

/-- A control character is no half of a surrogate pair. -/
lemma not_surrogate_of_control {n : ℕ} (h : n < 32) :
    isHighSurrogate n = false ∧ isLowSurrogate n = false := by
  simp only [isHighSurrogate, isLowSurrogate, Bool.and_eq_false_iff, decide_eq_false_iff_not]
  omega

/-- A character of a string is read back from its text, whatever follows. -/
lemma readQuoted_escapeChar (c : Char) (rest : List Char) :
    (readQuoted none ((escapeChar c).toList ++ rest)).map Read.parts =
      ((readQuoted none rest).map Read.parts).map fun p => (c :: p.1, p.2) := by
  rcases escapeChar_cases c with ⟨hquote, hslash, hlarge, htext⟩ | ⟨letter, hletter, hu, htext⟩ |
    ⟨hsmall, htext⟩
  · have hprinted : ¬ c.toNat < 32 := by omega
    rw [htext, List.singleton_append, readQuoted.eq_def]
    simp [hslash, hprinted, Option.map_map, Function.comp_def, Read.parts]
  · rw [htext, List.cons_append, List.singleton_append, readQuoted.eq_def]
    simp [hletter, hu, Option.map_map, Function.comp_def, Read.parts]
  · obtain ⟨hhigh, hlow⟩ := not_surrogate_of_control hsmall
    rw [htext]
    simp only [List.cons_append, List.nil_append]
    rw [readQuoted.eq_def]
    simp [hexQuad?_control c.toNat hsmall, hhigh, hlow, Option.map_map, Function.comp_def,
      Read.parts]

/-- The text of a string up to its closing quote reads back as the string. -/
theorem readQuoted_quote (s rest : List Char) :
    (readQuoted none (escaped s ++ '"' :: rest)).map Read.parts = some (s, rest) := by
  induction s with
  | nil =>
    show (readQuoted none ('"' :: rest)).map Read.parts = some ([], rest)
    rw [readQuoted.eq_def]
    rfl
  | cons c s ih =>
    have hescaped : escaped (c :: s) = (escapeChar c).toList ++ escaped s := rfl
    rw [hescaped, List.append_assoc, readQuoted_escapeChar, ih]
    rfl

/-- A quoted string and what follows it can be told from their text. -/
lemma quote_append_inj {a b : String} {s t : List Char}
    (h : (quote a).toList ++ s = (quote b).toList ++ t) : a = b ∧ s = t := by
  have hinner : escaped a.toList ++ '"' :: s = escaped b.toList ++ '"' :: t := by
    simpa [toList_quote] using h
  have hread := readQuoted_quote a.toList s
  rw [hinner, readQuoted_quote, Option.some.injEq, Prod.mk.injEq] at hread
  exact ⟨(String.toList_inj.mp hread.1).symm, hread.2.symm⟩

/-! ### Values that differ in integers and strings only -/

mutual

/-- The values agree outside their integers and strings. -/
inductive Aligned : Json → Json → Prop
  | refl (x : Json) : Aligned x x
  | int (a b : ℤ) : Aligned (.int a) (.int b)
  | str (a b : String) : Aligned (.str a) (.str b)
  | arr {xs ys : List Json} : AlignedElements xs ys → Aligned (.arr xs) (.arr ys)
  | obj {xs ys : Fields Json} : AlignedFields xs ys → Aligned (.obj xs) (.obj ys)

/-- The elements agree position by position, outside their integers and strings. -/
inductive AlignedElements : List Json → List Json → Prop
  | nil : AlignedElements [] []
  | cons {x y : Json} {xs ys : List Json} :
    Aligned x y → AlignedElements xs ys → AlignedElements (x :: xs) (y :: ys)

/-- The fields have the same names, and their values agree outside integers and strings. -/
inductive AlignedFields : List (String × Json) → List (String × Json) → Prop
  | nil : AlignedFields [] []
  | cons {x y : Json} {xs ys : List (String × Json)} (k : String) :
    Aligned x y → AlignedFields xs ys → AlignedFields ((k, x) :: xs) ((k, y) :: ys)

end

/-- Fields agree with themselves. -/
lemma AlignedFields.refl (fields : Fields Json) : AlignedFields fields fields := by
  induction fields with
  | nil => exact .nil
  | cons pair rest ih => exact .cons pair.1 (.refl pair.2) ih

/-- Elements agree with themselves. -/
lemma AlignedElements.refl (xs : List Json) : AlignedElements xs xs := by
  induction xs with
  | nil => exact .nil
  | cons x xs ih => exact .cons (.refl x) ih

/-- Fields that agree outside integers and strings have the same names. -/
lemma AlignedFields.isSome_get? {xs ys : Fields Json} (h : AlignedFields xs ys)
    (key : String) : (Fields.get? xs key).isSome = (Fields.get? ys key).isSome := by
  induction xs generalizing ys with
  | nil =>
    cases h
    rfl
  | cons pair xs ih =>
    rcases h with _ | ⟨k, hxy, hrest⟩
    rw [Fields.get?, Fields.get?]
    split_ifs
    · rfl
    · exact ih hrest

/-- Fields that agree still do after one of them is set on both sides. -/
lemma AlignedFields.set {xs ys : Fields Json} (h : AlignedFields xs ys) (key : String)
    {x y : Json} (hvalue : Aligned x y) :
    AlignedFields (Fields.set key x xs) (Fields.set key y ys) := by
  induction xs generalizing ys with
  | nil =>
    cases h
    exact .cons key hvalue .nil
  | cons pair xs ih =>
    rcases h with _ | ⟨k, hxy, hrest⟩
    rw [Fields.set, Fields.set]
    split_ifs
    · exact .cons key hvalue hrest
    · exact .cons key hvalue (.cons k hxy hrest)
    · exact .cons k hxy (ih hrest)

/-- Fields that agree still do after one of them is erased on both sides. -/
lemma AlignedFields.erase {xs ys : Fields Json} (h : AlignedFields xs ys) (key : String) :
    AlignedFields (Fields.erase xs key) (Fields.erase ys key) := by
  induction xs generalizing ys with
  | nil =>
    cases h
    exact .nil
  | cons pair xs ih =>
    rcases h with _ | ⟨k, hxy, hrest⟩
    rw [Fields.erase, Fields.erase]
    split_ifs
    · exact ih hrest
    · exact .cons k hxy (ih hrest)

/-- Objects made of fields that agree do so, too. -/
lemma AlignedFields.object {xs ys : List (String × Json)} (h : AlignedFields xs ys) :
    Aligned (Json.object xs) (Json.object ys) := by
  have hupdate : ∀ {fields others : Fields Json}, AlignedFields fields others →
      AlignedFields (Fields.update fields xs) (Fields.update others ys) := by
    induction xs generalizing ys with
    | nil =>
      cases h
      exact id
    | cons pair xs ih =>
      rcases h with _ | ⟨k, hxy, hrest⟩
      intro fields others hfields
      exact ih hrest (hfields.set k hxy)
  exact .obj (hupdate .nil)

/-! ### Telling values from their text -/

/-- The characters of elements: the first one's, and those of the others after a comma. -/
lemma toList_elementsText_cons (x : Json) (xs : List Json) :
    (elementsText (x :: xs)).toList =
      (text x).toList ++ if xs = [] then [] else ',' :: (elementsText xs).toList := by
  cases xs with
  | nil => simp [elementsText]
  | cons y xs => simp [elementsText]

/-- The characters of fields: the first one's, and those of the others after a comma. -/
lemma toList_fieldsText_cons (k : String) (x : Json) (fields : Fields Json) :
    (fieldsText ((k, x) :: fields)).toList =
      (quote k).toList ++ ':' :: ((text x).toList ++
        if fields = [] then [] else ',' :: (fieldsText fields).toList) := by
  cases fields with
  | nil => simp [fieldsText]
  | cons y fields => simp [fieldsText]

/-- What follows an element or the value of a field ends a number. -/
lemma endsNumber_separated {p : Prop} [Decidable p] {rest tail : List Char}
    (h : Text.EndsNumber tail) :
    Text.EndsNumber ((if p then [] else ',' :: rest) ++ tail) := by
  split_ifs
  · exact h
  · exact Text.endsNumber_cons (by decide)

/-- Elements that agree are both none or both some. -/
lemma AlignedElements.eq_nil_iff {xs ys : List Json} (h : AlignedElements xs ys) :
    xs = [] ↔ ys = [] := by
  cases h <;> simp

/-- Fields that agree are both none or both some. -/
lemma AlignedFields.eq_nil_iff {xs ys : Fields Json} (h : AlignedFields xs ys) :
    xs = [] ↔ ys = [] := by
  cases h <;> simp

/-- What follows the first of some elements or fields is told by its text if the others are. -/
lemma separated_append_inj {α : Type} {xs ys : List α} {a b s t : List Char} {close : Char}
    (hnil : xs = [] ↔ ys = [])
    (hothers : a ++ close :: s = b ++ close :: t → xs = ys ∧ s = t)
    (h : (if xs = [] then [] else ',' :: a) ++ close :: s =
      (if ys = [] then [] else ',' :: b) ++ close :: t) : xs = ys ∧ s = t := by
  by_cases hx : xs = []
  · have hy := hnil.mp hx
    rw [if_pos hx, if_pos hy] at h
    exact ⟨hx.trans hy.symm, (List.cons.inj h).2⟩
  · rw [if_neg hx, if_neg fun hy => hx (hnil.mpr hy)] at h
    exact hothers (List.cons.inj h).2

mutual

/-- Values that agree outside their integers and strings are told apart by their texts, whatever
follows them. -/
theorem Aligned.text_append_inj : ∀ {x y : Json}, Aligned x y → ∀ {s t : List Char},
    Text.EndsNumber s → Text.EndsNumber t → (text x).toList ++ s = (text y).toList ++ t →
      x = y ∧ s = t
  | _, _, .refl x, _, _, _, _, h => ⟨rfl, List.append_cancel_left h⟩
  | _, _, .int a b, _, _, hs, ht, h => by
    obtain ⟨rfl, hrest⟩ := Text.toString_int_append_inj hs ht h
    exact ⟨rfl, hrest⟩
  | _, _, .str a b, _, _, _, _, h => by
    obtain ⟨rfl, hrest⟩ := quote_append_inj h
    exact ⟨rfl, hrest⟩
  | _, _, .arr hxs, _, _, _, _, h => by
    obtain ⟨rfl, hrest⟩ := hxs.text_append_inj (by simpa [text] using h)
    exact ⟨rfl, hrest⟩
  | _, _, .obj hxs, _, _, _, _, h => by
    obtain ⟨rfl, hrest⟩ := hxs.text_append_inj (by simpa [text] using h)
    exact ⟨rfl, hrest⟩

/-- Elements that agree outside their integers and strings are told apart by their texts. -/
theorem AlignedElements.text_append_inj : ∀ {xs ys : List Json}, AlignedElements xs ys →
    ∀ {s t : List Char},
      (elementsText xs).toList ++ ']' :: s = (elementsText ys).toList ++ ']' :: t →
        xs = ys ∧ s = t
  | _, _, .nil, _, _, h => ⟨rfl, (List.cons.inj h).2⟩
  | _, _, .cons hxy hrest, s, t, h => by
    have hclose : ∀ tail, Text.EndsNumber (']' :: tail) :=
      fun tail => Text.endsNumber_cons (by decide)
    rw [toList_elementsText_cons, toList_elementsText_cons, List.append_assoc,
      List.append_assoc] at h
    obtain ⟨rfl, htail⟩ := hxy.text_append_inj (endsNumber_separated (hclose s))
      (endsNumber_separated (hclose t)) h
    obtain ⟨rfl, hend⟩ := separated_append_inj hrest.eq_nil_iff hrest.text_append_inj htail
    exact ⟨rfl, hend⟩

/-- Fields that agree outside their integers and strings are told apart by their texts. -/
theorem AlignedFields.text_append_inj : ∀ {xs ys : Fields Json}, AlignedFields xs ys →
    ∀ {s t : List Char},
      (fieldsText xs).toList ++ '\x7d' :: s = (fieldsText ys).toList ++ '\x7d' :: t →
        xs = ys ∧ s = t
  | _, _, .nil, _, _, h => ⟨rfl, (List.cons.inj h).2⟩
  | _, _, .cons k hxy hrest, s, t, h => by
    have hclose : ∀ tail, Text.EndsNumber ('\x7d' :: tail) :=
      fun tail => Text.endsNumber_cons (by decide)
    simp only [toList_fieldsText_cons, List.append_assoc, List.cons_append] at h
    obtain ⟨-, hvalue⟩ := List.cons.inj (List.append_cancel_left h)
    obtain ⟨rfl, htail⟩ := hxy.text_append_inj (endsNumber_separated (hclose s))
      (endsNumber_separated (hclose t)) hvalue
    obtain ⟨rfl, hend⟩ := separated_append_inj hrest.eq_nil_iff hrest.text_append_inj htail
    exact ⟨rfl, hend⟩

end

/-- Values that agree outside their integers and strings are told apart by their texts. -/
lemma Aligned.text_inj {x y : Json} (h : Aligned x y) (htext : text x = text y) : x = y :=
  (h.text_append_inj Text.endsNumber_nil Text.endsNumber_nil (by rw [htext])).1

end ServingTuner.Json
