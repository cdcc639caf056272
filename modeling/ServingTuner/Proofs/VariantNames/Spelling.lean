import Mathlib
import ServingTuner.Proofs.Text.Digits
import ServingTuner.VariantNames

/-!
# How names are spelled

A numbered name ends in the digits of its number, and in front of these stands a character that is
none.  So the name determines the entity and the number, whatever the entity is called
(`numbered_eq_iff`).  A name chosen elsewhere carries a number if it goes on with digits behind the
separator (`Carries`); zeros may stand in front of these, and the number need not fit 64 bits.
-/

namespace ServingTuner.VariantName

/-! ### Names that are made up -/

/-- The characters of a numbered name. -/
lemma toList_numbered (entity : String) (index : UInt64) :
    (numbered entity index).toList =
      (entity ++ separator).toList ++ (toString index.toNat).toList := by
  rw [numbered, String.toList_append]

/-- The characters of a default name. -/
lemma toList_standard (entity : String) :
    (standard entity).toList = (entity ++ separator).toList ++ "default".toList := by
  rw [standard, String.toList_append]

/-- An entity and a separator end with no digit. -/
lemma endsNumber_reverse (entity : String) :
    Text.EndsNumber (entity ++ separator).toList.reverse := by
  rw [String.toList_append, List.reverse_append]
  exact Text.endsNumber_cons (by decide)

/-- What stands in front of a name's separator is the entity. -/
lemma eq_of_append_separator {entity other : String}
    (h : (entity ++ separator).toList = (other ++ separator).toList) : entity = other := by
  rw [String.toList_append, String.toList_append] at h
  exact String.toList_inj.mp (List.append_cancel_right h)

/-- A numbered name determines its entity and its number. -/
lemma numbered_eq_iff {entity other : String} {i j : UInt64} :
    numbered entity i = numbered other j ↔ entity = other ∧ i = j := by
  constructor
  · intro h
    have hlist := congrArg String.toList h
    rw [toList_numbered, toList_numbered] at hlist
    obtain ⟨hentity, hdigits⟩ := Text.append_inj_of_digits_right
      (fun _ => Text.isDigit_of_mem_toString) (fun _ => Text.isDigit_of_mem_toString)
      (endsNumber_reverse entity) (endsNumber_reverse other) hlist
    exact ⟨eq_of_append_separator hentity,
      UInt64.toNat_inj.mp (Text.toString_nat_injective hdigits)⟩
  · rintro ⟨rfl, rfl⟩
    rfl

/-- Different numbers give different names. -/
lemma numbered_injective {entity : String} {i j : UInt64}
    (h : numbered entity i = numbered entity j) : i = j :=
  (numbered_eq_iff.mp h).2

/-- A default name determines its entity. -/
lemma standard_eq_iff {entity other : String} :
    standard entity = standard other ↔ entity = other := by
  constructor
  · intro h
    have hlist := congrArg String.toList h
    rw [toList_standard, toList_standard] at hlist
    exact eq_of_append_separator (List.append_cancel_right hlist)
  · rintro rfl
    rfl

/-- No numbered name is a default name, of whatever entities. -/
lemma numbered_ne_standard (entity other : String) (index : UInt64) :
    numbered entity index ≠ standard other := by
  intro h
  have hlist := congrArg (fun name => name.toList.getLast?) h
  simp only [toList_numbered, toList_standard] at hlist
  rw [List.getLast?_append_of_ne_nil _ (Text.toString_nat_ne_nil _),
    List.getLast?_append_of_ne_nil _ (by decide)] at hlist
  have hletter : 't' ∈ (toString index.toNat).toList := List.mem_of_getLast? hlist
  exact absurd (Text.isDigit_of_mem_toString hletter) (by decide)

/-! ### Names that carry numbers -/

/-- A name goes on behind the entity and the separator with decimal digits that denote a number. -/
def Carries (entity name : String) (n : ℕ) : Prop :=
  ∃ digits : List Char, digits ≠ [] ∧ (∀ c ∈ digits, c.isDigit = true) ∧
    name.toList = (entity ++ separator).toList ++ digits ∧ Nat.ofDigitChars 10 digits 0 = n

variable {entity name : String} {index : UInt64} {m n : ℕ}

/-- A name carries one number at most. -/
lemma Carries.unique (h : Carries entity name m) (h' : Carries entity name n) : m = n := by
  obtain ⟨digits, -, -, hname, rfl⟩ := h
  obtain ⟨others, -, -, hname', rfl⟩ := h'
  rw [List.append_cancel_left (hname.symm.trans hname')]

/-- A numbered name carries its number. -/
lemma carries_numbered (entity : String) (index : UInt64) :
    Carries entity (numbered entity index) index.toNat := by
  refine ⟨(toString index.toNat).toList, Text.toString_nat_ne_nil _,
    fun _ => Text.isDigit_of_mem_toString, toList_numbered entity index, ?_⟩
  rw [Nat.toString_eq_repr, Nat.toList_repr]
  exact Nat.ofDigitChars_toDigits (by norm_num) (by norm_num)

/-- Digits are read as the number that they denote, if it fits 64 bits. -/
lemma index?_eq_some_iff {digits : List Char} :
    index? digits = some index ↔ digits ≠ [] ∧ (∀ c ∈ digits, c.isDigit = true) ∧
      Nat.ofDigitChars 10 digits 0 = index.toNat := by
  have hdigits : (digits.isEmpty || !digits.all Char.isDigit) = true ↔
      ¬ (digits ≠ [] ∧ ∀ c ∈ digits, c.isDigit = true) := by
    simp [imp_iff_not_or]
  have hindex : index? digits = if digits.isEmpty || !digits.all Char.isDigit then none
      else if Nat.ofDigitChars 10 digits 0 < UInt64.size then
        some (UInt64.ofNat (Nat.ofDigitChars 10 digits 0))
      else none := rfl
  rw [hindex]
  split_ifs with hbad hfits
  · refine iff_of_false (by simp) ?_
    rintro ⟨hne, hall, -⟩
    exact hdigits.mp hbad ⟨hne, hall⟩
  · rw [hdigits, not_not] at hbad
    constructor
    · rintro ⟨rfl⟩
      exact ⟨hbad.1, hbad.2, (UInt64.toNat_ofNat_of_lt' hfits).symm⟩
    · rintro ⟨-, -, h⟩
      rw [h, UInt64.ofNat_toNat]
  · refine iff_of_false (by simp) ?_
    rintro ⟨-, -, h⟩
    exact hfits (h ▸ index.toNat_lt)

/-- A number is found in a name exactly if the name carries it. -/
lemma indexOf?_eq_some_iff :
    indexOf? entity name = some index ↔ Carries entity name index.toNat := by
  rw [indexOf?, Option.bind_eq_some_iff]
  constructor
  · rintro ⟨digits, hprefix, hindex⟩
    obtain ⟨hne, hall, hvalue⟩ := index?_eq_some_iff.mp hindex
    exact ⟨digits, hne, hall, (List.isPrefixOf?_eq_some_iff_append_eq.mp hprefix).symm, hvalue⟩
  · rintro ⟨digits, hne, hall, hname, hvalue⟩
    exact ⟨digits, List.isPrefixOf?_eq_some_iff_append_eq.mpr hname.symm,
      index?_eq_some_iff.mpr ⟨hne, hall, hvalue⟩⟩

/-- No number is found in a name exactly if it carries none that fits 64 bits. -/
lemma indexOf?_eq_none_iff :
    indexOf? entity name = none ↔ ¬ ∃ n < UInt64.size, Carries entity name n := by
  constructor
  · rintro hnone ⟨n, hn, hcarries⟩
    rw [← UInt64.toNat_ofNat_of_lt' hn, ← indexOf?_eq_some_iff, hnone] at hcarries
    cases hcarries
  · intro h
    by_contra hsome
    obtain ⟨index, hindex⟩ := Option.ne_none_iff_exists'.mp hsome
    exact h ⟨index.toNat, index.toNat_lt, indexOf?_eq_some_iff.mp hindex⟩

end ServingTuner.VariantName
