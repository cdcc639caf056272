import Mathlib
import ServingTuner.Proofs.VariantNames.Spelling

/-!
# Numbers read back from names

The number of an adopted name is read back from its digits.  Reading is exact: a name gives a number
exactly if it is the numbered name of the entity, but for zeros in front of the number
(`VariantName.carries_iff_zeros`).  All decimal numbers of one length have different digits
(`Text.ofDigitChars_inj`), and so zeros are the only way in which two of them can be equal.

A program reads the digits on a word of 64 bits and has to notice where the number outgrows it.
`wordOf?` tells this from the word before each digit, by a division, and gives up at exactly the
numbers that do not fit (`index?_eq_wordOf?`).
-/

namespace ServingTuner

/-! ### Decimal digits -/

namespace Text

variable {digits others : List Char}

/-- A digit is less than ten. -/
lemma sub_lt_ten {c : Char} (h : c.isDigit = true) : c.toNat - '0'.toNat < 10 := by
  have hle : c.toNat ≤ 57 := (Char.isDigit_iff_toNat.mp h).2
  have hzero : '0'.toNat = 48 := rfl
  omega

/-- Two digits of one value are the same. -/
lemma digit_inj {c d : Char} (hc : c.isDigit = true) (hd : d.isDigit = true)
    (h : c.toNat - '0'.toNat = d.toNat - '0'.toNat) : c = d := by
  have hcge := (Char.isDigit_iff_toNat.mp hc).1
  have hdge := (Char.isDigit_iff_toNat.mp hd).1
  exact Char.toNat_inj.mp (by omega)

/-- The first digit counts as often as the others have numbers. -/
lemma ofDigitChars_cons_zero (c : Char) (digits : List Char) :
    Nat.ofDigitChars 10 (c :: digits) 0 =
      10 ^ digits.length * (c.toNat - '0'.toNat) + Nat.ofDigitChars 10 digits 0 := by
  rw [Nat.ofDigitChars_cons, Nat.ofDigitChars_eq_ofDigitChars_zero, mul_zero, zero_add]

/-- A number is less than ten to the number of its digits. -/
lemma ofDigitChars_lt (h : ∀ c ∈ digits, c.isDigit = true) :
    Nat.ofDigitChars 10 digits 0 < 10 ^ digits.length := by
  induction digits with
  | nil => exact Nat.one_pos
  | cons c digits ih =>
    obtain ⟨hc, hdigits⟩ := List.forall_mem_cons.mp h
    have hrest := ih hdigits
    have hdigit := sub_lt_ten hc
    rw [ofDigitChars_cons_zero, List.length_cons, pow_succ]
    nlinarith

/-- Numbers with as many digits are equal only if the digits are. -/
lemma ofDigitChars_inj (hlength : digits.length = others.length)
    (hdigits : ∀ c ∈ digits, c.isDigit = true) (hothers : ∀ c ∈ others, c.isDigit = true)
    (h : Nat.ofDigitChars 10 digits 0 = Nat.ofDigitChars 10 others 0) : digits = others := by
  induction digits generalizing others with
  | nil => exact (List.length_eq_zero_iff.mp hlength.symm).symm
  | cons c digits ih =>
    obtain ⟨d, others, rfl⟩ :=
      List.exists_cons_of_length_pos (show 0 < others.length by rw [← hlength]; exact Nat.succ_pos _)
    obtain ⟨hc, hdigits⟩ := List.forall_mem_cons.mp hdigits
    obtain ⟨hd, hothers⟩ := List.forall_mem_cons.mp hothers
    have hrest : digits.length = others.length := Nat.succ_inj.mp hlength
    -- the first digit is the quotient by the power, the rest of the number the remainder
    rw [ofDigitChars_cons_zero, ofDigitChars_cons_zero, hrest] at h
    have hlt := ofDigitChars_lt hdigits
    rw [hrest] at hlt
    have hlt' := ofDigitChars_lt hothers
    have hfirst : c.toNat - '0'.toNat = d.toNat - '0'.toNat := by
      have hquotient := congrArg (· / 10 ^ others.length) h
      simpa [Nat.mul_add_div, Nat.div_eq_of_lt hlt, Nat.div_eq_of_lt hlt'] using hquotient
    rw [hfirst, Nat.add_left_cancel_iff] at h
    rw [digit_inj hc hd hfirst, ih hrest hdigits hothers h]

/-- Zeros and the digits of a number are digits. -/
lemma isDigit_of_mem_zeros {zeros n : ℕ} {c : Char}
    (h : c ∈ List.replicate zeros '0' ++ (toString n).toList) : c.isDigit = true := by
  rcases List.mem_append.mp h with hzero | hdigit
  · rw [List.eq_of_mem_replicate hzero]
    decide
  · exact isDigit_of_mem_toString hdigit

/-- Zeros in front of a number do not change it. -/
lemma ofDigitChars_zeros (zeros n : ℕ) :
    Nat.ofDigitChars 10 (List.replicate zeros '0' ++ (toString n).toList) 0 = n := by
  rw [Nat.ofDigitChars_append, Nat.ofDigitChars_replicate_zero, mul_zero, Nat.toString_eq_repr,
    Nat.toList_repr, Nat.ofDigitChars_toDigits (by norm_num) (by norm_num)]

/-- Digits are those of their number with zeros in front. -/
lemma exists_zeros (hne : digits ≠ []) (h : ∀ c ∈ digits, c.isDigit = true) :
    ∃ zeros, digits = List.replicate zeros '0' ++
      (toString (Nat.ofDigitChars 10 digits 0)).toList := by
  set n := Nat.ofDigitChars 10 digits 0 with hn
  have hfits : (toString n).toList.length ≤ digits.length := by
    rw [Nat.toString_eq_repr, Nat.toList_repr]
    exact (Nat.length_toDigits_le_iff (by norm_num) (List.length_pos_iff.mpr hne)).mpr
      (ofDigitChars_lt h)
  refine ⟨digits.length - (toString n).toList.length,
    ofDigitChars_inj ?_ h (fun _ => isDigit_of_mem_zeros) (ofDigitChars_zeros _ n).symm⟩
  rw [List.length_append, List.length_replicate]
  omega

/-- More digits make no number smaller. -/
lemma le_ofDigitChars (digits : List Char) (n : ℕ) : n ≤ Nat.ofDigitChars 10 digits n := by
  rw [Nat.ofDigitChars_eq_ofDigitChars_zero]
  have hpow : 0 < 10 ^ digits.length := by positivity
  nlinarith

end Text

namespace VariantName

/-! ### Reading on a word -/

/-- Reads decimal digits on a word of 64 bits, behind those that are on it already.  There is no
number if something else than a digit is met, or if the number would not fit the word. -/
def wordOf? (word : UInt64) : List Char → Option UInt64
  | [] => some word
  | c :: rest =>
    let digit := UInt64.ofNat (c.toNat - '0'.toNat)
    if c.isDigit ∧ word ≤ (18446744073709551615 - digit) / 10 then wordOf? (10 * word + digit) rest
    else none

variable {entity name : String} {word index : UInt64} {digits : List Char} {n : ℕ}

/-- A digit fits a word. -/
lemma toNat_ofNat_of_lt_ten (hn : n < 10) : (UInt64.ofNat n).toNat = n :=
  UInt64.toNat_ofNat_of_lt' (hn.trans (by norm_num))

/-- The division tells whether a word has room for one more digit. -/
lemma le_div_iff_fits (hn : n < 10) :
    word ≤ (18446744073709551615 - UInt64.ofNat n) / 10 ↔ 10 * word.toNat + n < UInt64.size := by
  have hdigit := toNat_ofNat_of_lt_ten hn
  have hle : UInt64.ofNat n ≤ 18446744073709551615 := by
    rw [UInt64.le_iff_toNat_le, hdigit]
    show n ≤ 18446744073709551615
    omega
  rw [UInt64.le_iff_toNat_le, UInt64.toNat_div, UInt64.toNat_sub_of_le _ _ hle, hdigit]
  show word.toNat ≤ (18446744073709551615 - n) / 10 ↔ 10 * word.toNat + n < 18446744073709551616
  omega

/-- A word with room for it takes one more digit as a number does. -/
lemma toNat_push (hn : n < 10) (hfits : 10 * word.toNat + n < UInt64.size) :
    (10 * word + UInt64.ofNat n).toNat = 10 * word.toNat + n := by
  rw [UInt64.toNat_add, UInt64.toNat_mul, toNat_ofNat_of_lt_ten hn]
  show (10 * word.toNat % 18446744073709551616 + n) % 18446744073709551616 = _
  have hsize : 10 * word.toNat + n < 18446744073709551616 := hfits
  omega

/-- Reading on a word gives the number that the digits denote, whenever the word has room. -/
lemma wordOf?_eq_some_iff : wordOf? word digits = some index ↔
    (∀ c ∈ digits, c.isDigit = true) ∧
      Nat.ofDigitChars 10 digits word.toNat = index.toNat := by
  induction digits generalizing word with
  | nil => simp [wordOf?, UInt64.toNat_inj]
  | cons c rest ih =>
    rw [List.forall_mem_cons, Nat.ofDigitChars_cons]
    by_cases hc : c.isDigit = true
    · have hdigit := Text.sub_lt_ten hc
      by_cases hfits : 10 * word.toNat + (c.toNat - '0'.toNat) < UInt64.size
      · have hword : wordOf? word (c :: rest) =
            wordOf? (10 * word + UInt64.ofNat (c.toNat - '0'.toNat)) rest :=
          if_pos ⟨hc, (le_div_iff_fits hdigit).mpr hfits⟩
        rw [hword, ih, toNat_push hdigit hfits, and_iff_right hc]
      · -- what is on the word already is too large, and no digit makes it smaller
        have hword : wordOf? word (c :: rest) = none :=
          if_neg fun h => hfits ((le_div_iff_fits hdigit).mp h.2)
        have hlarge := Text.le_ofDigitChars rest (10 * word.toNat + (c.toNat - '0'.toNat))
        have hindex := index.toNat_lt
        rw [hword]
        refine iff_of_false (by simp) ?_
        rintro ⟨-, hvalue⟩
        exact hfits (lt_of_le_of_lt (hlarge.trans hvalue.le) hindex)
    · have hword : wordOf? word (c :: rest) = none := if_neg fun h => hc h.1
      rw [hword]
      exact iff_of_false (by simp) fun h => hc h.1.1

/-- The number of some digits is what is read from them on a word. -/
lemma index?_eq_wordOf? (digits : List Char) :
    index? digits = if digits = [] then none else wordOf? 0 digits := by
  refine Option.ext fun index => ?_
  rw [index?_eq_some_iff]
  by_cases hdigits : digits = []
  · simp [hdigits]
  · rw [if_neg hdigits, wordOf?_eq_some_iff]
    exact and_iff_right hdigits

/-! ### What is read -/

/-- A name carries a number exactly if it is the numbered name, but for zeros in front of the
number. -/
lemma carries_iff_zeros : Carries entity name n ↔
    ∃ zeros, name.toList =
      (entity ++ separator).toList ++ List.replicate zeros '0' ++ (toString n).toList := by
  constructor
  · rintro ⟨digits, hne, hall, hname, rfl⟩
    obtain ⟨zeros, hzeros⟩ := Text.exists_zeros hne hall
    refine ⟨zeros, ?_⟩
    rw [hname, List.append_assoc, ← hzeros]
  · rintro ⟨zeros, hname⟩
    exact ⟨List.replicate zeros '0' ++ (toString n).toList,
      List.append_ne_nil_of_right_ne_nil _ (Text.toString_nat_ne_nil n),
      fun _ => Text.isDigit_of_mem_zeros, by rw [hname, List.append_assoc],
      Text.ofDigitChars_zeros zeros n⟩

/-- Numbers are read back from names exactly, for every entity.

* A numbered name gives its number.
* A name gives a number exactly if it goes on behind the entity and the separator with one or more
  decimal digits and nothing else, and the digits denote that number.
* These names are the numbered ones and those with zeros in front of the number.
* All other names give none, those among them whose digits denote a number of more than 64 bits.
* A program that reads the digits on a word of 64 bits, and gives up where the word has no room for
  one more, finds just these numbers. -/
theorem indexOf?_exact (entity : String) :
    (∀ index, indexOf? entity (numbered entity index) = some index) ∧
      (∀ name index, indexOf? entity name = some index ↔ Carries entity name index.toNat) ∧
      (∀ name n, Carries entity name n ↔ ∃ zeros, name.toList =
        (entity ++ separator).toList ++ List.replicate zeros '0' ++ (toString n).toList) ∧
      (∀ name, indexOf? entity name = none ↔ ¬ ∃ n < UInt64.size, Carries entity name n) ∧
      ∀ name, indexOf? entity name =
        ((entity ++ separator).toList.isPrefixOf? name.toList).bind fun digits =>
          if digits = [] then none else wordOf? 0 digits := by
  refine ⟨fun index => indexOf?_eq_some_iff.mpr (carries_numbered entity index),
    fun _ _ => indexOf?_eq_some_iff, fun _ _ => carries_iff_zeros,
    fun _ => indexOf?_eq_none_iff, fun name => ?_⟩
  rw [indexOf?, funext index?_eq_wordOf?]

end VariantName

end ServingTuner
