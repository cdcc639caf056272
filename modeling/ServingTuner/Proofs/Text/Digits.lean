import Mathlib

/-!
# Numbers inside a text

A decimal number in a text ends where the digits end.  So a text that goes on after a number with
anything but a digit determines both the number and the rest (`toString_nat_append_inj`,
`toString_int_append_inj`).  Texts are taken apart as lists of characters.
-/

namespace ServingTuner

namespace Text

/-- The text does not go on with a digit. -/
def EndsNumber (rest : List Char) : Prop := ∀ c ∈ rest.head?, c.isDigit = false

/-- Nothing ends a number. -/
lemma endsNumber_nil : EndsNumber [] := by simp [EndsNumber]

/-- A character that is no digit ends a number. -/
lemma endsNumber_cons {c : Char} {rest : List Char} (h : c.isDigit = false) :
    EndsNumber (c :: rest) := by
  simpa [EndsNumber] using h

/-- Every character of a natural number's text is a digit. -/
lemma isDigit_of_mem_toString {n : ℕ} {c : Char} (h : c ∈ (toString n).toList) :
    c.isDigit = true := by
  rw [Nat.toString_eq_repr, Nat.toList_repr] at h
  exact Nat.isDigit_of_mem_toDigits (by norm_num) (by norm_num) h

/-- A natural number has at least one digit. -/
lemma toString_nat_ne_nil (n : ℕ) : (toString n).toList ≠ [] := by
  rw [Nat.toString_eq_repr, Nat.toList_repr]
  exact Nat.toDigits_ne_nil

/-- The text of a natural number determines the number. -/
lemma toString_nat_injective {m n : ℕ} (h : (toString m).toList = (toString n).toList) :
    m = n := by
  rw [Nat.toString_eq_repr, Nat.toString_eq_repr, Nat.toList_repr, Nat.toList_repr] at h
  have hvalue := congrArg (fun digits => Nat.ofDigitChars 10 digits 0) h
  simpa using hvalue

/-- Digits up to the first other character determine where that character stands. -/
lemma append_inj_of_digits {a b s t : List Char} (ha : ∀ c ∈ a, c.isDigit = true)
    (hb : ∀ c ∈ b, c.isDigit = true) (hs : EndsNumber s) (ht : EndsNumber t)
    (h : a ++ s = b ++ t) : a = b ∧ s = t := by
  induction a generalizing b with
  | nil =>
    cases b with
    | nil => exact ⟨rfl, h⟩
    | cons d b =>
      have hd : d.isDigit = false := hs d (by rw [show s = d :: (b ++ t) from h]; rfl)
      rw [hb d (by simp)] at hd
      exact absurd hd (by decide)
  | cons c a ih =>
    cases b with
    | nil =>
      have hc : c.isDigit = false := ht c (by rw [← show c :: (a ++ s) = t from h]; rfl)
      rw [ha c (by simp)] at hc
      exact absurd hc (by decide)
    | cons d b =>
      rw [List.cons_append, List.cons_append, List.cons.injEq] at h
      obtain ⟨rfl, htail⟩ := h
      obtain ⟨rfl, rfl⟩ := ih (fun x hx => ha x (by simp [hx])) (fun x hx => hb x (by simp [hx]))
        htail
      exact ⟨rfl, rfl⟩

/-- Digits behind the last other character determine where that character stands. -/
lemma append_inj_of_digits_right {a b s t : List Char} (ha : ∀ c ∈ a, c.isDigit = true)
    (hb : ∀ c ∈ b, c.isDigit = true) (hs : EndsNumber s.reverse) (ht : EndsNumber t.reverse)
    (h : s ++ a = t ++ b) : s = t ∧ a = b := by
  have hreverse : a.reverse ++ s.reverse = b.reverse ++ t.reverse := by
    rw [← List.reverse_append, h, List.reverse_append]
  obtain ⟨hdigits, hrest⟩ := append_inj_of_digits
    (fun c hc => ha c (List.mem_reverse.mp hc)) (fun c hc => hb c (List.mem_reverse.mp hc)) hs ht
    hreverse
  exact ⟨List.reverse_inj.mp hrest, List.reverse_inj.mp hdigits⟩

/-- A natural number and what follows it can be told from their text. -/
lemma toString_nat_append_inj {m n : ℕ} {s t : List Char} (hs : EndsNumber s) (ht : EndsNumber t)
    (h : (toString m).toList ++ s = (toString n).toList ++ t) : m = n ∧ s = t := by
  obtain ⟨hdigits, hrest⟩ := append_inj_of_digits (fun _ => isDigit_of_mem_toString)
    (fun _ => isDigit_of_mem_toString) hs ht h
  exact ⟨toString_nat_injective hdigits, hrest⟩

/-- The text of an integer is that of its absolute value, after a minus sign if it is negative. -/
lemma toList_toString_int (i : ℤ) :
    (toString i).toList =
      if i < 0 then '-' :: (toString i.natAbs).toList else (toString i.natAbs).toList := by
  cases i with
  | ofNat n => simp [toString, Int.repr, Nat.repr]
  | negSucc n =>
    rw [if_pos (Int.negSucc_lt_zero n)]
    simp [toString, Int.repr]

/-- An integer and what follows it can be told from their text. -/
lemma toString_int_append_inj {i j : ℤ} {s t : List Char} (hs : EndsNumber s) (ht : EndsNumber t)
    (h : (toString i).toList ++ s = (toString j).toList ++ t) : i = j ∧ s = t := by
  have hminus : ∀ {n : ℕ} {u v : List Char}, (toString n).toList ++ u ≠ '-' :: v := by
    intro n u v heq
    cases hn : (toString n).toList with
    | nil => exact toString_nat_ne_nil n hn
    | cons c rest =>
      rw [hn, List.cons_append, List.cons.injEq] at heq
      have hc : c.isDigit = true := isDigit_of_mem_toString (n := n) (by rw [hn]; simp)
      rw [heq.1] at hc
      exact absurd hc (by decide)
  rw [toList_toString_int, toList_toString_int] at h
  split_ifs at h with hi hj hj
  · rw [List.cons_append, List.cons_append, List.cons.injEq] at h
    obtain ⟨habs, hrest⟩ := toString_nat_append_inj hs ht h.2
    exact ⟨by omega, hrest⟩
  · exact absurd h.symm hminus
  · exact absurd h hminus
  · obtain ⟨habs, hrest⟩ := toString_nat_append_inj hs ht h
    exact ⟨by omega, hrest⟩

end Text

end ServingTuner
