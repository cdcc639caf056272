import Mathlib
import ServingTuner.Options

/-!
# Integers as weights

A weight may be written as an integer, and then it is compared with zero as a double.  Rounding does
not change on which side of zero a number lies: a positive integer becomes a normal number, or an
infinite one if it is too large (`isNormal_ofNat`), and a negative one becomes the opposite of such
a number.  So a weight is negative as a double exactly if the integer is (`ofInt_lt_zero_iff`).
-/

namespace ServingTuner

open Float.Model Float.Model.UnpackedFloat

/-! ### Rounding -/

/-- A number of this sign is normal: it is infinite, or finite with a mantissa of full length and an
exponent that can be stored. -/
def IsNormal (s : Sign) (x : UnpackedFloat) : Prop :=
  x = .infinity s ∨ ∃ m e h, x = .finite s m e h ∧ m.log2 = 52 ∧ -1074 ≤ e

/-- Shifting divides the mantissa by a power of two. -/
lemma mantissa_shiftRight (em : ExtendedMantissa) (k : ℕ) :
    (em >>> k).mantissa = em.mantissa / 2 ^ k := by
  induction k with
  | zero => simp [HShiftRight.hShiftRight, Nat.repeat]
  | succ k ih =>
    rw [pow_succ, ← Nat.div_div_eq_div_mul, ← ih]
    rfl

/-- Rounding adds at most one to the mantissa. -/
lemma roundedMantissa_le (em : ExtendedMantissa) :
    em.mantissa ≤ em.roundedMantissa ∧ em.roundedMantissa ≤ em.mantissa + 1 := by
  obtain ⟨m, round, sticky⟩ := em
  cases round <;> cases sticky <;>
    simp only [ExtendedMantissa.roundedMantissa, ExtendedMantissa.accuracy,
      Accuracy.roundToNearestEven] <;> omega

/-- A long mantissa has full length after its last bits are dropped. -/
lemma log2_div {m k : ℕ} (hm : m.log2 = 52 + k) : (m / 2 ^ k).log2 = 52 := by
  have hne : m ≠ 0 := by
    rintro rfl
    rw [Nat.log2_zero] at hm
    omega
  obtain ⟨hge, hlt⟩ := (Nat.log2_eq_iff hne).mp hm
  have hge' : 2 ^ 52 ≤ m / 2 ^ k := by
    rw [Nat.le_div_iff_mul_le (by positivity), ← pow_add]
    exact hge
  have hlt' : m / 2 ^ k < 2 ^ 53 := by
    rw [Nat.div_lt_iff_lt_mul (by positivity), ← pow_add]
    calc m < 2 ^ (52 + k + 1) := hlt
      _ = 2 ^ (53 + k) := by congr 1; omega
  exact (Nat.log2_eq_iff (by omega)).mpr ⟨hge', hlt'⟩

/-- A mantissa of at least full length is shifted to full length, if the exponent is not too
small. -/
lemma exists_shiftToTargetExponent {m : ℕ} {e : ℤ} (hm : 52 ≤ m.log2)
    (he : -1022 ≤ m.log2 + e) :
    ∃ (em : ExtendedMantissa) (k : ℕ), m.log2 = 52 + k ∧ em.mantissa.log2 = 52 ∧
      shiftToTargetExponent Format.binary64 m e .exact = (em, e + k) := by
  obtain ⟨k, hk⟩ := Nat.exists_eq_add_of_le hm
  have htarget : Format.binary64.targetExponent (totalExponent m e) = e + k := by
    simp only [Format.targetExponent, totalExponent, Format.minExponent, Format.mantissaBits, hk]
    norm_num
    omega
  have hshift : (Format.binary64.targetExponent (totalExponent m e) - e).toNat = k := by
    rw [htarget]
    omega
  refine ⟨(⟨m, false, false⟩ : ExtendedMantissa) >>> k, k, hk, ?_, ?_⟩
  · rw [mantissa_shiftRight]
    exact log2_div hk
  · simp only [shiftToTargetExponent, shiftToExponent, hshift]
    rfl

/-- A mantissa of at least full length is rounded to one of full length, if the exponent is not too
small. -/
lemma isNormal_roundWithAccuracy (s : Sign) {m : ℕ} {e : ℤ} (hm : 52 ≤ m.log2)
    (he : -1022 ≤ m.log2 + e) : IsNormal s (roundWithAccuracy Format.binary64 s m e .exact) := by
  obtain ⟨em, k, hk, hlength, hfirst⟩ := exists_shiftToTargetExponent hm he
  have hne : em.mantissa ≠ 0 := fun hzero => by simp [hzero] at hlength
  have hrounded : 52 ≤ em.roundedMantissa.log2 := by
    have hlong : 2 ^ 52 ≤ em.mantissa := (Nat.le_log2 hne).mp hlength.ge
    have hlonger := hlong.trans (roundedMantissa_le em).1
    exact (Nat.le_log2 (by omega)).mpr hlonger
  -- Rounding up may make the mantissa one bit longer, and then it is shifted once more.
  obtain ⟨last, j, -, hlength', hsecond⟩ :=
    exists_shiftToTargetExponent (e := e + k) hrounded (by omega)
  have hne' : last.mantissa ≠ 0 := fun hzero => by simp [hzero] at hlength'
  unfold roundWithAccuracy
  simp only [hfirst, hsecond]
  rw [dif_neg hne']
  exact Or.inr ⟨_, _, _, rfl, hlength', by omega⟩

/-! ### Storing -/

/-- The sign is stored. -/
lemma unpackSign_packComponents {spec : Format} (s : Sign) (e : BitVec spec.exponentBits)
    (m : BitVec spec.mantissaBitsWithoutImplicit) :
    unpackSign (packComponents spec s e m) = s.toBitVec := by
  apply BitVec.eq_of_getLsbD_eq
  intro i hi
  obtain rfl : i = 0 := by omega
  simp [unpackSign, packComponents, BitVec.getLsbD_append, BitVec.getElem_append]

/-- A sign is read from its bit. -/
lemma ofBitVec_toBitVec (s : Sign) : Sign.ofBitVec s.toBitVec = s := by
  cases s <;> rfl

/-- The bit in front of a mantissa that is not stored. -/
lemma toNat_implicit (m : BitVec 52) : (1#1 ++ m).toNat = 2 ^ 52 + m.toNat := by
  rw [BitVec.toNat_append, ← Nat.shiftLeft_add_eq_or_of_lt m.isLt]
  rfl

/-- Whatever is stored with an exponent that is neither the first nor the last one is a normal
number. -/
lemma isNormal_unpack_packComponents (s : Sign) {e : BitVec 11} (m : BitVec 52) (hfirst : e ≠ 0#11)
    (hlast : e ≠ -1#11) :
    IsNormal s (unpack Format.binary64 (packComponents Format.binary64 s e m)) := by
  have hpos : 0 < e.toNat := Nat.pos_of_ne_zero fun hzero => hfirst (BitVec.eq_of_toNat_eq hzero)
  have hlong := toNat_implicit m
  have hlt := m.isLt
  unfold UnpackedFloat.unpack
  simp only [unpackMantissa_packComponents, unpackExponent_packComponents,
    unpackSign_packComponents, ofBitVec_toBitVec]
  rw [if_neg hlast, if_neg hfirst]
  refine Or.inr ⟨_, _, by omega, rfl, ?_, ?_⟩
  · rw [Nat.log2_eq_iff (by omega)]
    omega
  · simp only [Format.exponentBias]
    norm_num
    omega

/-- Normal numbers are stored as normal numbers of their sign. -/
lemma IsNormal.unpack_pack {s : Sign} {x : UnpackedFloat} (h : IsNormal s x) :
    IsNormal s (pack x).unpack := by
  show IsNormal s (unpack Format.binary64 (UnpackedFloat.pack Format.binary64 x))
  rcases h with rfl | ⟨m, e, h, rfl, hm, he⟩
  · left
    cases s <;> rfl
  · unfold UnpackedFloat.pack
    extract_lets length biased
    split_ifs with hlarge hfull
    · left
      cases s <;> rfl
    · have hexponent : (biased : ℤ) = e + 1075 := by
        simp only [biased, Format.exponentBias]
        norm_num
        omega
      have hbiased : (BitVec.ofNat 11 biased).toNat = biased := by
        rw [BitVec.toNat_ofNat]
        apply Nat.mod_eq_of_lt
        simp only [not_le] at hlarge
        omega
      apply isNormal_unpack_packComponents
      · intro hfirst
        have hvalue := congrArg BitVec.toNat hfirst
        rw [hbiased] at hvalue
        simp at hvalue
        omega
      · intro hlast
        have hvalue := congrArg BitVec.toNat hlast
        rw [hbiased] at hvalue
        simp at hvalue hlarge
        omega
    · exact absurd (congrArg (· + 1) hm) hfull

/-! ### Numbers from integers -/

/-- Shifting makes a number longer. -/
lemma log2_shiftLeft {n : ℕ} (h : 0 < n) (k : ℕ) : (n <<< k).log2 = n.log2 + k := by
  obtain ⟨hge, hlt⟩ := (Nat.log2_eq_iff h.ne').mp rfl
  have hpos : 0 < 2 ^ k := by positivity
  rw [Nat.shiftLeft_eq, Nat.log2_eq_iff (by positivity)]
  constructor
  · rw [pow_add]
    exact Nat.mul_le_mul_right _ hge
  · rw [add_right_comm, pow_add]
    exact Nat.mul_lt_mul_of_pos_right hlt hpos

/-- A positive integer is rounded to a normal number. -/
lemma isNormal_round {n : ℕ} (h : 0 < n) :
    IsNormal .positive (round Format.binary64 .positive n 0) := by
  have hlog : (n <<< (0 - Format.binary64.targetExponent (totalExponent n 0)).toNat).log2 =
      n.log2 + (0 - Format.binary64.targetExponent (totalExponent n 0)).toNat :=
    log2_shiftLeft h _
  have htarget : Format.binary64.targetExponent (totalExponent n 0) = n.log2 - 52 := by
    simp only [Format.targetExponent, totalExponent, Format.minExponent, Format.mantissaBits]
    norm_num
    omega
  unfold UnpackedFloat.round decreaseExponent
  apply isNormal_roundWithAccuracy
  · omega
  · omega

/-- The product of a normal number and one is normal. -/
lemma IsNormal.mul_one {x : UnpackedFloat} (h : IsNormal .positive x) :
    IsNormal .positive (UnpackedFloat.mul Format.binary64 x
      (.finite .positive (1 <<< 52) (-52) (by decide))) := by
  rcases h with rfl | ⟨m, e, hpos, rfl, hm, he⟩
  · exact Or.inl rfl
  · have hlog : (m * 1 <<< 52).log2 = m.log2 + 52 := by
      rw [← log2_shiftLeft hpos, Nat.shiftLeft_eq, Nat.shiftLeft_eq, one_mul]
    apply isNormal_roundWithAccuracy
    · omega
    · omega

/-- A small integer is taken as a word and multiplied by one. -/
lemma ofNat_of_lt {n : ℕ} (h : n < 2 ^ 53) :
    Float.ofNat n = n.toUInt64.toFloat * Float.ofBits 0x3FF0000000000000 := by
  show Float.ofScientific n false 0 = _
  rw [Float.ofScientific, dif_pos ⟨h, by decide⟩]
  rfl

/-- A great integer is scaled exactly and then rounded. -/
lemma ofNat_of_not_lt {n : ℕ} (h : ¬ n < 2 ^ 53) :
    Float.ofNat n = Float.ofModel (Float.Model.ofScientific n 0) := by
  show Float.ofScientific n false 0 = _
  rw [Float.ofScientific, dif_neg fun hsmall => h hsmall.1]
  rfl

/-- A positive word becomes a normal number. -/
lemma isNormal_toFloat {word : UInt64} (h : 0 < word.toNat) :
    IsNormal .positive word.toFloat.toModel.unpack := by
  have hround : UnpackedFloat.ofUInt64 Format.binary64 word =
      round Format.binary64 .positive word.toNat 0 := by
    unfold UnpackedFloat.ofUInt64 UnpackedFloat.ofNat UnpackedFloat.ofInt UnpackedFloat.normalize
    rw [compare_gt_iff_gt.mpr (show (word.toNat : ℤ) > 0 by omega)]
    rfl
  show IsNormal .positive (pack (UnpackedFloat.ofUInt64 Format.binary64 word)).unpack
  rw [hround]
  exact (isNormal_round h).unpack_pack

/-- A positive integer becomes a normal number. -/
theorem isNormal_ofNat {n : ℕ} (h : 0 < n) :
    IsNormal .positive (Float.ofNat n).toModel.unpack := by
  by_cases hsmall : n < 2 ^ 53
  · have hword : n.toUInt64.toNat = n := by
      rw [Nat.toUInt64_eq, UInt64.toNat_ofNat']
      exact Nat.mod_eq_of_lt (by omega)
    rw [ofNat_of_lt hsmall]
    exact (isNormal_toFloat (hword.symm ▸ h)).mul_one.unpack_pack
  · rw [ofNat_of_not_lt hsmall]
    apply IsNormal.unpack_pack
    have hrange : (0 : ℤ) ≤ 2 ^ Format.binary64.exponentBits := by positivity
    have hlog : (n <<< Format.binary64.mantissaBits * 10 ^ Int.toNat 0).log2 = n.log2 + 53 := by
      rw [Int.toNat_zero, pow_zero, Nat.mul_one]
      exact log2_shiftLeft h 53
    have hexponent : (-(Format.binary64.mantissaBits : ℤ) + 0) = -53 := rfl
    unfold UnpackedFloat.ofScientific
    rw [dif_neg h.ne', if_neg (by decide), if_neg (by omega), if_pos le_rfl]
    simp only [UnpackedFloat.mul]
    refine isNormal_roundWithAccuracy _ ?_ ?_
    · rw [hlog]
      omega
    · rw [hlog, hexponent]
      omega

/-- A number of the other sign is normal as well. -/
lemma IsNormal.neg {s : Sign} {x : UnpackedFloat} (h : IsNormal s x) : IsNormal (-s) x.neg := by
  rcases h with rfl | ⟨m, e, hpos, rfl, hm, he⟩
  · exact Or.inl rfl
  · exact Or.inr ⟨m, e, hpos, rfl, hm, he⟩

/-- A normal number lies below zero if its sign says so. -/
lemma IsNormal.lt_zero_iff {s : Sign} {x : UnpackedFloat} (h : IsNormal s x) :
    x.lt (.zero .positive) = true ↔ s = .negative := by
  rcases h with rfl | ⟨m, e, hpos, rfl, hm, he⟩
  · cases s <;> simp [UnpackedFloat.lt, UnpackedFloat.compare]
  · cases s <;> simp [UnpackedFloat.lt, UnpackedFloat.compare]

/-- As a double an integer is negative exactly if it is. -/
theorem ofInt_lt_zero_iff (n : ℤ) : Float.ofInt n < 0.0 ↔ n < 0 := by
  have hless : ∀ x : Float, x < 0.0 ↔ x.toModel.unpack.lt (.zero .positive) = true := by
    intro x
    show decide (x.toModel.lt (0.0 : Float).toModel = true) = true ↔ _
    rw [decide_eq_true_iff]
    rfl
  rw [hless]
  rcases n with (_ | n) | n
  · decide
  · have hnormal := isNormal_ofNat n.succ_pos
    refine iff_of_false (fun h => ?_) (not_lt.mpr (Int.natCast_nonneg _))
    cases hnormal.lt_zero_iff.mp h
  · have hnormal := (isNormal_ofNat n.succ_pos).neg.unpack_pack
    exact iff_of_true (hnormal.lt_zero_iff.mpr rfl) (Int.negSucc_lt_zero n)

end ServingTuner
