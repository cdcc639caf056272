import Mathlib
import ServingTuner.Options
import ServingTuner.Proofs.Generator.Resolution

/-!
# Settings that are read

Options are read setting by setting, and each reader looks at the value under its own key only.
What a reader accepts is said here apart from what it answers, first for one limit, one count and
the weights, and then for all limits (`Bounds.ofJson_eq_ok_iff`) and all options
(`Options.ofJson_eq_ok_iff`).  The first reader that fails decides the failure, and none but the
check of well-typed limits fails with the code of bounds.
-/

namespace ServingTuner

/-- Work that goes on fails where it fails first. -/
lemma bind_eq_error {α β : Type} {result : Except Failure α} {next : α → Except Failure β}
    {f : Failure} :
    result >>= next = .error f ↔ result = .error f ∨ ∃ a, result = .ok a ∧ next a = .error f := by
  cases result <;> simp [Bind.bind, Except.bind]

/-! ### One limit -/

/-- The value under a key is one that a limit may have: missing, null or an integer within the
signed range.  No integer of a JSON text lies below that range. -/
def IsLimitAt (j : Json) (key : String) : Prop :=
  j.field? key = none ∨ j.field? key = some .null ∨
    ∃ n : ℤ, n ≤ maxSigned ∧ j.field? key = some (.int n)

/-- The limit that is given under a key. -/
def limitAt? (j : Json) (key : String) : Option ℤ := (j.field? key).bind Json.int?

/-- A limit is read as it is given. -/
lemma readLimitSetting_eq_ok_iff {j : Json} {key : String} {limit : Option ℤ} :
    readLimitSetting j key = .ok limit ↔ IsLimitAt j key ∧ limit = limitAt? j key := by
  unfold readLimitSetting IsLimitAt limitAt?
  rcases j.field? key with _ | value
  · simp [eq_comm]
  · cases value with
    | int n =>
      by_cases hlarge : maxSigned < n
      · simp [hlarge]
      · simp [hlarge, not_lt.mp hlarge, Json.int?, eq_comm]
    | null => simp [Json.int?, eq_comm]
    | _ => simp

/-- A value that is no limit is a fault of the configuration. -/
lemma code_of_readLimitSetting {j : Json} {key : String} {f : Failure}
    (h : readLimitSetting j key = .error f) : f.code = .invalidConfiguration := by
  unfold readLimitSetting at h
  split at h
  · cases h
  · cases h
  · split_ifs at h
    cases h
    rfl
  · cases h
    rfl

/-! ### One count -/

/-- The value under a key is one that a count may have: missing or an integer of 32 bits. -/
def IsCountAt (j : Json) (key : String) : Prop :=
  ∀ value, j.field? key = some value → ∃ n : ℤ, 0 ≤ n ∧ n < UInt32.size ∧ value = .int n

/-- A count is read wherever there may be one. -/
lemma exists_readCountSetting_iff {j : Json} {key : String} {fallback : UInt32} :
    (∃ count, readCountSetting j key fallback = .ok count) ↔ IsCountAt j key := by
  unfold readCountSetting IsCountAt
  rcases j.field? key with _ | value
  · simp
  · cases value with
    | int n =>
      dsimp only
      split_ifs with hrange
      · simpa using hrange
      · simpa using hrange
    | _ => simp

/-- A value that is no count is a fault of the configuration. -/
lemma code_of_readCountSetting {j : Json} {key : String} {fallback : UInt32} {f : Failure}
    (h : readCountSetting j key fallback = .error f) : f.code = .invalidConfiguration := by
  unfold readCountSetting at h
  split at h
  · cases h
  · split_ifs at h
    cases h
    rfl
  · cases h
    rfl

/-! ### All limits -/

namespace Limits

variable {limits : Limits} {quantity : String}

/-- Whether the limits are positive and in order. -/
def Consistent (limits : Limits) : Prop :=
  (∀ value ∈ limits.lower, 0 < value) ∧ (∀ value ∈ limits.upper, 0 < value) ∧
    ∀ lower ∈ limits.lower, ∀ upper ∈ limits.upper, lower ≤ upper

/-- Positive limits pass their check. -/
lemma checkPositive_of_pos {side : BoundSide} {limit : Option ℤ} (h : ∀ value ∈ limit, 0 < value) :
    checkPositive side quantity limit = .ok () := by
  rcases limit with _ | value
  · rfl
  · exact if_neg (not_le.mpr (h value rfl))

/-- The check of a pair of limits tells whether they are positive and in order. -/
lemma check_eq_ok_iff : limits.check quantity = .ok () ↔ limits.Consistent := by
  constructor
  · intro h
    obtain ⟨hlower, hupper⟩ := pos_of_check h
    exact ⟨hlower, hupper, fun _ hl _ hu => le_of_check h hl hu⟩
  · rintro ⟨hlower, hupper, horder⟩
    have hcrossed : checkOrder quantity limits.lower limits.upper = .ok () := by
      rcases hl : limits.lower with _ | lower
      · rfl
      · rcases hu : limits.upper with _ | upper
        · rfl
        · exact if_neg (not_lt.mpr (horder lower hl upper hu))
    rw [check, checkPositive_of_pos hlower, checkPositive_of_pos hupper]
    exact hcrossed

/-- What a limit fails its check with is a fault of the bounds. -/
lemma code_of_checkPositive {side : BoundSide} {limit : Option ℤ} {f : Failure}
    (h : checkPositive side quantity limit = .error f) : f.code = .invalidBounds := by
  unfold checkPositive at h
  split at h
  · split_ifs at h
    cases h
    rfl
  · cases h

/-- What a pair of limits fails its check with is a fault of the bounds. -/
lemma code_of_check {f : Failure} (h : limits.check quantity = .error f) :
    f.code = .invalidBounds := by
  unfold check at h
  rcases bind_eq_error.mp h with h | ⟨_, -, h⟩
  · exact code_of_checkPositive h
  rcases bind_eq_error.mp h with h | ⟨_, -, h⟩
  · exact code_of_checkPositive h
  unfold checkOrder at h
  split at h
  · split_ifs at h
    cases h
    rfl
  · cases h

end Limits

namespace Bounds

variable {bounds : Bounds} {j : Json} {f : Failure}

/-- The check of bounds tells whether all limits are positive and in order and the multiplier is
positive. -/
lemma check_eq_ok_iff :
    bounds.check = .ok () ↔
      bounds.batchSize.Consistent ∧ bounds.instanceCount.Consistent ∧
        bounds.concurrency.Consistent ∧ 0 < bounds.multiplier := by
  constructor
  · intro h
    obtain ⟨hbatch, hinstances, hconcurrency, hmultiplier⟩ := check_eq_ok h
    exact ⟨Limits.check_eq_ok_iff.mp hbatch, Limits.check_eq_ok_iff.mp hinstances,
      Limits.check_eq_ok_iff.mp hconcurrency, hmultiplier⟩
  · rintro ⟨hbatch, hinstances, hconcurrency, hmultiplier⟩
    rw [check, Limits.check_eq_ok_iff.mpr hbatch, Limits.check_eq_ok_iff.mpr hinstances,
      Limits.check_eq_ok_iff.mpr hconcurrency]
    exact if_neg (not_le.mpr hmultiplier)

/-- What bounds fail their check with is a fault of the bounds. -/
lemma code_of_check (h : bounds.check = .error f) : f.code = .invalidBounds := by
  unfold check at h
  rcases bind_eq_error.mp h with h | ⟨_, -, h⟩
  · exact Limits.code_of_check h
  rcases bind_eq_error.mp h with h | ⟨_, -, h⟩
  · exact Limits.code_of_check h
  rcases bind_eq_error.mp h with h | ⟨_, -, h⟩
  · exact Limits.code_of_check h
  split_ifs at h
  cases h
  rfl

/-- The keys of all limits, the multiplier among them. -/
def keys : List String :=
  ["min_model_batch_size", "max_model_batch_size", "min_instance_count", "max_instance_count",
    "min_concurrency", "max_concurrency", "concurrency_multiplier"]

/-- Whether all limits are of the right kind. -/
def Typed (j : Json) : Prop := ∀ key ∈ keys, IsLimitAt j key

/-- The bounds that are given by an object. -/
def given (j : Json) : Bounds where
  batchSize := ⟨limitAt? j "min_model_batch_size", limitAt? j "max_model_batch_size"⟩
  instanceCount := ⟨limitAt? j "min_instance_count", limitAt? j "max_instance_count"⟩
  concurrency := ⟨limitAt? j "min_concurrency", limitAt? j "max_concurrency"⟩
  multiplier := (limitAt? j "concurrency_multiplier").getD ({} : Bounds).multiplier

/-- Bounds are read from an object if all limits are of the right kind and pass their check. -/
lemma ofJson_eq_ok_iff (hobject : j.isObject = true) :
    ofJson j = .ok bounds ↔ Typed j ∧ (given j).check = .ok () ∧ bounds = given j := by
  simp only [ofJson, Json.isNull_of_isObject hobject, hobject, Bool.false_eq_true, Bool.not_true,
    if_false, bind_eq_ok, readLimitSetting_eq_ok_iff]
  constructor
  · rintro ⟨_, ⟨h₁, rfl⟩, _, ⟨h₂, rfl⟩, _, ⟨h₃, rfl⟩, _, ⟨h₄, rfl⟩, _, ⟨h₅, rfl⟩, _, ⟨h₆, rfl⟩,
      _, ⟨h₇, rfl⟩, _, hcheck, hbounds⟩
    refine ⟨?_, hcheck, (Except.ok.inj hbounds).symm⟩
    simpa [Typed, keys] using ⟨h₁, h₂, h₃, h₄, h₅, h₆, h₇⟩
  · rintro ⟨htyped, hcheck, rfl⟩
    obtain ⟨h₁, h₂, h₃, h₄, h₅, h₆, h₇⟩ : _ ∧ _ ∧ _ ∧ _ ∧ _ ∧ _ ∧ _ := by
      simpa [Typed, keys] using htyped
    exact ⟨_, ⟨h₁, rfl⟩, _, ⟨h₂, rfl⟩, _, ⟨h₃, rfl⟩, _, ⟨h₄, rfl⟩, _, ⟨h₅, rfl⟩, _, ⟨h₆, rfl⟩,
      _, ⟨h₇, rfl⟩, _, hcheck, rfl⟩

/-- Null stands for the standard bounds, and what is neither null nor an object for none. -/
lemma ofJson_of_not_object (hobject : j.isObject = false) :
    j.isNull = true ∧ ofJson j = .ok {} ∨
      j.isNull = false ∧ ofJson j = .error (.settingMistyped "bounds" .object) := by
  cases hnull : j.isNull <;> simp [ofJson, hnull, hobject]

/-- Nothing but the standard bounds is read from what is no object. -/
lemma eq_standard_of_not_object (hobject : j.isObject = false) (h : ofJson j = .ok bounds) :
    bounds = {} := by
  rcases ofJson_of_not_object hobject with ⟨-, hread⟩ | ⟨-, hread⟩ <;> rw [hread] at h <;> cases h
  rfl

/-- What is no object can only be a fault of the configuration. -/
lemma code_of_not_object (hobject : j.isObject = false) (h : ofJson j = .error f) :
    f.code = .invalidConfiguration := by
  rcases ofJson_of_not_object hobject with ⟨-, hread⟩ | ⟨-, hread⟩ <;> rw [hread] at h <;> cases h
  rfl

/-- Bounds that cannot be read have a fault of the bounds if all limits are of the right kind, and
else a fault of the configuration. -/
lemma code_of_ofJson (hobject : j.isObject = true) (h : ofJson j = .error f) :
    Typed j ∧ f.code = .invalidBounds ∨ ¬ Typed j ∧ f.code = .invalidConfiguration := by
  have hmistyped : ∀ key ∈ keys, readLimitSetting j key = .error f →
      Typed j ∧ f.code = .invalidBounds ∨ ¬ Typed j ∧ f.code = .invalidConfiguration := by
    intro key hkey hread
    refine Or.inr ⟨fun htyped => ?_, code_of_readLimitSetting hread⟩
    rw [readLimitSetting_eq_ok_iff.mpr ⟨htyped key hkey, rfl⟩] at hread
    cases hread
  simp only [ofJson, Json.isNull_of_isObject hobject, hobject, Bool.false_eq_true, Bool.not_true,
    if_false, bind_eq_error, readLimitSetting_eq_ok_iff] at h
  rcases h with h | ⟨_, ⟨h₁, rfl⟩, h⟩
  · exact hmistyped _ (by decide) h
  rcases h with h | ⟨_, ⟨h₂, rfl⟩, h⟩
  · exact hmistyped _ (by decide) h
  rcases h with h | ⟨_, ⟨h₃, rfl⟩, h⟩
  · exact hmistyped _ (by decide) h
  rcases h with h | ⟨_, ⟨h₄, rfl⟩, h⟩
  · exact hmistyped _ (by decide) h
  rcases h with h | ⟨_, ⟨h₅, rfl⟩, h⟩
  · exact hmistyped _ (by decide) h
  rcases h with h | ⟨_, ⟨h₆, rfl⟩, h⟩
  · exact hmistyped _ (by decide) h
  rcases h with h | ⟨_, ⟨h₇, rfl⟩, h⟩
  · exact hmistyped _ (by decide) h
  rcases h with h | ⟨_, -, h⟩
  · refine Or.inl ⟨?_, code_of_check h⟩
    simpa [Typed, keys] using ⟨h₁, h₂, h₃, h₄, h₅, h₆, h₇⟩
  · cases h

end Bounds

/-! ### All options -/

namespace Options

variable {options : Options} {j : Json} {f : Failure}

/-- Weights are read tag by tag, each one as a double that is not negative. -/
lemma readObjectives_eq_ok_iff {fields : Fields Json} {objectives : Objectives Float} :
    readObjectives fields = .ok objectives ↔
      List.Forall₂ (fun field objective => objective.1 = field.1 ∧
        field.2.number? = some objective.2 ∧ ¬ objective.2 < 0.0) fields objectives := by
  induction fields generalizing objectives with
  | nil => simp [readObjectives, eq_comm]
  | cons field fields ih =>
    obtain ⟨tag, value⟩ := field
    rw [readObjectives, List.forall₂_cons_left_iff]
    rcases hnumber : value.number? with _ | weight
    · simp
    · dsimp only
      split_ifs with hnegative
      · refine iff_of_false (by simp) ?_
        rintro ⟨_, _, ⟨-, hsome, hweight⟩, -⟩
        obtain rfl := Option.some.inj hsome
        exact hweight hnegative
      · constructor
        · intro hread
          rcases hrest : readObjectives fields with _ | rest
          · rw [hrest] at hread
            cases hread
          · rw [hrest] at hread
            obtain rfl := Except.ok.inj hread
            exact ⟨(tag, weight), rest, ⟨rfl, rfl, hnegative⟩, ih.mp hrest, rfl⟩
        · rintro ⟨⟨_, _⟩, rest, ⟨rfl, hsome, -⟩, hrest, rfl⟩
          obtain rfl := Option.some.inj hsome
          rw [ih.mpr hrest]
          rfl

/-- A weight that is no number or negative is a fault of the configuration. -/
lemma code_of_readObjectives {fields : Fields Json} (h : readObjectives fields = .error f) :
    f.code = .invalidConfiguration := by
  induction fields with
  | nil => cases h
  | cons field fields ih =>
    obtain ⟨tag, value⟩ := field
    rw [readObjectives] at h
    split at h
    · cases h
      rfl
    · split_ifs at h
      · cases h
        rfl
      · rcases hrest : readObjectives fields with f' | objectives
        · rw [hrest] at h
          cases h
          exact ih hrest
        · rw [hrest] at h
          cases h

/-- A mode that is no text, or not the name of one, is a fault of the configuration. -/
lemma code_of_modeOf (h : modeOf j = .error f) : f.code = .invalidConfiguration := by
  unfold modeOf at h
  split at h
  · cases h
  · unfold ConcurrencyMode.ofName at h
    split_ifs at h
    cases h
    rfl
  · cases h
    rfl

/-- Objectives that are not weights are a fault of the configuration. -/
lemma code_of_objectivesOf (h : objectivesOf j = .error f) : f.code = .invalidConfiguration := by
  unfold objectivesOf at h
  split at h
  · cases h
  · exact code_of_readObjectives h
  · cases h
    rfl

/-- Constraints that are neither an object nor null are a fault of the configuration. -/
lemma code_of_constraintsOf (h : constraintsOf j = .error f) : f.code = .invalidConfiguration := by
  unfold constraintsOf at h
  split at h
  · cases h
  · split_ifs at h
    cases h
    rfl

/-- Null stands for the standard options, and what is neither null nor an object for none. -/
lemma ofJson_of_not_object (hobject : j.isObject = false) :
    j.isNull = true ∧ ofJson j = .ok {} ∨
      j.isNull = false ∧ ofJson j = .error .settingsNotObject := by
  cases hnull : j.isNull <;> simp [ofJson, hnull, hobject]

/-- Nothing but the standard options are read from what is no object. -/
lemma eq_standard_of_not_object (hobject : j.isObject = false) (h : ofJson j = .ok options) :
    options = {} := by
  rcases ofJson_of_not_object hobject with ⟨-, hread⟩ | ⟨-, hread⟩ <;> rw [hread] at h <;> cases h
  rfl

/-- What is no object can only be a fault of the configuration. -/
lemma code_of_not_object (hobject : j.isObject = false) (h : ofJson j = .error f) :
    f.code = .invalidConfiguration := by
  rcases ofJson_of_not_object hobject with ⟨-, hread⟩ | ⟨-, hread⟩ <;> rw [hread] at h <;> cases h
  rfl

/-- Options are read from an object if all settings are. -/
lemma ofJson_eq_ok_iff (hobject : j.isObject = true) :
    ofJson j = .ok options ↔
      boundsOf j = .ok options.bounds ∧ readCountSetting j "radius" 3 = .ok options.radius ∧
        readCountSetting j "min_initialized" 3 = .ok options.minMeasured ∧
        readCountSetting j "max_steps" 32 = .ok options.maxSteps ∧
        modeOf j = .ok options.mode ∧ objectivesOf j = .ok options.objectives ∧
        constraintsOf j = .ok options.constraints := by
  simp only [ofJson, Json.isNull_of_isObject hobject, hobject, Bool.false_eq_true, Bool.not_true,
    if_false, bind_eq_ok]
  constructor
  · rintro ⟨_, h₁, _, h₂, _, h₃, _, h₄, _, h₅, _, h₆, _, h₇, heq⟩
    obtain rfl := Except.ok.inj heq
    exact ⟨h₁, h₂, h₃, h₄, h₅, h₆, h₇⟩
  · rintro ⟨h₁, h₂, h₃, h₄, h₅, h₆, h₇⟩
    exact ⟨_, h₁, _, h₂, _, h₃, _, h₄, _, h₅, _, h₆, _, h₇, rfl⟩

/-- Bounds that cannot be read are the first fault of options. -/
lemma ofJson_of_boundsOf (hobject : j.isObject = true) (h : boundsOf j = .error f) :
    ofJson j = .error f := by
  simp only [ofJson, Json.isNull_of_isObject hobject, hobject, Bool.false_eq_true, Bool.not_true,
    if_false, bind_eq_error]
  exact Or.inl h

/-- All other faults of options are faults of the configuration. -/
lemma code_of_ofJson (hobject : j.isObject = true) (h : ofJson j = .error f) :
    boundsOf j = .error f ∨ f.code = .invalidConfiguration := by
  simp only [ofJson, Json.isNull_of_isObject hobject, hobject, Bool.false_eq_true, Bool.not_true,
    if_false, bind_eq_error] at h
  rcases h with h | ⟨_, -, h⟩
  · exact Or.inl h
  right
  rcases h with h | ⟨_, -, h⟩
  · exact code_of_readCountSetting h
  rcases h with h | ⟨_, -, h⟩
  · exact code_of_readCountSetting h
  rcases h with h | ⟨_, -, h⟩
  · exact code_of_readCountSetting h
  rcases h with h | ⟨_, -, h⟩
  · exact code_of_modeOf h
  rcases h with h | ⟨_, -, h⟩
  · exact code_of_objectivesOf h
  rcases h with h | ⟨_, -, h⟩
  · exact code_of_constraintsOf h
  · cases h

end Options

end ServingTuner
