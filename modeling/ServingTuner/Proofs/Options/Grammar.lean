import Mathlib
import ServingTuner.Proofs.Options.RoundTrip
import ServingTuner.Proofs.Options.Weights

/-!
# The grammar of options

What settings have to look like is said key by key (`Options.WellFormed`), without regard to the
readers.  The readers accept just these settings and do not look at any other key, and their answer
is a fault of the bounds just when all limits are of the right kind but are not positive or cross
(`Options.ofJson_grammar`).
-/

namespace ServingTuner

/-! ### The values of settings -/

namespace Bounds

variable {j : Json}

/-- The keys of limits that belong together, the lower one first. -/
def pairs : List (String × String) :=
  [("min_model_batch_size", "max_model_batch_size"), ("min_instance_count", "max_instance_count"),
    ("min_concurrency", "max_concurrency")]

/-- Whether every limit that is given is positive, and none exceeds its partner. -/
structure Sound (j : Json) : Prop where
  positive : ∀ key ∈ keys, ∀ value ∈ limitAt? j key, 0 < value
  ordered : ∀ pair ∈ pairs, ∀ lower ∈ limitAt? j pair.1, ∀ upper ∈ limitAt? j pair.2, lower ≤ upper

/-- Bounds are null, or an object in which all limits are of the right kind and sound. -/
def WellFormed (j : Json) : Prop := j.isNull = true ∨ j.isObject = true ∧ Typed j ∧ Sound j

/-- The check of bounds tells whether the given limits are sound. -/
lemma check_given_iff : (given j).check = .ok () ↔ Sound j := by
  have hmultiplier : 0 < (given j).multiplier ↔
      ∀ value ∈ limitAt? j "concurrency_multiplier", 0 < value := by
    unfold given
    rcases limitAt? j "concurrency_multiplier" with _ | multiplier
    · simp
    · simp
  rw [check_eq_ok_iff, hmultiplier]
  constructor
  · rintro ⟨⟨h₁, h₂, h₁₂⟩, ⟨h₃, h₄, h₃₄⟩, ⟨h₅, h₆, h₅₆⟩, h₇⟩
    constructor
    · simpa [keys] using ⟨h₁, h₂, h₃, h₄, h₅, h₆, h₇⟩
    · simpa [pairs] using ⟨h₁₂, h₃₄, h₅₆⟩
  · rintro ⟨hpositive, hordered⟩
    exact ⟨⟨hpositive _ (by decide), hpositive _ (by decide), hordered (_, _) (by decide)⟩,
      ⟨hpositive _ (by decide), hpositive _ (by decide), hordered (_, _) (by decide)⟩,
      ⟨hpositive _ (by decide), hpositive _ (by decide), hordered (_, _) (by decide)⟩,
      hpositive _ (by decide)⟩

/-- Bounds are read just where they are well formed. -/
lemma exists_ofJson_iff : (∃ bounds, ofJson j = .ok bounds) ↔ WellFormed j := by
  unfold WellFormed
  cases hobject : j.isObject with
  | true =>
    simp only [ofJson_eq_ok_iff hobject, check_given_iff, Json.isNull_of_isObject hobject,
      Bool.false_eq_true, false_or, true_and]
    exact ⟨fun ⟨_, htyped, hsound, _⟩ => ⟨htyped, hsound⟩,
      fun ⟨htyped, hsound⟩ => ⟨given j, htyped, hsound, rfl⟩⟩
  | false =>
    rcases ofJson_of_not_object hobject with ⟨hnull, hread⟩ | ⟨hnull, hread⟩
    · simp [hnull, hread]
    · simp [hnull, hread]

/-- What cannot be read is a fault of the bounds just where all limits are of the right kind. -/
lemma exists_invalid_iff :
    (∃ f, ofJson j = .error f ∧ f.code = .invalidBounds) ↔
      j.isObject = true ∧ Typed j ∧ ¬ Sound j := by
  constructor
  · rintro ⟨f, hread, hcode⟩
    cases hobject : j.isObject with
    | true =>
      rcases code_of_ofJson hobject hread with ⟨htyped, -⟩ | ⟨-, hother⟩
      · refine ⟨rfl, htyped, fun hsound => ?_⟩
        rw [(ofJson_eq_ok_iff hobject).mpr ⟨htyped, check_given_iff.mpr hsound, rfl⟩] at hread
        cases hread
      · rw [hother] at hcode
        cases hcode
    | false =>
      rw [code_of_not_object hobject hread] at hcode
      cases hcode
  · rintro ⟨hobject, htyped, hsound⟩
    cases hread : ofJson j with
    | ok bounds =>
      obtain ⟨-, hcheck, -⟩ := (ofJson_eq_ok_iff hobject).mp hread
      exact absurd (check_given_iff.mp hcheck) hsound
    | error f =>
      rcases code_of_ofJson hobject hread with ⟨-, hcode⟩ | ⟨hmistyped, -⟩
      · exact ⟨f, rfl, hcode⟩
      · exact absurd htyped hmistyped

/-- Whatever is wrong is a fault of the bounds or of the configuration. -/
lemma code_cases {f : Failure} (h : ofJson j = .error f) :
    f.code = .invalidBounds ∨ f.code = .invalidConfiguration := by
  cases hobject : j.isObject with
  | true => exact (code_of_ofJson hobject h).imp And.right And.right
  | false => exact Or.inr (code_of_not_object hobject h)

/-- Bounds that agree on all limits are read alike. -/
lemma ofJson_congr {j' : Json} (hobject : j.isObject = true) (hobject' : j'.isObject = true)
    (h : ∀ key ∈ keys, j'.field? key = j.field? key) : ofJson j' = ofJson j := by
  have hread : ∀ key ∈ keys, readLimitSetting j' key = readLimitSetting j key := by
    intro key hkey
    rw [readLimitSetting, readLimitSetting, h key hkey]
  unfold ofJson
  rw [Json.isNull_of_isObject hobject, Json.isNull_of_isObject hobject', hobject, hobject',
    hread _ (by decide), hread _ (by decide), hread _ (by decide), hread _ (by decide),
    hread _ (by decide), hread _ (by decide), hread _ (by decide)]

end Bounds

/-- A weight is an integer or a double that is not negative. -/
def IsWeight : Json → Prop
  | .int n => 0 ≤ n
  | .float x => ¬ x < 0.0
  | _ => False

/-- A weight is a number that is not negative as a double. -/
lemma isWeight_iff {j : Json} :
    IsWeight j ↔ ∃ weight, j.number? = some weight ∧ ¬ weight < 0.0 := by
  cases j with
  | int n => simp [IsWeight, Json.number?, ofInt_lt_zero_iff]
  | float x => simp [IsWeight, Json.number?]
  | _ => simp [IsWeight, Json.number?]

/-! ### Settings -/

namespace Options

variable {j : Json}

/-- Settings are well formed if the value under each key that is present is of the right kind and in
its range.  All other keys are free. -/
structure WellFormed (j : Json) : Prop where
  bounds : ∀ value, j.field? "bounds" = some value → Bounds.WellFormed value
  radius : IsCountAt j "radius"
  minMeasured : IsCountAt j "min_initialized"
  maxSteps : IsCountAt j "max_steps"
  mode : ∀ value, j.field? "concurrency_mode" = some value →
    value = .str "formula" ∨ value = .str "coordinate"
  objectives : ∀ value, j.field? "objectives" = some value →
    ∃ fields, value = .obj fields ∧ fields ≠ [] ∧ ∀ field ∈ fields, IsWeight field.2
  constraints : ∀ value, j.field? "constraints" = some value →
    value.isObject = true ∨ value.isNull = true

/-- Bounds are read just where they are missing or well formed. -/
lemma exists_boundsOf_iff :
    (∃ bounds, boundsOf j = .ok bounds) ↔
      ∀ value, j.field? "bounds" = some value → Bounds.WellFormed value := by
  unfold boundsOf
  rcases j.field? "bounds" with _ | value
  · simp
  · simp [Bounds.exists_ofJson_iff]

/-- A mode is read just where it is missing or the name of one. -/
lemma exists_modeOf_iff :
    (∃ mode, modeOf j = .ok mode) ↔
      ∀ value, j.field? "concurrency_mode" = some value →
        value = .str "formula" ∨ value = .str "coordinate" := by
  unfold modeOf
  rcases j.field? "concurrency_mode" with _ | value
  · simp
  · cases value with
    | str name =>
      by_cases hformula : name = "formula"
      · simp [ConcurrencyMode.ofName, hformula]
      · by_cases hcoordinate : name = "coordinate"
        · simp [ConcurrencyMode.ofName, hcoordinate]
        · simp [ConcurrencyMode.ofName, hformula, hcoordinate]
    | _ => simp

/-- Objectives are read just where all values are weights. -/
lemma exists_readObjectives_iff {fields : Fields Json} :
    (∃ objectives, readObjectives fields = .ok objectives) ↔
      ∀ field ∈ fields, IsWeight field.2 := by
  constructor
  · rintro ⟨objectives, hread⟩
    have hsplit : List.Forall₂
        (fun (field : String × Json) objective => IsWeight field.2 ∧ objective.1 = field.1)
        fields objectives :=
      (readObjectives_eq_ok_iff.mp hread).imp fun _ _ h => ⟨isWeight_iff.mpr ⟨_, h.2⟩, h.1⟩
    exact ((List.forall₂_and_left _ _).mp hsplit).1
  · intro h
    induction fields with
    | nil => exact ⟨[], rfl⟩
    | cons field fields ih =>
      obtain ⟨hfield, hfields⟩ := List.forall_mem_cons.mp h
      obtain ⟨weight, hweight⟩ := isWeight_iff.mp hfield
      obtain ⟨rest, hrest⟩ := ih hfields
      refine ⟨(field.1, weight) :: rest, readObjectives_eq_ok_iff.mpr ?_⟩
      exact List.Forall₂.cons ⟨rfl, hweight⟩ (readObjectives_eq_ok_iff.mp hrest)

/-- Objectives are read just where they are missing or an object of weights that is not empty. -/
lemma exists_objectivesOf_iff :
    (∃ objectives, objectivesOf j = .ok objectives) ↔
      ∀ value, j.field? "objectives" = some value →
        ∃ fields, value = .obj fields ∧ fields ≠ [] ∧ ∀ field ∈ fields, IsWeight field.2 := by
  unfold objectivesOf
  rcases j.field? "objectives" with _ | value
  · simp
  · cases value with
    | obj fields =>
      cases fields with
      | nil => simp
      | cons field fields =>
        constructor
        · rintro hread _ ⟨⟩
          exact ⟨_, rfl, List.cons_ne_nil _ _, exists_readObjectives_iff.mp hread⟩
        · intro h
          obtain ⟨_, ⟨⟩, -, hweights⟩ := h _ rfl
          exact exists_readObjectives_iff.mpr hweights
    | _ => simp

/-- Constraints are read just where they are missing, an object or null. -/
lemma exists_constraintsOf_iff :
    (∃ source, constraintsOf j = .ok source) ↔
      ∀ value, j.field? "constraints" = some value →
        value.isObject = true ∨ value.isNull = true := by
  unfold constraintsOf
  rcases j.field? "constraints" with _ | value
  · simp
  · by_cases hkind : value.isObject = true ∨ value.isNull = true
    · simp [hkind]
    · simp [hkind]

/-- Options are read from an object just where its settings are well formed. -/
lemma exists_ofJson_iff (hobject : j.isObject = true) :
    (∃ options, ofJson j = .ok options) ↔ WellFormed j := by
  constructor
  · rintro ⟨options, hread⟩
    obtain ⟨h₁, h₂, h₃, h₄, h₅, h₆, h₇⟩ := (ofJson_eq_ok_iff hobject).mp hread
    exact
      { bounds := exists_boundsOf_iff.mp ⟨_, h₁⟩
        radius := exists_readCountSetting_iff.mp ⟨_, h₂⟩
        minMeasured := exists_readCountSetting_iff.mp ⟨_, h₃⟩
        maxSteps := exists_readCountSetting_iff.mp ⟨_, h₄⟩
        mode := exists_modeOf_iff.mp ⟨_, h₅⟩
        objectives := exists_objectivesOf_iff.mp ⟨_, h₆⟩
        constraints := exists_constraintsOf_iff.mp ⟨_, h₇⟩ }
  · intro h
    obtain ⟨bounds, h₁⟩ := exists_boundsOf_iff.mpr h.bounds
    obtain ⟨radius, h₂⟩ := exists_readCountSetting_iff.mpr h.radius
    obtain ⟨minMeasured, h₃⟩ := exists_readCountSetting_iff.mpr h.minMeasured
    obtain ⟨maxSteps, h₄⟩ := exists_readCountSetting_iff.mpr h.maxSteps
    obtain ⟨mode, h₅⟩ := exists_modeOf_iff.mpr h.mode
    obtain ⟨objectives, h₆⟩ := exists_objectivesOf_iff.mpr h.objectives
    obtain ⟨constraints, h₇⟩ := exists_constraintsOf_iff.mpr h.constraints
    exact ⟨{ bounds, radius, minMeasured, maxSteps, mode, objectives, constraints },
      (ofJson_eq_ok_iff hobject).mpr ⟨h₁, h₂, h₃, h₄, h₅, h₆, h₇⟩⟩

/-- The keys of all settings but the bounds. -/
def plainKeys : List String :=
  ["radius", "min_initialized", "max_steps", "concurrency_mode", "objectives", "constraints"]

/-- Whether two objects are alike in all settings: they have the same values under all keys of
settings, or bounds that have the same values under all keys of limits. -/
structure SameSettings (j j' : Json) : Prop where
  isObject : j.isObject = true ∧ j'.isObject = true
  plain : ∀ key ∈ plainKeys, j'.field? key = j.field? key
  bounds : j'.field? "bounds" = j.field? "bounds" ∨
    ∃ b b', j.field? "bounds" = some b ∧ j'.field? "bounds" = some b' ∧ b.isObject = true ∧
      b'.isObject = true ∧ ∀ key ∈ Bounds.keys, b'.field? key = b.field? key

/-- What a field is put into is an object. -/
lemma isObject_of_setField? {key : String} {value changed : Json}
    (h : j.setField? key value = some changed) : changed.isObject = true := by
  unfold Json.setField? at h
  split at h
  · obtain rfl := Option.some.inj h
    rfl
  · obtain rfl := Option.some.inj h
    rfl
  · cases h

/-- An object without a field is an object. -/
lemma isObject_eraseField {key : String} (h : j.isObject = true) :
    (j.eraseField key).isObject = true := by
  unfold Json.eraseField
  split
  · rfl
  · exact h

/-- Objects that are alike in all settings are read alike. -/
lemma SameSettings.ofJson_eq {j' : Json} (h : SameSettings j j') : ofJson j' = ofJson j := by
  have hcount : ∀ key ∈ plainKeys, readCountSetting j' key = readCountSetting j key := by
    intro key hkey
    funext fallback
    rw [readCountSetting, readCountSetting, h.plain key hkey]
  have hmode : modeOf j' = modeOf j := by
    rw [modeOf, modeOf, h.plain _ (by decide)]
  have hobjectives : objectivesOf j' = objectivesOf j := by
    rw [objectivesOf, objectivesOf, h.plain _ (by decide)]
  have hconstraints : constraintsOf j' = constraintsOf j := by
    rw [constraintsOf, constraintsOf, h.plain _ (by decide)]
  have hbounds : boundsOf j' = boundsOf j := by
    rw [boundsOf, boundsOf]
    rcases h.bounds with hsame | ⟨b, b', hb, hb', hobject, hobject', hlimits⟩
    · rw [hsame]
    · rw [hb, hb']
      exact Bounds.ofJson_congr hobject hobject' hlimits
  obtain ⟨hobject, hobject'⟩ := h.isObject
  unfold ofJson
  rw [Json.isNull_of_isObject hobject, Json.isNull_of_isObject hobject', hobject, hobject',
    hbounds, hmode, hobjectives, hconstraints, hcount _ (by decide), hcount _ (by decide),
    hcount _ (by decide)]

/-- A key that is no setting may be written or removed. -/
theorem ofJson_of_free_key {key : String} (hobject : j.isObject = true)
    (hkey : key ∉ "bounds" :: plainKeys) :
    (∀ value changed, j.setField? key value = some changed → ofJson changed = ofJson j) ∧
      ofJson (j.eraseField key) = ofJson j := by
  have hfree : ∀ own ∈ "bounds" :: plainKeys, own ≠ key := by
    rintro own hown rfl
    exact hkey hown
  constructor
  · intro value changed hchanged
    have hsame : ∀ own ∈ "bounds" :: plainKeys, changed.field? own = j.field? own :=
      fun own hown => by rw [Json.field?_setField? hchanged, if_neg (hfree own hown)]
    obtain ⟨hbounds, hplain⟩ := List.forall_mem_cons.mp hsame
    exact SameSettings.ofJson_eq
      ⟨⟨hobject, isObject_of_setField? hchanged⟩, hplain, Or.inl hbounds⟩
  · have hsame : ∀ own ∈ "bounds" :: plainKeys, (j.eraseField key).field? own = j.field? own :=
      fun own hown => by rw [Json.field?_eraseField, if_neg (hfree own hown)]
    obtain ⟨hbounds, hplain⟩ := List.forall_mem_cons.mp hsame
    exact SameSettings.ofJson_eq
      ⟨⟨hobject, isObject_eraseField hobject⟩, hplain, Or.inl hbounds⟩

/-- The bounds have a fault just where they are given with one. -/
lemma exists_invalid_boundsOf_iff :
    (∃ f, boundsOf j = .error f ∧ f.code = .invalidBounds) ↔
      ∃ bounds, j.field? "bounds" = some bounds ∧ bounds.isObject = true ∧ Bounds.Typed bounds ∧
        ¬ Bounds.Sound bounds := by
  unfold boundsOf
  rcases j.field? "bounds" with _ | value
  · simp
  · simp [Bounds.exists_invalid_iff]

/-- What is no object gives no bounds. -/
lemma boundsOf_of_not_object (h : j.isObject = false) : boundsOf j = .ok {} := by
  rw [Json.isObject, Option.isSome_eq_false_iff, Option.isNone_iff_eq_none] at h
  rw [boundsOf, Json.field?, h, Option.bind_none]

/-- A fault of the bounds is reported just where the bounds have one. -/
lemma exists_invalid_iff :
    (∃ f, ofJson j = .error f ∧ f.code = .invalidBounds) ↔
      ∃ bounds, j.field? "bounds" = some bounds ∧ bounds.isObject = true ∧ Bounds.Typed bounds ∧
        ¬ Bounds.Sound bounds := by
  rw [← exists_invalid_boundsOf_iff]
  cases hobject : j.isObject with
  | true =>
    constructor
    · rintro ⟨f, hread, hcode⟩
      rcases code_of_ofJson hobject hread with hfirst | hother
      · exact ⟨f, hfirst, hcode⟩
      · rw [hother] at hcode
        cases hcode
    · rintro ⟨f, hread, hcode⟩
      exact ⟨f, ofJson_of_boundsOf hobject hread, hcode⟩
  | false =>
    refine iff_of_false ?_ ?_
    · rintro ⟨f, hread, hcode⟩
      rw [code_of_not_object hobject hread] at hcode
      cases hcode
    · rintro ⟨f, hread, -⟩
      rw [boundsOf_of_not_object hobject] at hread
      cases hread

/-- Whatever is wrong is a fault of the bounds or of the configuration. -/
lemma code_cases {f : Failure} (h : ofJson j = .error f) :
    f.code = .invalidBounds ∨ f.code = .invalidConfiguration := by
  cases hobject : j.isObject with
  | true =>
    rcases code_of_ofJson hobject h with hbounds | hother
    · unfold boundsOf at hbounds
      split at hbounds
      · cases hbounds
      · exact Bounds.code_cases hbounds
    · exact Or.inr hother
  | false => exact Or.inr (code_of_not_object hobject h)

/-- The options that are read from a value are settled by its settings alone.  There are options
just where the value is null or an object of well-formed settings, and their bounds pass the check.
A fault of the bounds is reported just where the first thing that is wrong is a limit of the right
kind: all limits are read before any is checked, and no other setting is read before that. -/
theorem ofJson_grammar (j : Json) :
    ((∃ options, ofJson j = .ok options) ↔
      j.isNull = true ∨ j.isObject = true ∧ WellFormed j) ∧
    (∀ j', SameSettings j j' → ofJson j' = ofJson j) ∧
    ((∃ f, ofJson j = .error f ∧ f.code = .invalidBounds) ↔
      ∃ bounds, j.field? "bounds" = some bounds ∧ bounds.isObject = true ∧ Bounds.Typed bounds ∧
        ¬ Bounds.Sound bounds) ∧
    (∀ f, ofJson j = .error f → f.code = .invalidBounds ∨ f.code = .invalidConfiguration) ∧
    ∀ options, ofJson j = .ok options → options.bounds.check = .ok () := by
  refine ⟨?_, fun j' h => h.ofJson_eq, exists_invalid_iff, fun f h => code_cases h,
    fun options h => (admissible_of_ofJson h).bounds.2⟩
  cases hobject : j.isObject with
  | true => simp [exists_ofJson_iff hobject, Json.isNull_of_isObject hobject]
  | false =>
    rcases ofJson_of_not_object hobject with ⟨hnull, hread⟩ | ⟨hnull, hread⟩
    · simp [hnull, hread]
    · simp [hnull, hread]

end Options

end ServingTuner
