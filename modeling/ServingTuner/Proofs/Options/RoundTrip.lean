import Mathlib
import ServingTuner.Proofs.Options.Settings

/-!
# Options that are read back

Options come from a JSON value only if they are admissible: their limits fit and pass their check,
there are objectives and none has a negative weight, and the constraints are an object or null
(`Options.admissible_of_ofJson`).  Admissible options are read from the object that they are written
as (`Options.Admissible.ofJson_toJson`).  So whatever options were read from, they survive being
written and read again (`Options.ofJson_toJson_of_ofJson`).
-/

namespace ServingTuner

/-! ### Fields that may be missing -/

namespace Fields

variable {β : Type}

/-- Changes can be made one after another. -/
lemma update_append (fields first second : Fields β) :
    update fields (first ++ second) = update (update fields first) second :=
  List.foldl_append

/-- A field that may be missing is found where it is set, and all others stay. -/
lemma get?_update_toList {γ : Type} (fields : Fields β) (key : String) (write : γ → β)
    (value : Option γ) (k : String) :
    get? (update fields (value.map fun v => (key, write v)).toList) k =
      if k = key then (value.map write).or (get? fields k) else get? fields k := by
  rcases value with _ | v
  · simp [update]
  · simp [update, get?_set]

end Fields

/-! ### Bounds -/

namespace Bounds

variable {bounds : Bounds} {j : Json}

/-- All limits and the multiplier are signed 64-bit integers. -/
structure Within (bounds : Bounds) : Prop extends bounds.Fits where
  multiplier : bounds.multiplier ≤ maxSigned

/-- The limits of written bounds stand under their keys. -/
lemma field?_toJson (bounds : Bounds) :
    bounds.toJson.field? "min_model_batch_size" = bounds.batchSize.lower.map .int ∧
      bounds.toJson.field? "max_model_batch_size" = bounds.batchSize.upper.map .int ∧
      bounds.toJson.field? "min_instance_count" = bounds.instanceCount.lower.map .int ∧
      bounds.toJson.field? "max_instance_count" = bounds.instanceCount.upper.map .int ∧
      bounds.toJson.field? "min_concurrency" = bounds.concurrency.lower.map .int ∧
      bounds.toJson.field? "max_concurrency" = bounds.concurrency.upper.map .int ∧
      bounds.toJson.field? "concurrency_multiplier" = (some bounds.multiplier).map .int := by
  have hlast : ∀ (fields : Fields Json) (key : String) (value : Json),
      Fields.update fields [(key, value)] = Fields.set key value fields := fun _ _ _ => rfl
  simp [toJson, Json.object, Json.field?, Json.fields?, Fields.ofList, Fields.update_append,
    Fields.get?_update_toList, hlast, Fields.get?_set, Fields.get?]

/-- A limit that is written is the one that is given. -/
lemma limitAt?_of_field? {key : String} {limit : Option ℤ}
    (h : j.field? key = limit.map .int) : limitAt? j key = limit := by
  rw [limitAt?, h]
  cases limit <;> rfl

/-- A limit that is written within the signed range is of the right kind. -/
lemma isLimitAt_of_field? {key : String} {limit : Option ℤ} (h : j.field? key = limit.map .int)
    (hle : ∀ value ∈ limit, value ≤ maxSigned) : IsLimitAt j key := by
  rcases limit with _ | value
  · exact Or.inl h
  · exact Or.inr (Or.inr ⟨value, hle value rfl, h⟩)

/-- A limit of the right kind is within the signed range. -/
lemma le_of_isLimitAt {key : String} (h : IsLimitAt j key) :
    ∀ value ∈ limitAt? j key, value ≤ maxSigned := by
  intro value hvalue
  rw [Option.mem_def, limitAt?] at hvalue
  rcases h with h | h | ⟨n, hle, h⟩
  · simp [h] at hvalue
  · simp [h, Json.int?] at hvalue
  · simp only [h, Option.bind_some, Json.int?, Option.some.injEq] at hvalue
    exact hvalue ▸ hle

/-- Bounds of limits of the right kind are within the signed range. -/
lemma within_given (h : Typed j) : (given j).Within := by
  have hle : ∀ key ∈ keys, ∀ value ∈ limitAt? j key, value ≤ maxSigned :=
    fun key hkey => le_of_isLimitAt (h key hkey)
  constructor
  · constructor
    · exact ⟨hle _ (by decide), hle _ (by decide)⟩
    · exact ⟨hle _ (by decide), hle _ (by decide)⟩
    · exact ⟨hle _ (by decide), hle _ (by decide)⟩
  · rcases hmultiplier : limitAt? j "concurrency_multiplier" with _ | multiplier
    · simp only [given, hmultiplier, Option.getD_none]
      decide
    · simp only [given, hmultiplier, Option.getD_some]
      exact hle _ (by decide) multiplier hmultiplier

/-- The standard bounds are within the signed range and pass their check. -/
lemma within_standard : ({} : Bounds).Within ∧ ({} : Bounds).check = .ok () :=
  ⟨{ batchSize := ⟨by simp, by simp⟩
     instanceCount := ⟨by simp, by simp⟩
     concurrency := ⟨by simp, by simp⟩
     multiplier := by decide }, rfl⟩

/-- Bounds that pass their check and are within the signed range are read from what they are written
as. -/
lemma ofJson_toJson (h : bounds.Within) (hcheck : bounds.check = .ok ()) :
    ofJson bounds.toJson = .ok bounds := by
  obtain ⟨h₁, h₂, h₃, h₄, h₅, h₆, h₇⟩ := field?_toJson bounds
  have hgiven : given bounds.toJson = bounds := by
    simp only [given, limitAt?_of_field? h₁, limitAt?_of_field? h₂, limitAt?_of_field? h₃,
      limitAt?_of_field? h₄, limitAt?_of_field? h₅, limitAt?_of_field? h₆, limitAt?_of_field? h₇,
      Option.getD_some]
  refine (ofJson_eq_ok_iff rfl).mpr ⟨?_, hgiven.symm ▸ hcheck, hgiven.symm⟩
  have hmultiplier : ∀ value ∈ some bounds.multiplier, value ≤ maxSigned := by
    intro value hvalue
    obtain rfl := Option.some.inj hvalue
    exact h.multiplier
  simpa [Typed, keys] using
    ⟨isLimitAt_of_field? h₁ h.batchSize.1, isLimitAt_of_field? h₂ h.batchSize.2,
      isLimitAt_of_field? h₃ h.instanceCount.1, isLimitAt_of_field? h₄ h.instanceCount.2,
      isLimitAt_of_field? h₅ h.concurrency.1, isLimitAt_of_field? h₆ h.concurrency.2,
      isLimitAt_of_field? h₇ hmultiplier⟩

/-- Bounds that were read are within the signed range and pass their check. -/
lemma within_of_ofJson (h : ofJson j = .ok bounds) : bounds.Within ∧ bounds.check = .ok () := by
  cases hobject : j.isObject with
  | true =>
    obtain ⟨htyped, hcheck, rfl⟩ := (ofJson_eq_ok_iff hobject).mp h
    exact ⟨within_given htyped, hcheck⟩
  | false =>
    rw [eq_standard_of_not_object hobject h]
    exact within_standard

end Bounds

/-! ### Options -/

namespace Options

variable {options : Options} {j : Json}

/-- Options are admissible if they can have been read: the bounds are within the signed range and
pass their check, there are weights and none is negative, and the constraints are an object or
null. -/
structure Admissible (options : Options) : Prop where
  bounds : options.bounds.Within ∧ options.bounds.check = .ok ()
  objectives : options.objectives ≠ []
  weights : ∀ objective ∈ options.objectives, ¬ objective.2 < 0.0
  constraints : options.constraints.isObject = true ∨ options.constraints.isNull = true

/-- The settings of written options stand under their keys. -/
lemma field?_toJson (options : Options) :
    options.toJson.field? "bounds" = some options.bounds.toJson ∧
      options.toJson.field? "radius" = some (.int options.radius.toNat) ∧
      options.toJson.field? "min_initialized" = some (.int options.minMeasured.toNat) ∧
      options.toJson.field? "max_steps" = some (.int options.maxSteps.toNat) ∧
      options.toJson.field? "concurrency_mode" = some (.str options.mode.name) ∧
      options.toJson.field? "objectives" =
        some (.obj (options.objectives.map fun (tag, weight) => (tag, Json.float weight))) ∧
      options.toJson.field? "constraints" = some options.constraints := by
  simp [toJson, Json.object, Json.field?, Json.fields?, Fields.ofList, Fields.update,
    Fields.get?_set]

/-- A count that is written is read back. -/
lemma readCountSetting_of_field? {key : String} {count : UInt32} (fallback : UInt32)
    (h : j.field? key = some (.int count.toNat)) : readCountSetting j key fallback = .ok count := by
  have hlt : (count.toNat : ℤ) < UInt32.size := by exact_mod_cast count.toNat_lt
  have hword : ((count.toNat : ℤ) % 2 ^ 32).toNat = count.toNat := by
    rw [UInt32.size] at hlt
    omega
  have hread : UInt32.ofInt (count.toNat : ℤ) = count := by
    rw [UInt32.ofInt, hword, UInt32.ofNat_toNat]
  simp only [readCountSetting, h]
  rw [if_pos ⟨Int.natCast_nonneg _, hlt⟩, hread]

/-- Weights that are written are read back. -/
lemma readObjectives_of_weights {objectives : Objectives Float}
    (h : ∀ objective ∈ objectives, ¬ objective.2 < 0.0) :
    readObjectives (objectives.map fun (tag, weight) => (tag, Json.float weight)) =
      .ok objectives := by
  rw [readObjectives_eq_ok_iff, List.forall₂_map_left_iff, List.forall₂_same]
  exact fun objective hobjective => ⟨rfl, rfl, h objective hobjective⟩

/-- A mode is read from its name. -/
lemma ofName_name (mode : ConcurrencyMode) : ConcurrencyMode.ofName mode.name = .ok mode := by
  cases mode <;> rfl

/-- Admissible options are read from what they are written as. -/
theorem Admissible.ofJson_toJson (h : options.Admissible) :
    ofJson options.toJson = .ok options := by
  obtain ⟨hbounds, hradius, hmeasured, hsteps, hmode, hobjectives, hconstraints⟩ :=
    field?_toJson options
  refine (ofJson_eq_ok_iff rfl).mpr ⟨?_, readCountSetting_of_field? _ hradius,
    readCountSetting_of_field? _ hmeasured, readCountSetting_of_field? _ hsteps, ?_, ?_, ?_⟩
  · rw [boundsOf, hbounds]
    exact Bounds.ofJson_toJson h.bounds.1 h.bounds.2
  · rw [modeOf, hmode]
    exact ofName_name options.mode
  · rw [objectivesOf, hobjectives]
    have hread := readObjectives_of_weights h.weights
    obtain ⟨objective, rest, hcons⟩ := List.exists_cons_of_ne_nil h.objectives
    rw [hcons] at hread ⊢
    exact hread
  · rw [constraintsOf, hconstraints]
    rcases h.constraints with hobject | hnull
    · simp [hobject]
    · simp [hnull]

/-- The standard weights, throughput alone, are weights, and none is negative. -/
lemma weights_standard :
    (Objectives.standard : Objectives Float) ≠ [] ∧
      ∀ objective ∈ (Objectives.standard : Objectives Float), ¬ objective.2 < 0.0 := by
  refine ⟨List.cons_ne_nil _ _, fun objective hobjective => ?_⟩
  rw [List.mem_singleton.mp hobjective]
  decide

/-- Weights that were read are weights, and none is negative. -/
lemma weights_of_objectivesOf {objectives : Objectives Float}
    (h : objectivesOf j = .ok objectives) :
    objectives ≠ [] ∧ ∀ objective ∈ objectives, ¬ objective.2 < 0.0 := by
  unfold objectivesOf at h
  split at h
  · obtain rfl := Except.ok.inj h
    exact weights_standard
  · have hread := readObjectives_eq_ok_iff.mp h
    constructor
    · rintro rfl
      cases hread
    · have hsplit : List.Forall₂
          (fun objective (field : String × Json) => ¬ objective.2 < 0.0 ∧ objective.1 = field.1)
          objectives _ :=
        hread.flip.imp fun _ _ h => ⟨h.2.2, h.1⟩
      exact ((List.forall₂_and_left _ _).mp hsplit).1
  · cases h

/-- Constraints that were read are an object or null. -/
lemma constraints_of_constraintsOf {source : Json} (h : constraintsOf j = .ok source) :
    source.isObject = true ∨ source.isNull = true := by
  unfold constraintsOf at h
  split at h
  · obtain rfl := Except.ok.inj h
    exact Or.inr rfl
  · split_ifs at h with hkind
    obtain rfl := Except.ok.inj h
    simpa using hkind

/-- Bounds that were read, be it by leaving them out, are within the signed range and pass their
check. -/
lemma within_of_boundsOf {bounds : Bounds} (h : boundsOf j = .ok bounds) :
    bounds.Within ∧ bounds.check = .ok () := by
  unfold boundsOf at h
  split at h
  · obtain rfl := Except.ok.inj h
    exact Bounds.within_standard
  · exact Bounds.within_of_ofJson h

/-- Options that were read are admissible. -/
theorem admissible_of_ofJson (h : ofJson j = .ok options) : options.Admissible := by
  cases hobject : j.isObject with
  | true =>
    obtain ⟨hbounds, -, -, -, -, hobjectives, hconstraints⟩ := (ofJson_eq_ok_iff hobject).mp h
    obtain ⟨hfilled, hweights⟩ := weights_of_objectivesOf hobjectives
    exact ⟨within_of_boundsOf hbounds, hfilled, hweights, constraints_of_constraintsOf hconstraints⟩
  | false =>
    rw [eq_standard_of_not_object hobject h]
    exact ⟨Bounds.within_standard, weights_standard.1, weights_standard.2, Or.inr rfl⟩

/-- Options that were read from any value are read again from what they are written as, with the
same text. -/
theorem ofJson_toJson_of_ofJson (h : ofJson j = .ok options) :
    ∃ again, ofJson options.toJson = .ok again ∧ again = options ∧
      again.toJson.text = options.toJson.text :=
  ⟨options, (admissible_of_ofJson h).ofJson_toJson, rfl, rfl⟩

/-- Settings with the greatest limit, a limit that is null, an integer as a weight and the greatest
radius. -/
def extremeSettings : Json := .obj
  [("bounds", .obj [("max_concurrency", .int 9223372036854775807), ("min_concurrency", .null)]),
    ("constraints", .obj []), ("objectives", .obj [("perf_throughput", .int 3)]),
    ("radius", .int 4294967295)]

/-- Extreme settings survive being written, where the null is left out and the weight becomes a
double. -/
theorem ofJson_toJson_of_extremeSettings :
    ∃ options, ofJson extremeSettings = .ok options ∧
      options.bounds.concurrency = ⟨none, some 9223372036854775807⟩ ∧
      options.radius = 4294967295 ∧ options.objectives = [("perf_throughput", Float.ofInt 3)] ∧
      ∃ again, ofJson options.toJson = .ok again ∧ again = options ∧
        again.toJson.text = options.toJson.text := by
  obtain ⟨options, hread, hoptions⟩ : ∃ options, ofJson extremeSettings = .ok options ∧
      options.bounds.concurrency = ⟨none, some 9223372036854775807⟩ ∧
      options.radius = 4294967295 ∧ options.objectives = [("perf_throughput", Float.ofInt 3)] :=
    ⟨_, rfl, rfl, rfl, rfl⟩
  exact ⟨options, hread, hoptions.1, hoptions.2.1, hoptions.2.2, ofJson_toJson_of_ofJson hread⟩

end Options

end ServingTuner
