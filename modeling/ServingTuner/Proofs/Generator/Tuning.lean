import Mathlib
import ServingTuner.Proofs.Config.Schedule
import ServingTuner.Proofs.Dimension.Values
import ServingTuner.Proofs.Generator.Runs
import ServingTuner.Proofs.Text.Json

/-!
# What tells variants apart

Two variants of a unit come from one baseline and differ in the batch size and the number of
instances that were written into it, and two variants of an ensemble differ in the names of the
stage variants.  The registry tells variants apart by their text, and the text tells exactly these
differences (`tuned_of_key_eq`, `withStages_of_key_eq`).  That the batch size is positive matters:
only then do all variants of a unit have the same fields.
-/

namespace ServingTuner

/-! ### Positive batch sizes -/

namespace Limits

/-- A limit that was checked is positive. -/
lemma pos_of_checkPositive {side : BoundSide} {quantity : String} {limit : Option ℤ}
    (h : checkPositive side quantity limit = .ok ()) : ∀ value ∈ limit, 0 < value := by
  intro value hvalue
  rw [Option.mem_def] at hvalue
  rw [hvalue, checkPositive] at h
  split_ifs at h with hpos
  exact not_le.mp hpos

/-- Both limits of a pair that was checked are positive. -/
lemma pos_of_check {limits : Limits} {quantity : String} (h : limits.check quantity = .ok ()) :
    (∀ value ∈ limits.lower, 0 < value) ∧ ∀ value ∈ limits.upper, 0 < value := by
  rw [check] at h
  obtain ⟨lower, hlower, h⟩ := bind_eq_ok.mp h
  obtain ⟨upper, hupper, -⟩ := bind_eq_ok.mp h
  exact ⟨pos_of_checkPositive hlower, pos_of_checkPositive hupper⟩

/-- Positive limits keep a positive value positive. -/
lemma one_le_clamp {limits : Limits} {quantity : String} (h : limits.check quantity = .ok ())
    {value : ℤ} (hvalue : 1 ≤ value) : 1 ≤ limits.clamp value := by
  obtain ⟨hlower, hupper⟩ := pos_of_check h
  rw [clamp]
  cases hu : limits.upper with
  | none =>
    cases hl : limits.lower with
    | none => exact hvalue
    | some lower => exact le_max_of_le_left hvalue
  | some upper =>
    have hcapped : 1 ≤ min value upper := le_min hvalue (hupper upper hu)
    cases hl : limits.lower with
    | none => exact hcapped
    | some lower => exact le_max_of_le_left hcapped

end Limits

/-- What is checked of bounds. -/
lemma Bounds.check_eq_ok {bounds : Bounds} (h : bounds.check = .ok ()) :
    bounds.batchSize.check "model batch size" = .ok () ∧
      bounds.instanceCount.check "instance count" = .ok () ∧
      bounds.concurrency.check "concurrency" = .ok () ∧ 1 ≤ bounds.multiplier := by
  rw [check] at h
  obtain ⟨_, hbatch, h⟩ := bind_eq_ok.mp h
  obtain ⟨_, hinstances, h⟩ := bind_eq_ok.mp h
  obtain ⟨_, hconcurrency, h⟩ := bind_eq_ok.mp h
  split_ifs at h with hmultiplier
  exact ⟨hbatch, hinstances, hconcurrency, not_le.mp hmultiplier⟩

/-- The values of units are positive. -/
def PositiveValues (own : UnitValues) : Prop :=
  ∀ name value, Fields.get? own name = some value → 1 ≤ value

/-- Every value of a unit at a coordinate is that of a slot of one of its dimensions. -/
lemma exists_valueAt_of_valuesAt {set : DimensionSet} {c : Coordinate} {values : List UnitValues}
    (h : set.valuesAt c = .ok values) {own : UnitValues} (hown : own ∈ values) {name : String}
    {value : ℤ} (hvalue : Fields.get? own name = some value) :
    ∃ (dimension : Dimension) (slot : UInt32), value = dimension.valueAt slot := by
  rw [DimensionSet.valuesAt] at h
  split_ifs at h
  cases h
  obtain ⟨unit, -, rfl⟩ := List.mem_map.mp hown
  rcases Fields.mem_values_of_get?_update hvalue with hmem | hget
  · obtain ⟨pair, hpair, rfl⟩ := List.mem_map.mp hmem
    obtain ⟨⟨slot, position⟩, -, hsome⟩ := List.mem_filterMap.mp hpair
    dsimp only at hsome
    split_ifs at hsome
    cases hsome
    exact ⟨slot.dimension, position, rfl⟩
  · cases hget

/-- The values of all units at a coordinate are positive. -/
lemma positiveValues_of_valuesAt {set : DimensionSet} {c : Coordinate} {values : List UnitValues}
    (h : set.valuesAt c = .ok values) : ∀ own ∈ values, PositiveValues own := by
  intro own hown name value hvalue
  obtain ⟨dimension, slot, rfl⟩ := exists_valueAt_of_valuesAt h hown hvalue
  exact dimension.one_le_valueAt slot

/-- A unit's batch size is positive. -/
lemma Generator.one_le_batchSize {g : Generator} (hbounds : g.bounds.check = .ok ())
    (unit : ServedUnit) {own : UnitValues} (hown : PositiveValues own) :
    1 ≤ (g.settings unit own).batchSize := by
  have hvalue : 1 ≤ (Fields.get? own Dimension.batchSize).getD unit.baseBatchSize := by
    cases hget : Fields.get? own Dimension.batchSize with
    | none => exact le_max_right _ _
    | some value => exact hown _ _ hget
  exact Limits.one_le_clamp (Bounds.check_eq_ok hbounds).1 hvalue

/-! ### Configurations that differ in integers and strings -/

namespace ModelConfig

variable {config other : ModelConfig}

/-- Both configurations take fields, and they agree outside their integers and strings. -/
def Aligned (config other : ModelConfig) : Prop :=
  ∃ fields others, config = ⟨.obj fields⟩ ∧ other = ⟨.obj others⟩ ∧
    Json.AlignedFields fields others

/-- A configuration agrees with itself. -/
lemma IsObject.aligned (h : config.IsObject) : config.Aligned config := by
  obtain ⟨fields, rfl⟩ := h.eq_obj
  exact ⟨fields, fields, rfl, rfl, .refl fields⟩

/-- Configurations that agree still do after one field is set in both. -/
lemma Aligned.withField (h : config.Aligned other) (key : String) {x y : Json}
    (hvalue : Json.Aligned x y) : (config.withField key x).Aligned (other.withField key y) := by
  obtain ⟨fields, others, rfl, rfl, hfields⟩ := h
  exact ⟨_, _, rfl, rfl, hfields.set key hvalue⟩

/-- Configurations that agree have the same fields. -/
lemma Aligned.hasField (h : config.Aligned other) (key : String) :
    config.hasField key = other.hasField key := by
  obtain ⟨fields, others, rfl, rfl, hfields⟩ := h
  exact hfields.isSome_get? key

/-- The text by which the registry knows a configuration tells every field but the name, among
configurations that agree outside their integers and strings. -/
lemma Aligned.field?_of_key_eq (h : config.Aligned other)
    (hkey : VariantNames.key config.content = VariantNames.key other.content) {key : String}
    (hname : key ≠ ConfigField.name) : config.field? key = other.field? key := by
  obtain ⟨fields, others, rfl, rfl, hfields⟩ := h
  have hcanonical : VariantNames.canonical (.obj fields) = VariantNames.canonical (.obj others) :=
    Json.Aligned.text_inj (.obj (hfields.erase ConfigField.name)) hkey
  have hfield := congrArg (Json.field? · key) hcanonical
  show (Json.obj fields).field? key = (Json.obj others).field? key
  simpa only [VariantNames.canonical, Json.field?_eraseField, if_neg hname] using hfield

end ModelConfig

/-! ### Variants of a unit -/

namespace ServedUnit

open ModelConfig

variable {unit : ServedUnit} {s t : UnitSettings}

/-- Configurations that agree still do after dynamic batching is switched on in both. -/
lemma aligned_batched {config other : ModelConfig} (h : config.Aligned other) :
    (batched config).Aligned (batched other) := by
  have hsequence : config.hasSequenceBatching = other.hasSequenceBatching := h.hasField _
  have hdynamic : config.hasDynamicBatching = other.hasDynamicBatching := h.hasField _
  rw [batched, batched, hsequence, hdynamic]
  split_ifs
  · exact h
  · exact h.withField ConfigField.dynamicBatching (.refl Json.empty)

/-- Dynamic batching leaves the other fields as they are. -/
lemma field?_batched {config : ModelConfig} (h : config.IsObject) {key : String}
    (hkey : key ≠ ConfigField.dynamicBatching) :
    (batched config).field? key = config.field? key := by
  rw [batched]
  split_ifs
  · rfl
  · rw [field?_withField h, if_neg hkey]

/-- A configuration with dynamic batching is an object. -/
lemma isObject_batched {config : ModelConfig} (h : config.IsObject) : (batched config).IsObject := by
  rw [batched]
  split_ifs
  · exact h
  · exact h.withField _ _

/-- The baseline with the settings written into it, before dynamic batching. -/
def sized (unit : ServedUnit) (settings : UnitSettings) : ModelConfig :=
  (unit.baseline.withField ConfigField.maxBatchSize (.int settings.batchSize)).withField
    ConfigField.instanceGroup (unit.instanceGroup settings.instanceCount)

/-- With a positive batch size a variant has dynamic batching. -/
lemma tuned_of_pos (hpos : 1 ≤ s.batchSize) : unit.tuned s = batched (unit.sized s) := if_pos hpos

/-- The baseline with settings is an object. -/
lemma isObject_sized (h : unit.baseline.IsObject) : (unit.sized s).IsObject :=
  (h.withField _ _).withField _ _

/-- A variant is an object. -/
lemma isObject_tuned (h : unit.baseline.IsObject) (hpos : 1 ≤ s.batchSize) :
    (unit.tuned s).IsObject := by
  rw [tuned_of_pos hpos]
  exact isObject_batched (isObject_sized h)

/-- Instance groups of a unit agree outside the number of instances. -/
lemma aligned_instanceGroup (unit : ServedUnit) (m n : ℤ) :
    Json.Aligned (unit.instanceGroup m) (unit.instanceGroup n) := by
  have hgroup : ∀ kind : Json, Json.Aligned
      (Json.object [(ConfigField.count, .int m), (ConfigField.kind, kind)])
      (Json.object [(ConfigField.count, .int n), (ConfigField.kind, kind)]) := by
    intro kind
    exact Json.AlignedFields.object (.cons _ (.int m n) (.cons _ (.refl kind) .nil))
  exact .arr (.cons (hgroup _) .nil)

/-- An instance group tells the number of instances. -/
lemma instanceGroup_injective {m n : ℤ} (h : unit.instanceGroup m = unit.instanceGroup n) :
    m = n := by
  have hcount := congrArg
    (fun group => (group.items.head?.bind (·.field? ConfigField.count)).bind Json.int?) h
  simpa [instanceGroup, Json.items, Json.object, Fields.ofList, Fields.update, Json.field?,
    Json.fields?, Fields.get?_set, ConfigField.count, ConfigField.kind, Json.int?] using hcount

/-- Variants of a unit agree outside their integers and strings. -/
lemma aligned_tuned (h : unit.baseline.IsObject) (hs : 1 ≤ s.batchSize) (ht : 1 ≤ t.batchSize) :
    (unit.tuned s).Aligned (unit.tuned t) := by
  rw [tuned_of_pos hs, tuned_of_pos ht]
  exact aligned_batched ((h.aligned.withField _ (.int _ _)).withField _
    (unit.aligned_instanceGroup s.instanceCount t.instanceCount))

/-- A variant has the batch size of its settings. -/
lemma field?_maxBatchSize_tuned (h : unit.baseline.IsObject) (hpos : 1 ≤ s.batchSize) :
    (unit.tuned s).field? ConfigField.maxBatchSize = some (.int s.batchSize) := by
  rw [tuned_of_pos hpos, field?_batched (isObject_sized h) (by decide), sized,
    field?_withField (h.withField _ _), if_neg (by decide), field?_withField h, if_pos rfl]

/-- A variant has the instances of its settings. -/
lemma field?_instanceGroup_tuned (h : unit.baseline.IsObject) (hpos : 1 ≤ s.batchSize) :
    (unit.tuned s).field? ConfigField.instanceGroup =
      some (unit.instanceGroup s.instanceCount) := by
  rw [tuned_of_pos hpos, field?_batched (isObject_sized h) (by decide), sized,
    field?_withField (h.withField _ _), if_pos rfl]

/-- Two variants of a unit that the registry takes for one have the same batch size and the same
number of instances. -/
theorem tuned_of_key_eq (h : unit.baseline.IsObject) (hs : 1 ≤ s.batchSize)
    (ht : 1 ≤ t.batchSize)
    (hkey : VariantNames.key (unit.tuned s).content = VariantNames.key (unit.tuned t).content) :
    s.batchSize = t.batchSize ∧ s.instanceCount = t.instanceCount := by
  have hfield : ∀ key : String, key ≠ ConfigField.name →
      (unit.tuned s).field? key = (unit.tuned t).field? key :=
    fun _ => (aligned_tuned h hs ht).field?_of_key_eq hkey
  constructor
  · have hbatch := hfield ConfigField.maxBatchSize (by decide)
    rw [field?_maxBatchSize_tuned h hs, field?_maxBatchSize_tuned h ht] at hbatch
    simpa using hbatch
  · have hgroup := hfield ConfigField.instanceGroup (by decide)
    rw [field?_instanceGroup_tuned h hs, field?_instanceGroup_tuned h ht] at hgroup
    exact instanceGroup_injective (Option.some.inj hgroup)

/-- The concurrency of a unit does not show in its variant. -/
lemma tuned_congr (hbatch : s.batchSize = t.batchSize)
    (hinstances : s.instanceCount = t.instanceCount) : unit.tuned s = unit.tuned t := by
  rw [tuned, tuned, hbatch, hinstances]

end ServedUnit

/-! ### Variants of an ensemble -/

namespace ModelConfig

variable {config : ModelConfig} {names others : List String}

/-- An entry agrees with itself under another model name. -/
lemma aligned_renamed (entry : Json) (name other : String) :
    Json.Aligned ((entry.setField? ConfigField.modelName (.str name)).getD entry)
      ((entry.setField? ConfigField.modelName (.str other)).getD entry) := by
  cases entry with
  | null => exact .obj (.cons _ (.str name other) .nil)
  | obj fields => exact .obj ((Json.AlignedFields.refl fields).set _ (.str name other))
  | _ => exact .refl _

/-- Entries agree with themselves under as many other model names. -/
lemma aligned_renameEntries (hlength : names.length = others.length) (entries : List Json) :
    Json.AlignedElements (renameEntries names entries) (renameEntries others entries) := by
  induction entries generalizing names others with
  | nil =>
    rw [renameEntries_nil, renameEntries_nil]
    exact .nil
  | cons entry entries ih =>
    rcases names with _ | ⟨name, names⟩ <;> rcases others with _ | ⟨other, others⟩
    · exact .refl _
    · cases hlength
    · cases hlength
    · rw [renameEntries, renameEntries]
      split_ifs
      · exact .cons (aligned_renamed entry name other) (ih (Nat.succ.inj hlength))
      · exact .cons (.refl entry) (ih hlength)

/-- Values put in place of the items of a value agree with others that agree with them. -/
lemma aligned_withItems (steps : Json) {xs ys : List Json} (h : Json.AlignedElements xs ys) :
    Json.Aligned (steps.withItems xs) (steps.withItems ys) := by
  cases steps with
  | null => exact .refl _
  | arr elements => exact .arr h
  | obj fields =>
    refine .obj ?_
    induction Fields.keys fields generalizing xs ys with
    | nil => exact .nil
    | cons key keys ih =>
      rcases h with _ | ⟨hxy, hrest⟩
      · exact .nil
      · exact .cons key hxy (ih hrest)
  | _ =>
    rcases h with _ | ⟨hxy, hrest⟩
    · exact .refl _
    · exact hxy

/-- An ensemble agrees with itself when it is pointed at as many other variants. -/
lemma aligned_withStages (h : config.IsObject) (hlength : names.length = others.length) :
    (config.withStages names).Aligned (config.withStages others) := by
  rw [withStages, withStages]
  split
  · rename_i scheduling hfield
    split
    · rename_i steps hsteps
      refine h.aligned.withField _ (.obj ((Json.AlignedFields.refl scheduling).set _ ?_))
      exact aligned_withItems steps (aligned_renameEntries hlength steps.items)
    · exact h.aligned
  · exact h.aligned

/-- An ensemble that the registry takes for one when it is pointed at some variants or at as many
others, and that names all its stages, is pointed at the same variants. -/
theorem withStages_of_key_eq (h : config.IsObject) (hlength : names.length = others.length)
    (hsteps : names.length ≤ config.stepModels.length)
    (hkey : VariantNames.key (config.withStages names).content =
      VariantNames.key (config.withStages others).content) : names = others := by
  have hscheduling : (config.withStages names).field? ConfigField.ensembleScheduling =
      (config.withStages others).field? ConfigField.ensembleScheduling :=
    (aligned_withStages h hlength).field?_of_key_eq hkey (by decide)
  have hmodels : (config.withStages names).stepModels = (config.withStages others).stepModels := by
    rw [stepModels, stepModels, scheduleEntries, scheduleEntries, hscheduling]
  obtain ⟨rest, hrest⟩ := stepModels_withStages h hsteps
  obtain ⟨rest', hrest'⟩ := stepModels_withStages h (hlength ▸ hsteps)
  rw [hrest, hrest'] at hmodels
  exact List.append_inj_left hmodels hlength

end ModelConfig

end ServingTuner
