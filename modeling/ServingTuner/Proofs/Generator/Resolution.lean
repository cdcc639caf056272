import Mathlib
import ServingTuner.Proofs.Generator.Identity

/-!
# What a coordinate resolves to

Every search unit of a run gets a batch size, a number of instances and a concurrency from the
values of its own dimensions, or from its baseline where it has no dimension for one, and all three
are kept within the bounds.  The products saturate at every step, but for positive factors only the
exact product matters (`formulaConcurrency_eq`).  `call_configAt_resolved` says this of all units of
all models at once, and that the configurations that are built read back what was decided.
-/

namespace ServingTuner

/-! ### Positive words -/

/-- A positive number within the signed 64-bit range. -/
def IsCount (n : ℤ) : Prop := 1 ≤ n ∧ n ≤ maxSigned

/-- A signed number that was read is within the range. -/
lemma Json.signed?_le {j : Json} {n : ℤ} (h : j.signed? = some n) : n ≤ maxSigned := by
  rw [Json.signed?, Option.map_eq_some_iff] at h
  obtain ⟨written, -, rfl⟩ := h
  have hlt : written.bmod UInt64.size < ((UInt64.size : ℤ) + 1) / 2 := Int.bmod_lt (by decide)
  rw [maxSigned]
  simp only [UInt64.size] at hlt ⊢
  omega

/-- A count is read as it was written. -/
lemma IsCount.signed? {n : ℤ} (h : IsCount n) : (Json.int n).signed? = some n := by
  obtain ⟨hpos, hle⟩ := h
  rw [maxSigned] at hle
  have hread : n.bmod UInt64.size = n :=
    Int.bmod_eq_of_le (by simp only [UInt64.size]; omega) (by simp only [UInt64.size]; omega)
  rw [Json.signed?, Json.int?, Option.map_some, hread]

/-! ### Saturating products -/

/-- By a factor that is not negative the saturating product is the exact one, cut off at the greatest
signed integer. -/
lemma saturatingProduct_eq (a : ℤ) {b : ℤ} (hb : 0 ≤ b) :
    saturatingProduct a b = min (a * b) maxSigned := by
  have hmax : (0 : ℤ) ≤ maxSigned := by decide
  rw [saturatingProduct]
  split_ifs with hzero hover
  · have hproduct : a * b = 0 := mul_eq_zero.mpr hzero
    rw [hproduct, min_eq_left hmax]
  · have hpos : 0 < b := lt_of_le_of_ne hb fun h => hzero (Or.inr h.symm)
    rw [Int.tdiv_eq_ediv_of_nonneg hmax, Int.ediv_lt_iff_lt_mul hpos] at hover
    exact (min_eq_right hover.le).symm
  · have hpos : 0 < b := lt_of_le_of_ne hb fun h => hzero (Or.inr h.symm)
    rw [Int.tdiv_eq_ediv_of_nonneg hmax, Int.ediv_lt_iff_lt_mul hpos] at hover
    exact (min_eq_left (not_lt.mp hover)).symm

/-- A product of three factors that are not negative saturates only once: it is the exact one, cut
off at the greatest signed integer. -/
lemma saturatingProduct_saturatingProduct {a b c : ℤ} (ha : 0 ≤ a) (hb : 0 ≤ b) (hc : 0 ≤ c) :
    saturatingProduct (saturatingProduct a b) c = min (a * b * c) maxSigned := by
  have hmax : (0 : ℤ) ≤ maxSigned := by decide
  have hproduct : 0 ≤ a * b := mul_nonneg ha hb
  rw [saturatingProduct_eq _ hc, saturatingProduct_eq _ hb]
  rcases hc.eq_or_lt with hzero | hpos
  · rw [← hzero, mul_zero, mul_zero]
  · rcases le_total (a * b) maxSigned with hle | hge
    · rw [min_eq_left hle]
    · have hlarge : maxSigned ≤ maxSigned * c := le_mul_of_one_le_right hmax hpos
      have hlarger : maxSigned ≤ a * b * c := hge.trans (le_mul_of_one_le_right hproduct hpos)
      rw [min_eq_right hge, min_eq_right hlarge, min_eq_right hlarger]

/-- The formula is the exact product of all three factors, cut off once. -/
lemma Bounds.formulaConcurrency_eq (bounds : Bounds) {batchSize instanceCount : ℤ}
    (hbatch : 1 ≤ batchSize) (hinstances : 1 ≤ instanceCount) (hmultiplier : 1 ≤ bounds.multiplier) :
    bounds.formulaConcurrency batchSize instanceCount =
      min (batchSize * instanceCount * bounds.multiplier) maxSigned :=
  saturatingProduct_saturatingProduct (by omega) (by omega) (by omega)

/-- The formula gives a count for positive factors. -/
lemma Bounds.isCount_formulaConcurrency (bounds : Bounds) {batchSize instanceCount : ℤ}
    (hbatch : 1 ≤ batchSize) (hinstances : 1 ≤ instanceCount) (hmultiplier : 1 ≤ bounds.multiplier) :
    IsCount (bounds.formulaConcurrency batchSize instanceCount) := by
  rw [bounds.formulaConcurrency_eq hbatch hinstances hmultiplier]
  refine ⟨le_min ?_ (by decide), min_le_right _ _⟩
  exact one_le_mul_of_one_le_of_one_le (one_le_mul_of_one_le_of_one_le hbatch hinstances) hmultiplier

/-! ### Limits -/

namespace Limits

variable {limits : Limits} {quantity : String}

/-- Both limits are signed 64-bit integers. -/
def Fits (limits : Limits) : Prop :=
  (∀ value ∈ limits.lower, value ≤ maxSigned) ∧ ∀ value ∈ limits.upper, value ≤ maxSigned

/-- Limits that were checked do not cross. -/
lemma le_of_check (h : limits.check quantity = .ok ()) {lower upper : ℤ}
    (hlower : limits.lower = some lower) (hupper : limits.upper = some upper) : lower ≤ upper := by
  rw [check] at h
  obtain ⟨_, -, h⟩ := bind_eq_ok.mp h
  obtain ⟨_, -, horder⟩ := bind_eq_ok.mp h
  rw [hlower, hupper, checkOrder] at horder
  split_ifs at horder with hcrossed
  exact not_lt.mp hcrossed

/-- A value that was clamped stays what it is when it is clamped again. -/
lemma clamp_clamp (h : limits.check quantity = .ok ()) (value : ℤ) :
    limits.clamp (limits.clamp value) = limits.clamp value := by
  have horder : ∀ lower upper, limits.lower = some lower → limits.upper = some upper →
      lower ≤ upper := fun _ _ => le_of_check h
  rcases limits with ⟨_ | lower, _ | upper⟩
  · rfl
  · simp [clamp]
  · simp [clamp]
  · have hle := horder lower upper rfl rfl
    simp only [clamp]
    omega

/-- Limits that were checked keep counts counts. -/
lemma isCount_clamp (h : limits.check quantity = .ok ()) (hfits : limits.Fits) {value : ℤ}
    (hvalue : IsCount value) : IsCount (limits.clamp value) := by
  refine ⟨one_le_clamp h hvalue.1, ?_⟩
  have hle := hvalue.2
  obtain ⟨hlower, -⟩ := hfits
  rcases limits with ⟨_ | lower, _ | upper⟩
  · exact hle
  · exact (min_le_left _ _).trans hle
  · exact max_le hle (hlower lower rfl)
  · exact max_le ((min_le_left _ _).trans hle) (hlower lower rfl)

end Limits

/-- All limits are signed 64-bit integers. -/
structure Bounds.Fits (bounds : Bounds) : Prop where
  batchSize : bounds.batchSize.Fits
  instanceCount : bounds.instanceCount.Fits
  concurrency : bounds.concurrency.Fits

/-- Bounds without limits fit the signed range. -/
lemma Bounds.fits_empty : ({} : Bounds).Fits := by
  refine ⟨⟨?_, ?_⟩, ⟨?_, ?_⟩, ⟨?_, ?_⟩⟩ <;> decide

/-! ### What a baseline offers -/

/-- The value of a slot is a count. -/
lemma Dimension.isCount_valueAt (dimension : Dimension) (slot : UInt32) :
    IsCount (dimension.valueAt slot) := by
  refine ⟨dimension.one_le_valueAt slot, (dimension.valueAt_le slot).trans ?_⟩
  decide

/-- The values of units are counts. -/
def CountValues (own : UnitValues) : Prop :=
  ∀ name value, Fields.get? own name = some value → IsCount value

/-- Counts are positive. -/
lemma CountValues.positive {own : UnitValues} (h : CountValues own) : PositiveValues own :=
  fun name value hvalue => (h name value hvalue).1

/-- The values of all units at a coordinate are counts. -/
lemma countValues_of_valuesAt {set : DimensionSet} {c : Coordinate} {values : List UnitValues}
    (h : set.valuesAt c = .ok values) : ∀ own ∈ values, CountValues own := by
  intro own hown name value hvalue
  obtain ⟨dimension, slot, rfl⟩ := exists_valueAt_of_valuesAt h hown hvalue
  exact dimension.isCount_valueAt slot

namespace ServedUnit

variable {unit : ServedUnit} {s : UnitSettings}

/-- The batch size that a baseline offers is a count. -/
lemma isCount_baseBatchSize (unit : ServedUnit) : IsCount unit.baseBatchSize := by
  refine ⟨le_max_right _ _, max_le ?_ (by decide)⟩
  rw [ModelConfig.maxBatchSize]
  cases hsize : (unit.baseline.field? ConfigField.maxBatchSize).bind Json.signed? with
  | none => decide
  | some size =>
    obtain ⟨field, -, hread⟩ := Option.bind_eq_some_iff.mp hsize
    exact Json.signed?_le hread

/-- The instances of every baseline are at least one. -/
lemma one_le_instanceCount (config : ModelConfig) : 1 ≤ config.instanceCount := by
  rw [ModelConfig.instanceCount]
  split
  · dsimp only
    split_ifs with hpos
    · exact hpos
    · exact le_rfl
  · exact le_rfl

/-- A new name changes no other field. -/
lemma field?_withName {config : ModelConfig} (h : config.IsObject) (name : String) {key : String}
    (hkey : key ≠ ConfigField.name) : (config.withName name).field? key = config.field? key := by
  rw [ModelConfig.withName, ModelConfig.field?_withField h, if_neg hkey]

/-- A variant reads back the batch size that was decided, under any name. -/
lemma maxBatchSize_tuned (h : unit.baseline.IsObject) (hbatch : IsCount s.batchSize)
    (name : String) : ((unit.tuned s).withName name).maxBatchSize = s.batchSize := by
  rw [ModelConfig.maxBatchSize, field?_withName (isObject_tuned h hbatch.1) name (by decide),
    field?_maxBatchSize_tuned h hbatch.1, Option.bind_some, hbatch.signed?]
  rfl

/-- A variant reads back the number of instances that was decided, under any name. -/
lemma instanceCount_tuned (h : unit.baseline.IsObject) (hbatch : IsCount s.batchSize)
    (hinstances : IsCount s.instanceCount) (name : String) :
    ((unit.tuned s).withName name).instanceCount = s.instanceCount := by
  have hgroups : unit.instanceGroup s.instanceCount = .arr [Json.object
      [(ConfigField.count, .int s.instanceCount),
        (ConfigField.kind, .str (if unit.cpuOnly then "KIND_CPU" else "KIND_GPU"))]] := rfl
  have hcount : ∀ kind : Json, ModelConfig.groupCount (Json.object
      [(ConfigField.count, .int s.instanceCount), (ConfigField.kind, kind)]) =
        s.instanceCount := by
    intro kind
    have hfield : (Json.object [(ConfigField.count, .int s.instanceCount),
        (ConfigField.kind, kind)]).field? ConfigField.count = some (.int s.instanceCount) := by
      simp [Json.object, Fields.ofList, Fields.update, Json.field?, Json.fields?, Fields.get?_set,
        ConfigField.count, ConfigField.kind]
    rw [ModelConfig.groupCount, hfield, Option.bind_some, hinstances.signed?]
    rfl
  rw [ModelConfig.instanceCount, field?_withName (isObject_tuned h hbatch.1) name (by decide),
    field?_instanceGroup_tuned h hbatch.1, hgroups]
  simp only [List.map_cons, List.map_nil, List.foldr_cons, List.foldr_nil, hcount, add_zero]
  exact if_pos hinstances.1

/-- The flags of a benchmark read back the concurrency. -/
lemma concurrency_benchmarkFlags (unit : ServedUnit) (variant : String) {concurrency : ℤ}
    (h : IsCount concurrency) :
    (unit.benchmarkFlags variant concurrency).concurrency = concurrency := by
  rw [BenchmarkFlags.concurrency, BenchmarkFlags.get?, benchmarkFlags, BenchmarkFlags.set,
    Fields.get?_set, if_pos rfl, Option.bind_some, h.signed?]
  rfl

end ServedUnit

/-! ### Parts of runs -/

/-- The variants of a run's units: the stages of an ensemble, or the model's own variant. -/
def ModelRun.unitConfigs (run : ModelRun) : List ModelConfig :=
  if run.isComposite then run.stages else [run.config]

/-- Lists that are related element by element have related elements at every place. -/
lemma exists_getElem?_of_forall₂ {α β : Type} {R : α → β → Prop} {xs : List α} {ys : List β}
    (h : List.Forall₂ R xs ys) {i : ℕ} {x : α} (hx : xs[i]? = some x) :
    ∃ y, ys[i]? = some y ∧ R x y := by
  obtain ⟨hi, rfl⟩ := List.getElem?_eq_some_iff.mp hx
  have hi' : i < ys.length := h.length_eq ▸ hi
  exact ⟨ys[i], List.getElem?_eq_getElem hi', h.get hi hi'⟩

/-! ### One unit -/

namespace Generator

variable {g : Generator} {names : VariantNames} {model : ServedModel} {run : ModelRun}
  {values : List UnitValues}

/-- What the values of a unit come to, and what the variant that is built for it reads back. -/
structure Resolved (g : Generator) (unit : ServedUnit) (own : UnitValues) (settings : UnitSettings)
    (variant : ModelConfig) : Prop where
  batchSize : settings.batchSize = g.bounds.batchSize.clamp
    ((Fields.get? own Dimension.batchSize).getD (max unit.baseline.maxBatchSize 1))
  instanceCount : settings.instanceCount = g.bounds.instanceCount.clamp
    ((Fields.get? own Dimension.instanceCount).getD unit.baseline.instanceCount)
  asked : g.space.mode = .coordinate → ∀ asked, Fields.get? own Dimension.concurrency = some asked →
    settings.concurrency = g.bounds.concurrency.clamp asked
  computed : g.space.mode = .formula ∨ Fields.get? own Dimension.concurrency = none →
    settings.concurrency = g.bounds.concurrency.clamp
      (min (settings.batchSize * settings.instanceCount * g.bounds.multiplier) maxSigned)
  reads_batchSize : variant.maxBatchSize = settings.batchSize
  reads_instanceCount : variant.instanceCount = settings.instanceCount
  isCount_batchSize : IsCount settings.batchSize
  isCount_instanceCount : IsCount settings.instanceCount
  isCount_concurrency : IsCount settings.concurrency

/-- Bounds that were checked and fit the signed range. -/
structure ValidBounds (g : Generator) : Prop where
  checked : g.bounds.check = .ok ()
  fits : g.bounds.Fits

/-- The batch size of a unit is a count. -/
lemma isCount_batchSize (hbounds : g.ValidBounds) (unit : ServedUnit) {own : UnitValues}
    (hown : CountValues own) : IsCount (g.settings unit own).batchSize := by
  refine Limits.isCount_clamp (Bounds.check_eq_ok hbounds.checked).1 hbounds.fits.batchSize ?_
  cases hget : Fields.get? own Dimension.batchSize with
  | none => exact unit.isCount_baseBatchSize
  | some value => exact hown _ _ hget

/-- A unit's number of instances is positive. -/
lemma one_le_instanceCount (hbounds : g.bounds.check = .ok ()) (unit : ServedUnit)
    {own : UnitValues} (hown : PositiveValues own) : 1 ≤ (g.settings unit own).instanceCount := by
  have hvalue : 1 ≤ (Fields.get? own Dimension.instanceCount).getD unit.baseline.instanceCount := by
    cases hget : Fields.get? own Dimension.instanceCount with
    | none => exact ServedUnit.one_le_instanceCount unit.baseline
    | some value => exact hown _ _ hget
  exact Limits.one_le_clamp (Bounds.check_eq_ok hbounds).2.1 hvalue

/-- The number of instances of a unit is a count. -/
lemma isCount_instanceCount (hbounds : g.ValidBounds) {unit : ServedUnit} {own : UnitValues}
    (hown : CountValues own) (hunit : unit.baseline.instanceCount ≤ maxSigned) :
    IsCount (g.settings unit own).instanceCount := by
  refine Limits.isCount_clamp (Bounds.check_eq_ok hbounds.checked).2.1 hbounds.fits.instanceCount ?_
  cases hget : Fields.get? own Dimension.instanceCount with
  | none => exact ⟨ServedUnit.one_le_instanceCount unit.baseline, hunit⟩
  | some value => exact hown _ _ hget

/-- A unit's concurrency comes from its dimension only in the mode for that. -/
lemma concurrency_settings (g : Generator) (unit : ServedUnit) (own : UnitValues) :
    (g.settings unit own).concurrency = g.bounds.concurrency.clamp
      (match g.space.mode, Fields.get? own Dimension.concurrency with
      | .coordinate, some asked => asked
      | _, _ => g.bounds.formulaConcurrency (g.settings unit own).batchSize
          (g.settings unit own).instanceCount) := by
  apply congrArg g.bounds.concurrency.clamp
  show (g.concurrencyWith plainProduct own _ _).run = _
  unfold concurrencyWith
  cases g.space.mode with
  | formula => rfl
  | coordinate => cases Fields.get? own Dimension.concurrency <;> rfl

/-- The concurrency of a unit by the formula is a count, and the exact product cut off once. -/
lemma formulaConcurrency_settings (hbounds : g.ValidBounds) {unit : ServedUnit} {own : UnitValues}
    (hown : CountValues own) (hunit : unit.baseline.instanceCount ≤ maxSigned) :
    let formula := g.bounds.formulaConcurrency (g.settings unit own).batchSize
      (g.settings unit own).instanceCount
    IsCount formula ∧ formula = min ((g.settings unit own).batchSize *
      (g.settings unit own).instanceCount * g.bounds.multiplier) maxSigned := by
  intro formula
  obtain ⟨-, -, -, hmultiplier⟩ := Bounds.check_eq_ok hbounds.checked
  have hbatch := isCount_batchSize hbounds unit hown
  have hinstances := isCount_instanceCount hbounds hown hunit
  exact ⟨g.bounds.isCount_formulaConcurrency hbatch.1 hinstances.1 hmultiplier,
    g.bounds.formulaConcurrency_eq hbatch.1 hinstances.1 hmultiplier⟩

/-- The concurrency of a unit is a count, and clamping it again changes nothing. -/
lemma isCount_concurrency (hbounds : g.ValidBounds) {unit : ServedUnit} {own : UnitValues}
    (hown : CountValues own) (hunit : unit.baseline.instanceCount ≤ maxSigned) :
    IsCount (g.settings unit own).concurrency ∧
      g.bounds.concurrency.clamp (g.settings unit own).concurrency =
        (g.settings unit own).concurrency := by
  obtain ⟨-, -, hconcurrency, -⟩ := Bounds.check_eq_ok hbounds.checked
  obtain ⟨hformula, -⟩ := formulaConcurrency_settings hbounds hown hunit
  refine ⟨?_, Limits.clamp_clamp hconcurrency _⟩
  rw [concurrency_settings]
  refine Limits.isCount_clamp hconcurrency hbounds.fits.concurrency ?_
  cases g.space.mode with
  | formula => exact hformula
  | coordinate =>
    cases hasked : Fields.get? own Dimension.concurrency with
    | none => exact hformula
    | some asked => exact hown _ _ hasked

/-- A variant of a unit resolves the unit's values. -/
lemma IsVariant.resolved (hbounds : g.ValidBounds) {unit : ServedUnit} {own : UnitValues}
    {variant : ModelConfig} (hobject : unit.baseline.IsObject) (hown : CountValues own)
    (hunit : unit.baseline.instanceCount ≤ maxSigned)
    (h : IsVariant names false unit.name (unit.tuned (g.settings unit own)) variant) :
    g.Resolved unit own (g.settings unit own) variant := by
  obtain ⟨name, -, rfl⟩ := h
  have hbatch := isCount_batchSize hbounds unit hown
  have hinstances := isCount_instanceCount hbounds hown hunit
  have hsettings := g.concurrency_settings unit own
  obtain ⟨-, hformula⟩ := formulaConcurrency_settings hbounds hown hunit
  exact
    { batchSize := rfl
      instanceCount := rfl
      asked := by
        intro hmode asked hasked
        rw [hsettings, hmode, hasked]
      computed := by
        intro hcomputed
        rw [hsettings, ← hformula]
        rcases hcomputed with hmode | hnone
        · rw [hmode]
        · rw [hnone]
          cases g.space.mode <;> rfl
      reads_batchSize := ServedUnit.maxBatchSize_tuned hobject hbatch name
      reads_instanceCount := ServedUnit.instanceCount_tuned hobject hbatch hinstances name
      isCount_batchSize := hbatch
      isCount_instanceCount := hinstances
      isCount_concurrency := (isCount_concurrency hbounds hown hunit).1 }

/-! ### One model -/

/-- How the concurrency of a model follows from the settings of its units.  A plain model takes that
of its only unit.  An ensemble takes the upper limit as it is, or else the lower one, and without
limits the least of its stages. -/
def IsConcurrencyOf (g : Generator) (model : ServedModel) (settings : List UnitSettings) (n : ℤ) :
    Prop :=
  if model.isComposite then
    match g.bounds.concurrency.upper, g.bounds.concurrency.lower with
    | some upper, _ => n = upper
    | none, some lower => n = lower
    | none, none => (settings.map (·.concurrency)).min? = some n
  else settings.map (·.concurrency) = [n]

/-- A plain model takes the concurrency that its only unit asks for, within the bounds. -/
lemma concurrencyOf_plain (h : model.isComposite = false) (n : ℤ) :
    g.concurrencyOf model [n] = g.bounds.concurrency.clamp n := if_neg (by simp [h])

/-- An ensemble takes a concurrency that the bounds force on it. -/
lemma concurrencyOf_forced (h : model.isComposite = true) {n : ℤ}
    (hforced : g.bounds.forcedConcurrency = some n) (asked : List ℤ) :
    g.concurrencyOf model asked = n := by
  rw [concurrencyOf, if_pos h, hforced, Option.getD_some]

/-- Without limits an ensemble takes the least concurrency that its stages ask for. -/
lemma min?_eq_concurrencyOf (h : model.isComposite = true) (hlimits : g.bounds.concurrency = {})
    {asked : List ℤ} (hasked : asked ≠ []) : asked.min? = some (g.concurrencyOf model asked) := by
  obtain ⟨n, rest, rfl⟩ := List.exists_cons_of_ne_nil hasked
  rw [concurrencyOf, if_pos h, Bounds.forcedConcurrency, hlimits]
  rfl

/-- The concurrency of a model follows from the settings of its units. -/
lemma isConcurrencyOf {settings : List UnitSettings}
    (hsettings : settings.length = model.unitCount)
    (hclamped : ∀ own ∈ settings, g.bounds.concurrency.clamp own.concurrency = own.concurrency) :
    g.IsConcurrencyOf model settings (g.concurrencyOf model (settings.map (·.concurrency))) := by
  rw [IsConcurrencyOf]
  cases hcomposite : model.isComposite with
  | true =>
    have hnonempty : settings.map (·.concurrency) ≠ [] := by
      rw [← List.length_pos_iff, List.length_map, hsettings]
      exact model.unitCount_pos
    rw [if_pos rfl]
    rcases hlimits : g.bounds.concurrency with ⟨_ | lower, _ | upper⟩
    · exact min?_eq_concurrencyOf hcomposite hlimits hnonempty
    all_goals exact concurrencyOf_forced hcomposite (by rw [Bounds.forcedConcurrency, hlimits]; rfl) _
  | false =>
    rw [ServedModel.unitCount, ServedModel.units_of_plain hcomposite] at hsettings
    obtain ⟨own, rfl⟩ := List.length_eq_one_iff.mp hsettings
    rw [if_neg (by simp)]
    show [own.concurrency] = [g.concurrencyOf model [own.concurrency]]
    rw [concurrencyOf_plain hcomposite, hclamped own (by simp)]

/-- The concurrency of a model is a count if those of its units are. -/
lemma isCount_concurrencyOf (hbounds : g.ValidBounds) (model : ServedModel) {asked : List ℤ}
    (hasked : ∀ n ∈ asked, IsCount n) : IsCount (g.concurrencyOf model asked) := by
  obtain ⟨-, -, hconcurrency, -⟩ := Bounds.check_eq_ok hbounds.checked
  have hclamped : IsCount (g.bounds.concurrency.clamp (asked.min?.getD 1)) := by
    refine Limits.isCount_clamp hconcurrency hbounds.fits.concurrency ?_
    cases hleast : asked.min? with
    | none => exact ⟨le_rfl, by decide⟩
    | some least => exact hasked least (List.min?_mem hleast)
  rw [concurrencyOf]
  split_ifs
  · cases hforced : g.bounds.forcedConcurrency with
    | none => exact hclamped
    | some forced =>
      obtain ⟨hlower, hupper⟩ := Limits.pos_of_check hconcurrency
      obtain ⟨hlower', hupper'⟩ := hbounds.fits.concurrency
      rw [Bounds.forcedConcurrency, Option.orElse_eq_some] at hforced
      rcases hforced with hforced | ⟨-, hforced⟩
      · exact ⟨hupper forced hforced, hupper' forced hforced⟩
      · exact ⟨hlower forced hforced, hlower' forced hforced⟩
  · exact hclamped

/-- A run with a variant for each unit is one of an ensemble if its model is. -/
lemma isComposite_runOf {drafts : List Draft} {variants : List ModelConfig}
    (hlength : variants.length = model.unitCount) (config : ModelConfig) :
    (g.runOf model drafts variants config).isComposite = model.isComposite := by
  rw [ModelRun.isComposite]
  cases hcomposite : model.isComposite with
  | true =>
    have hstages : (g.runOf model drafts variants config).stages = variants := if_pos hcomposite
    have hpos : 0 < variants.length := hlength ▸ model.unitCount_pos
    rw [hstages, Bool.not_eq_true', List.isEmpty_eq_false_iff]
    exact List.ne_nil_of_length_pos hpos
  | false =>
    have hstages : (g.runOf model drafts variants config).stages = [] :=
      if_neg (by simp [hcomposite])
    rw [hstages]
    rfl

/-- A run is one of an ensemble if its model is, and the variants of its units are those of the
drafts. -/
lemma IsRun.unitConfigs {isDefault : Bool} {drafts : List Draft}
    (h : IsRun g names isDefault model drafts run) (hdrafts : drafts.length = model.unitCount) :
    run.isComposite = model.isComposite ∧ AreVariants names isDefault drafts run.unitConfigs := by
  obtain ⟨variants, config, hvariants, hconfig, rfl⟩ := h
  have hlength : variants.length = model.unitCount := hvariants.length_eq.symm.trans hdrafts
  have hkind : (g.runOf model drafts variants config).isComposite = model.isComposite :=
    isComposite_runOf hlength config
  refine ⟨hkind, ?_⟩
  rw [ModelRun.unitConfigs, hkind]
  cases hcomposite : model.isComposite with
  | true =>
    have hstages : (g.runOf model drafts variants config).stages = variants := if_pos hcomposite
    rw [if_pos rfl, hstages]
    exact hvariants
  | false =>
    rw [if_neg (by simp [hcomposite])] at hconfig
    rw [ServedModel.unitCount, ServedModel.units_of_plain hcomposite] at hlength
    obtain ⟨variant, rfl⟩ := List.length_eq_one_iff.mp hlength
    rw [if_neg (by simp)]
    show AreVariants names isDefault drafts [config]
    rw [hconfig]
    exact hvariants

/-- What the values from `first` on come to for a model: every unit is resolved, and the concurrency
of the model follows from its units. -/
structure RunResolved (g : Generator) (model : ServedModel) (values : List UnitValues) (first : ℕ)
    (settings : List UnitSettings) (run : ModelRun) : Prop where
  isComposite : run.isComposite = model.isComposite
  length_settings : settings.length = model.unitCount
  length_unitConfigs : run.unitConfigs.length = model.unitCount
  units : ∀ i unit, model.units[i]? = some unit → ∃ own decided variant,
    values[first + i]? = some own ∧ settings[i]? = some decided ∧
      run.unitConfigs[i]? = some variant ∧ g.Resolved unit own decided variant
  concurrency : g.IsConcurrencyOf model settings run.flags.concurrency
  isCount_concurrency : IsCount run.flags.concurrency

/-- The settings of units ask for counts that are within the bounds. -/
lemma isCount_unitSettings (hbounds : g.ValidBounds) {units : List ServedUnit}
    (hcounts : ∀ unit ∈ units, unit.baseline.instanceCount ≤ maxSigned)
    (hvalues : ∀ own ∈ values, CountValues own) :
    ∀ decided ∈ g.unitSettings units values, IsCount decided.concurrency ∧
      g.bounds.concurrency.clamp decided.concurrency = decided.concurrency := by
  intro decided hdecided
  obtain ⟨i, hi⟩ := List.mem_iff_getElem?.mp hdecided
  obtain ⟨unit, own, hunit, hown, rfl⟩ := List.getElem?_zipWith_eq_some.mp hi
  exact isCount_concurrency hbounds (hvalues own (List.mem_of_getElem? hown))
    (hcounts unit (List.mem_of_getElem? hunit))

/-- The flags of a run hold the concurrency that was decided, and it is read back as it is. -/
lemma IsRun.concurrency_eq (hbounds : g.ValidBounds) (hmodel : model.WellFormed)
    (hcounts : ∀ unit ∈ model.units, unit.baseline.instanceCount ≤ maxSigned)
    (hvalues : ∀ own ∈ values, CountValues own) (hlength : model.unitCount ≤ values.length)
    (h : IsRun g names false model (g.draftsOf model values) run) :
    run.flags.concurrency = (g.decision model values).concurrency ∧
      IsCount (g.decision model values).concurrency := by
  have hcount : IsCount (g.decision model values).concurrency := by
    refine isCount_concurrencyOf hbounds model fun n hn => ?_
    obtain ⟨decided, hmem, rfl⟩ := List.mem_map.mp hn
    exact (isCount_unitSettings hbounds hcounts hvalues decided hmem).1
  obtain ⟨-, -, hflags⟩ := h.flags_eq_of_values hbounds.checked hmodel
    (fun own hown => (hvalues own hown).positive) hlength
  exact ⟨hflags ▸ model.concurrency_benchmarkFlags run.variant hcount, hcount⟩

/-- The run of a model at the values from `first` on resolves them. -/
lemma IsRun.resolved (hbounds : g.ValidBounds) (hmodel : model.WellFormed)
    (hcounts : ∀ unit ∈ model.units, unit.baseline.instanceCount ≤ maxSigned)
    (hvalues : ∀ own ∈ values, CountValues own) {first : ℕ}
    (hlength : first + model.unitCount ≤ values.length)
    (h : IsRun g names false model (g.draftsOf model (values.drop first)) run) :
    g.RunResolved model values first (g.unitSettings model.units (values.drop first)) run := by
  have hdropped : model.unitCount ≤ (values.drop first).length := by
    rw [List.length_drop]
    omega
  have hvalues' : ∀ own ∈ values.drop first, CountValues own :=
    fun own hown => hvalues own (List.mem_of_mem_drop hown)
  have hdrafts := length_draftsOf (g := g) hdropped
  have hsettings : (g.unitSettings model.units (values.drop first)).length = model.unitCount := by
    rw [unitSettings, List.length_zipWith]
    exact min_eq_left hdropped
  have hdecided := isCount_unitSettings hbounds hcounts hvalues'
  obtain ⟨hkind, hvariants⟩ := h.unitConfigs hdrafts
  obtain ⟨hconcurrency, hcount⟩ := h.concurrency_eq hbounds hmodel hcounts hvalues' hdropped
  refine ⟨hkind, hsettings, hvariants.length_eq.symm.trans hdrafts, ?_, ?_, ?_⟩
  · intro i unit hunit
    obtain ⟨hi, -⟩ := List.getElem?_eq_some_iff.mp hunit
    obtain ⟨own, hown⟩ : ∃ own, (values.drop first)[i]? = some own :=
      ⟨_, List.getElem?_eq_getElem (hi.trans_le hdropped)⟩
    have hdraft : (g.draftsOf model (values.drop first))[i]? = some (g.draft unit own) :=
      List.getElem?_zipWith_eq_some.mpr ⟨unit, own, hunit, hown, rfl⟩
    have hsetting : (g.unitSettings model.units (values.drop first))[i]? =
        some (g.settings unit own) :=
      List.getElem?_zipWith_eq_some.mpr ⟨unit, own, hunit, hown, rfl⟩
    obtain ⟨variant, hvariant, hbuilt⟩ := exists_getElem?_of_forall₂ hvariants hdraft
    have hmem : unit ∈ model.units := List.mem_of_getElem? hunit
    refine ⟨own, _, variant, by rwa [← List.getElem?_drop], hsetting, hvariant, ?_⟩
    exact hbuilt.resolved hbounds (isObject_of_mem_units hmodel unit hmem)
      (hvalues' own (List.mem_of_getElem? hown)) (hcounts unit hmem)
  · rw [hconcurrency]
    exact isConcurrencyOf hsettings fun decided hmem => (hdecided decided hmem).2
  · rw [hconcurrency]
    exact hcount

/-- The drafts of models end with those of the last ones, at the values that are left for them. -/
lemma RunsAt.isRun {before rest : List ServedModel} {runs : List ModelRun}
    (h : RunsAt g names (before ++ model :: rest) values runs) :
    ∃ run, runs[before.length]? = some run ∧
      IsRun g names false model (g.draftsOf model (values.drop (countUnits before))) run := by
  refine exists_getElem?_of_forall₂ h (x := (model, _)) ?_
  rw [drafts_append, List.getElem?_append_right (length_drafts g before values).le, length_drafts,
    Nat.sub_self, drafts_cons]
  rfl

end Generator

/-! ### All models -/

namespace Session

open Generator

/-- Take any calls on a new generator over models that were built, with instances that fit the
signed range, and a coordinate of the right size.  While every entity has fewer than `2 ^ 64` names
there is a configuration at the coordinate, and it has a run for every model.  The units of a model
are resolved from the values that follow those of the units of the models before it. -/
theorem call_configAt_resolved {space : SearchSpace} {bounds : Bounds} {models : List ServedModel}
    {registry : VariantNames} {g : Generator}
    (hg : Generator.create space bounds models (some registry) = .ok g)
    (hmodels : ∀ model ∈ models, model.IsBuilt) (hfits : bounds.Fits)
    (hcounts : ∀ model ∈ models, ∀ unit ∈ model.units, unit.baseline.instanceCount ≤ maxSigned)
    (calls : List SessionCall) {c : Coordinate} (hc : c.size = space.dimensions.slots.length)
    (hroom : (((Session.mk g registry).run calls).call (.configAt c)).2.names.HasRoom) :
    ∃ config values,
      (((Session.mk g registry).run calls).call (.configAt c)).1 = .ok (.config config) ∧
      space.dimensions.valuesAt c = .ok values ∧ values.length = countUnits models ∧
      config.models.length = models.length ∧
      ∀ before model rest, models = before ++ model :: rest → ∃ run settings,
        config.models[before.length]? = some run ∧
          g.RunResolved model values (countUnits before) settings run := by
  obtain ⟨rfl, -, hchecked, hunits⟩ := create_eq_ok hg
  have hover : ((Session.mk _ registry).run calls).IsOver
      { space, bounds, models, cursor := space.dimensions.start } :=
    (isOver_start _ registry).run calls
  have hvalues : space.dimensions.valuesAt c = .ok _ := if_pos hc
  have hlength := (length_of_valuesAt hvalues).trans hunits
  obtain ⟨config, hok, hruns⟩ :=
    call_configAt_ok hover hvalues (VariantNames.Assigned.refl false _) hroom
  refine ⟨config, _, hok, hvalues, hlength, ?_, ?_⟩
  · rw [← hruns.length_eq, length_drafts]
  · rintro before model rest rfl
    have hmem : model ∈ before ++ model :: rest := by simp
    obtain ⟨run, hrun, hisRun⟩ := hruns.isRun
    refine ⟨run, _, hrun, hisRun.resolved ⟨hchecked, hfits⟩ (hmodels model hmem).wellFormed
      (hcounts model hmem) (countValues_of_valuesAt hvalues) ?_⟩
    rw [countUnits_append] at hlength
    omega

/-- A plain model of the same name as the stages of `pipeline`. -/
def plain : ServedModel := ⟨stage, []⟩

/-- Batch sizes for a plain model and both stages of an ensemble, and a concurrency for the first
stage. -/
def mixedDimensions : DimensionSet where
  slots := [⟨0, ⟨Dimension.batchSize, .exponential, 0⟩⟩, ⟨1, ⟨Dimension.batchSize, .exponential, 0⟩⟩,
    ⟨1, ⟨Dimension.concurrency, .linear, 0⟩⟩, ⟨2, ⟨Dimension.batchSize, .exponential, 0⟩⟩]
  units := 3

/-- The values of the ensemble's stages start after that of the plain model before it: the first
stage asks for its own concurrency, the second one for the formula, and the ensemble gets the
lesser of both. -/
theorem call_configAt_resolved_mixed :
    let space : SearchSpace := { dimensions := mixedDimensions, mode := .coordinate }
    let bounds : Bounds := { batchSize := ⟨none, some 16⟩ }
    ∃ g, Generator.create space bounds [plain, pipeline] (some .empty) = .ok g ∧
      ∃ config values run settings,
        ((Session.mk g .empty).call (.configAt ⟨[0, 3, 6, 1]⟩)).1 = .ok (.config config) ∧
          config.models[1]? = some run ∧ g.RunResolved pipeline values 1 settings run ∧
          (settings.map (·.concurrency)).min? = some run.flags.concurrency := by
  intro space bounds
  have hg : Generator.create space bounds [plain, pipeline] (some .empty) = .ok
      { space, bounds, models := [plain, pipeline], cursor := mixedDimensions.start } := rfl
  refine ⟨_, hg, ?_⟩
  have hbuilt : ∀ model ∈ [plain, pipeline], model.IsBuilt := by
    have hplain : ServedModel.ofBaseline "bert" stage.baseline.content Json.empty false =
        .ok plain := rfl
    simpa using ⟨.ofBaseline hplain, isBuilt_pipeline⟩
  have hfits : bounds.Fits := by
    refine ⟨⟨?_, ?_⟩, ⟨?_, ?_⟩, ⟨?_, ?_⟩⟩ <;> decide
  have hcounts : ∀ model ∈ [plain, pipeline], ∀ unit ∈ model.units,
      unit.baseline.instanceCount ≤ maxSigned := by decide +kernel
  obtain ⟨config, values, hok, -, -, -, hruns⟩ :=
    @call_configAt_resolved _ _ _ _ _ hg hbuilt hfits hcounts [] ⟨[0, 3, 6, 1]⟩ rfl
      (VariantNames.hasRoom_of_entities (by decide +kernel))
  obtain ⟨run, settings, hrun, hresolved⟩ := hruns [plain] pipeline [] rfl
  exact ⟨config, values, run, settings, hok, hrun, hresolved, hresolved.concurrency⟩

end Session

end ServingTuner
