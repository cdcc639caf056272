import Mathlib
import ServingTuner.Bounds
import ServingTuner.Proofs.Config.Schedule

/-!
# Models that can be built

What a lookup has to answer is said baseline by baseline (`Baseline.IsValid`), and so is what a model
keeps of the answers (`ServedUnit.IsOf`), both without regard to the checks.  A model can be built
exactly if its own baseline is valid and, where that is the baseline of an ensemble, the schedule names
stages and all of them have valid baselines that are no ensembles.  It has one stage for each of them
then, in order (`ServedModel.create_grammar`).

Each step of building is inverted by a lemma of its own, and these say of a model that was built in
either way that its baselines are objects and that its schedule names its stages
(`ServedModel.WellFormed`).
-/

namespace ServingTuner

/-! ### Baselines -/

namespace Baseline

variable {baseline : Json} {name : String}

/-- A baseline that a model can be served from: an object with inputs and with a greatest batch size
that is an integer, not negative and within the signed range. -/
structure IsValid (baseline : Json) : Prop where
  isObject : baseline.isObject = true
  input : ∃ input, baseline.field? ConfigField.input = some input
  batchSize : ∃ n : ℤ, baseline.field? ConfigField.maxBatchSize = some (.int n) ∧ 0 ≤ n ∧
    n ≤ maxSigned

/-- The baseline of an ensemble, by its platform or by a schedule of any kind. -/
def IsEnsemble (baseline : Json) : Prop :=
  baseline.field? ConfigField.platform = some (.str "ensemble") ∨
    ∃ schedule, baseline.field? ConfigField.ensembleScheduling = some schedule

/-- The integer that a baseline has for its greatest batch size, if it has one there, is a signed or
an unsigned 64-bit word.  No others can be written. -/
def HasWord (baseline : Json) : Prop :=
  ∀ n : ℤ, baseline.field? ConfigField.maxBatchSize = some (.int n) → -(2 ^ 63) ≤ n ∧ n < 2 ^ 64

/-- A baseline has a name of its own if that is a text and not empty. -/
def HasName (baseline : Json) : Prop :=
  ∃ own, own ≠ "" ∧ baseline.field? ConfigField.name = some (.str own)

/-- What is stored of a baseline for a model: the baseline itself if it has a name, and otherwise the
baseline with the name of the model put into it. -/
structure IsStored (name : String) (baseline : Json) (config : ModelConfig) : Prop where
  named : HasName baseline → config.content = baseline
  unnamed : ¬ HasName baseline →
    baseline.setField? ConfigField.name (.str name) = some config.content

/-- A word is read as a number that is not negative exactly if it is one within the signed range. -/
lemma any_signed?_iff {n : ℤ} (h : -(2 ^ 63) ≤ n ∧ n < 2 ^ 64) :
    (Json.int n).signed?.any (0 ≤ ·) = true ↔ 0 ≤ n ∧ n ≤ maxSigned := by
  obtain ⟨hlow, hhigh⟩ := h
  rw [Json.signed?, Json.int?, Option.map_some, Option.any_some, decide_eq_true_iff, Int.bmod_def,
    maxSigned]
  simp only [UInt64.size]
  split_ifs <;> omega

/-- The check of a baseline accepts the valid ones. -/
lemma checkBaseline_eq_ok_iff (hword : HasWord baseline) :
    ServedUnit.checkBaseline name baseline = .ok () ↔ IsValid baseline := by
  rw [ServedUnit.checkBaseline]
  split_ifs with hobject hinput
  · refine iff_of_false (by simp) fun hvalid => ?_
    rw [hvalid.isObject] at hobject
    cases hobject
  · refine iff_of_false (by simp) fun hvalid => ?_
    obtain ⟨input, hfield⟩ := hvalid.input
    rw [Json.hasField, hfield] at hinput
    cases hinput
  · have hobject' : baseline.isObject = true := by simpa using hobject
    have hinput' : ∃ input, baseline.field? ConfigField.input = some input := by
      rwa [Json.hasField, Bool.not_eq_true', Bool.not_eq_false, Option.isSome_iff_exists] at hinput
    have hvalid : IsValid baseline ↔ ∃ n : ℤ,
        baseline.field? ConfigField.maxBatchSize = some (.int n) ∧ 0 ≤ n ∧ n ≤ maxSigned :=
      ⟨IsValid.batchSize, fun hbatch => ⟨hobject', hinput', hbatch⟩⟩
    rw [hvalid]
    rcases hsize : baseline.field? ConfigField.maxBatchSize with _ | size
    · simp
    · cases size with
      | int n =>
        have hread := any_signed?_iff (hword n hsize)
        simp only [hread]
        split_ifs with hrange
        · simpa using hrange
        · simpa using hrange
      | _ => simp [Json.signed?, Json.int?]

/-- The test for ensembles finds the ensembles. -/
lemma isEnsemble_iff : (ModelConfig.mk baseline).isEnsemble = true ↔ IsEnsemble baseline := by
  have hplatform : ∀ value : Option Json, value.bind Json.string? = some "ensemble" ↔
      value = some (.str "ensemble") := by
    rintro (_ | value)
    · simp
    · cases value <;> simp [Json.string?]
  rw [ModelConfig.isEnsemble, Bool.or_eq_true, beq_iff_eq, hplatform, ModelConfig.hasField,
    Json.hasField, Option.isSome_iff_exists]
  rfl

/-- A configuration has the name that its field for it holds, if that is a text. -/
lemma isEmpty_name_iff : (ModelConfig.mk baseline).name.isEmpty = true ↔ ¬ HasName baseline := by
  rw [ModelConfig.name, ModelConfig.field?, HasName]
  rcases baseline.field? ConfigField.name with _ | value
  · simp
  · cases value <;> simp [Json.string?]

/-- An object is stored as it is or under the name of the model. -/
lemma isStored_nameBaseline (hobject : baseline.isObject = true) :
    IsStored name baseline (ServedUnit.nameBaseline name baseline) := by
  have hconfig : (ModelConfig.mk baseline).IsObject := hobject
  obtain ⟨fields, hfields⟩ := hconfig.eq_obj
  obtain rfl : baseline = .obj fields := congrArg ModelConfig.content hfields
  rw [ServedUnit.nameBaseline]
  split_ifs with hname
  · exact ⟨fun hown => absurd hown (isEmpty_name_iff.mp hname), fun _ => rfl⟩
  · exact ⟨fun _ => rfl, fun hown => absurd (isEmpty_name_iff.mpr hown) hname⟩

/-- What is stored of an object is one. -/
lemma IsStored.isObject {config : ModelConfig} (h : IsStored name baseline config)
    (hobject : baseline.isObject = true) : config.IsObject := by
  by_cases hown : HasName baseline
  · rw [ModelConfig.IsObject, h.named hown]
    exact hobject
  · have hset := h.unnamed hown
    rw [ModelConfig.IsObject]
    cases baseline with
    | obj fields =>
      rw [← Option.some.inj hset]
      rfl
    | _ => cases hobject

/-- What is stored of a baseline differs from it in the name at most. -/
lemma IsStored.field? {config : ModelConfig} (h : IsStored name baseline config) {key : String}
    (hkey : key ≠ ConfigField.name) : config.field? key = baseline.field? key := by
  by_cases hown : HasName baseline
  · rw [ModelConfig.field?, h.named hown]
  · rw [ModelConfig.field?, Json.field?_setField? (h.unnamed hown), if_neg hkey]

/-- What is stored of a baseline names the same stages. -/
lemma IsStored.stepModels_eq {config : ModelConfig} (h : IsStored name baseline config) :
    config.stepModels = (ModelConfig.mk baseline).stepModels := by
  have hschedule : config.field? ConfigField.ensembleScheduling =
      (ModelConfig.mk baseline).field? ConfigField.ensembleScheduling := h.field? (by decide)
  rw [ModelConfig.stepModels, ModelConfig.stepModels, ModelConfig.scheduleEntries,
    ModelConfig.scheduleEntries, hschedule]

/-- What is stored of a baseline is an ensemble if the baseline is one. -/
lemma IsStored.isEnsemble_iff {config : ModelConfig} (h : IsStored name baseline config) :
    config.isEnsemble = true ↔ IsEnsemble baseline := by
  have hplatform : config.content.field? ConfigField.platform =
      baseline.field? ConfigField.platform := h.field? (by decide)
  have hschedule : config.content.field? ConfigField.ensembleScheduling =
      baseline.field? ConfigField.ensembleScheduling := h.field? (by decide)
  rw [show config = ⟨config.content⟩ from rfl, Baseline.isEnsemble_iff, IsEnsemble, IsEnsemble,
    hplatform, hschedule]

/-- Without a schedule no stages are named. -/
lemma stepModels_of_not_isEnsemble (h : ¬ IsEnsemble baseline) :
    (ModelConfig.mk baseline).stepModels = [] := by
  have hschedule : (ModelConfig.mk baseline).field? ConfigField.ensembleScheduling = none := by
    by_contra hsome
    exact h (Or.inr (Option.ne_none_iff_exists'.mp hsome))
  rw [ModelConfig.stepModels, ModelConfig.scheduleEntries, hschedule]
  rfl

end Baseline

/-! ### Units -/

namespace ServedUnit

open Baseline

variable {name : String} {baseline flags : Json} {cpuOnly : Bool} {unit : ServedUnit}

/-- Flags are an object, or null for none. -/
def AreFlags (flags : Json) : Prop := flags = .null ∨ flags.isObject = true

/-- A unit with the name, the baseline, the flags and the kind of device that were asked for. -/
structure IsOf (asked : String) (given flags : Json) (onCpu : Bool) (unit : ServedUnit) :
    Prop where
  name : unit.name = asked
  baseline : IsStored asked given unit.baseline
  flags : flags = .obj unit.flags ∨ flags = .null ∧ unit.flags = []
  cpuOnly : unit.cpuOnly = onCpu

/-- A baseline that was checked is an object. -/
lemma isObject_of_checkBaseline (h : checkBaseline name baseline = .ok ()) :
    baseline.isObject = true := by
  rw [checkBaseline] at h
  split_ifs at h with hobject
  rwa [Bool.not_eq_true', Bool.not_eq_false] at hobject

/-- Flags are read where they are an object or null. -/
lemma readFlags_eq_ok_iff {fields : Fields Json} :
    readFlags name flags = .ok fields ↔ flags = .obj fields ∨ flags = .null ∧ fields = [] := by
  cases flags <;> simp [readFlags, eq_comm]

/-- A unit that was put together is one of its parts. -/
lemma isOf_of_ofParts (h : ofParts name baseline flags cpuOnly = .ok unit) :
    unit.IsOf name baseline flags cpuOnly := by
  rw [ofParts] at h
  obtain ⟨_, hcheck, h⟩ := bind_eq_ok.mp h
  obtain ⟨fields, hflags, h⟩ := bind_eq_ok.mp h
  cases h
  exact ⟨rfl, isStored_nameBaseline (isObject_of_checkBaseline hcheck),
    readFlags_eq_ok_iff.mp hflags, rfl⟩

/-- The baseline of a unit that was put together is an object. -/
lemma isObject_of_ofParts (h : ofParts name baseline flags cpuOnly = .ok unit) :
    unit.baseline.IsObject := by
  refine (isOf_of_ofParts h).baseline.isObject ?_
  rw [ofParts] at h
  obtain ⟨_, hcheck, -⟩ := bind_eq_ok.mp h
  exact isObject_of_checkBaseline hcheck

/-- A unit can be put together from a valid baseline and flags. -/
lemma exists_ofParts_iff (hword : HasWord baseline) :
    (∃ unit, ofParts name baseline flags cpuOnly = .ok unit) ↔
      IsValid baseline ∧ AreFlags flags := by
  simp only [ofParts, bind_eq_ok, checkBaseline_eq_ok_iff hword, readFlags_eq_ok_iff]
  constructor
  · rintro ⟨unit, ⟨⟩, hvalid, fields, hflags, -⟩
    refine ⟨hvalid, ?_⟩
    rcases hflags with rfl | ⟨rfl, -⟩
    · exact Or.inr rfl
    · exact Or.inl rfl
  · rintro ⟨hvalid, rfl | hobject⟩
    · exact ⟨_, (), hvalid, [], Or.inr ⟨rfl, rfl⟩, rfl⟩
    · cases flags with
      | obj fields => exact ⟨_, (), hvalid, fields, Or.inl rfl, rfl⟩
      | _ => cases hobject

/-- A search unit is built where a unit can be put together that is no ensemble. -/
lemma ofBaseline_eq_ok_iff :
    ofBaseline name baseline flags cpuOnly = .ok unit ↔
      ofParts name baseline flags cpuOnly = .ok unit ∧ ¬ IsEnsemble baseline := by
  rw [ofBaseline, bind_eq_ok]
  constructor
  · rintro ⟨parts, hparts, h⟩
    split_ifs at h with hensemble
    cases h
    exact ⟨hparts, fun hbaseline =>
      hensemble ((isOf_of_ofParts hparts).baseline.isEnsemble_iff.mpr hbaseline)⟩
  · rintro ⟨hparts, hbaseline⟩
    refine ⟨unit, hparts, if_neg fun hensemble => ?_⟩
    exact hbaseline ((isOf_of_ofParts hparts).baseline.isEnsemble_iff.mp hensemble)

/-- A search unit can be built from a valid baseline that is no ensemble, and flags. -/
lemma exists_ofBaseline_iff (hword : HasWord baseline) :
    (∃ unit, ofBaseline name baseline flags cpuOnly = .ok unit) ↔
      IsValid baseline ∧ AreFlags flags ∧ ¬ IsEnsemble baseline := by
  simp only [ofBaseline_eq_ok_iff, exists_and_right, exists_ofParts_iff hword, and_assoc]

end ServedUnit

/-! ### Stages -/

namespace ServedModel

open Baseline ServedUnit

variable {name : String} {lookup : BaselineLookup} {baseline flags : Json} {cpuOnly : Bool}
  {model : ServedModel} {steps : List String} {stages : List ServedUnit}

/-- What the lookup has for a step of an ensemble: a valid baseline that is no ensemble. -/
def HasStage (lookup : BaselineLookup) (step : String) : Prop :=
  ∃ baseline, lookup step = .ok baseline ∧ IsValid baseline ∧ ¬ IsEnsemble baseline

/-- A stage of an ensemble: the model that is built of the baseline of its step by itself, without
flags of its own.  That model is no ensemble. -/
def IsStage (lookup : BaselineLookup) (cpuOnly : Bool) (step : String) (stage : ServedUnit) : Prop :=
  ∃ baseline own, lookup step = .ok baseline ∧
    ServedModel.ofBaseline step baseline Json.empty cpuOnly = .ok own ∧ own.toServedUnit = stage ∧
    own.isComposite = false ∧ stage.IsOf step baseline Json.empty cpuOnly

/-- Stages are loaded step by step. -/
lemma loadStages_eq_ok_iff {ensemble : String} :
    loadStages ensemble lookup cpuOnly steps = .ok stages ↔
      List.Forall₂ (fun step stage => ∃ baseline, lookup step = .ok baseline ∧
        ServedUnit.ofBaseline step baseline Json.empty cpuOnly = .ok stage) steps stages := by
  induction steps generalizing stages with
  | nil => simp [loadStages, eq_comm]
  | cons step steps ih =>
    rw [loadStages, List.forall₂_cons_left_iff]
    cases hlookup : lookup step with
    | error status => simp
    | ok baseline =>
      simp only [bind_eq_ok, ih, Except.ok.injEq, exists_eq_left']
      constructor
      · rintro ⟨stage, hstage, others, hothers, h⟩
        cases h
        exact ⟨stage, others, hstage, hothers, rfl⟩
      · rintro ⟨stage, others, hstage, hothers, rfl⟩
        exact ⟨stage, hstage, others, hothers, rfl⟩

/-- Stages can be loaded where the lookup has one for every step. -/
lemma exists_loadStages_iff {ensemble : String}
    (hwords : ∀ asked baseline, lookup asked = .ok baseline → HasWord baseline) :
    (∃ stages, loadStages ensemble lookup cpuOnly steps = .ok stages) ↔
      ∀ step ∈ steps, HasStage lookup step := by
  have hstage : ∀ step, (∃ stage baseline, lookup step = .ok baseline ∧
      ServedUnit.ofBaseline step baseline Json.empty cpuOnly = .ok stage) ↔
        HasStage lookup step := by
    intro step
    rw [exists_comm]
    refine exists_congr fun baseline => ?_
    rw [exists_and_left]
    refine and_congr_right fun hlookup => ?_
    rw [exists_ofBaseline_iff (hwords step baseline hlookup)]
    exact and_congr_right fun _ => and_iff_right (Or.inr rfl)
  simp only [loadStages_eq_ok_iff, ← hstage]
  induction steps with
  | nil => exact iff_of_true ⟨[], .nil⟩ (by simp)
  | cons step steps ih =>
    constructor
    · rintro ⟨_, _ | ⟨hfirst, hothers⟩⟩
      exact List.forall_mem_cons.mpr ⟨⟨_, hfirst⟩, ih.mp ⟨_, hothers⟩⟩
    · intro h
      obtain ⟨⟨stage, hfirst⟩, hrest⟩ := List.forall_mem_cons.mp h
      obtain ⟨others, hothers⟩ := ih.mpr hrest
      exact ⟨stage :: others, .cons hfirst hothers⟩

/-- A search unit that is built of a baseline is a stage for it. -/
lemma isStage_of_ofBaseline {step : String} {stage : ServedUnit} (hlookup : lookup step = .ok baseline)
    (h : ServedUnit.ofBaseline step baseline Json.empty cpuOnly = .ok stage) :
    IsStage lookup cpuOnly step stage := by
  obtain ⟨hparts, -⟩ := ServedUnit.ofBaseline_eq_ok_iff.mp h
  refine ⟨baseline, ⟨stage, []⟩, hlookup, ?_, rfl, rfl, isOf_of_ofParts hparts⟩
  rw [ServedModel.ofBaseline, h]
  rfl

/-! ### Models -/

/-- The number of search units is that of the stages, and one where there are none. -/
lemma unitCount_eq (model : ServedModel) : model.unitCount = max 1 model.stages.length := by
  obtain ⟨unit, stages⟩ := model
  cases stages with
  | nil => rfl
  | cons stage stages =>
    show (stage :: stages).length = max 1 (stage :: stages).length
    rw [List.length_cons]
    omega

/-- Every model has a search unit. -/
lemma unitCount_pos (model : ServedModel) : 0 < model.unitCount := by
  rw [unitCount_eq]
  omega

/-- A plain model is its only unit. -/
lemma units_of_plain (h : model.isComposite = false) : model.units = [model.toServedUnit] :=
  if_neg (by simp [h])

/-- The units of an ensemble are its stages. -/
lemma units_of_composite (h : model.isComposite = true) : model.units = model.stages := if_pos h

/-- A model is an ensemble if it has stages. -/
lemma isComposite_iff (model : ServedModel) : model.isComposite = true ↔ model.stages ≠ [] := by
  rw [isComposite, Bool.not_eq_true', List.isEmpty_eq_false_iff]

/-- A plain model is built where its unit is. -/
lemma ofBaseline_eq_ok_iff :
    ServedModel.ofBaseline name baseline flags cpuOnly = .ok model ↔
      ServedUnit.ofBaseline name baseline flags cpuOnly = .ok model.toServedUnit ∧
        model.stages = [] := by
  rw [ServedModel.ofBaseline, bind_eq_ok]
  constructor
  · rintro ⟨unit, hunit, h⟩
    cases h
    exact ⟨hunit, rfl⟩
  · rintro ⟨hunit, hstages⟩
    refine ⟨_, hunit, ?_⟩
    rw [← hstages]
    rfl

/-- An ensemble is built where its schedule names stages and they are loaded. -/
lemma ofEnsemble_eq_ok_iff :
    ofEnsemble name lookup baseline flags cpuOnly = .ok model ↔
      ofParts name baseline flags cpuOnly = .ok model.toServedUnit ∧
        (ModelConfig.mk baseline).stepModels ≠ [] ∧
        loadStages name lookup cpuOnly (ModelConfig.mk baseline).stepModels = .ok model.stages := by
  rw [ofEnsemble, bind_eq_ok]
  constructor
  · rintro ⟨unit, hunit, h⟩
    have hsteps := (isOf_of_ofParts hunit).baseline.stepModels_eq
    dsimp only at h
    split_ifs at h with hempty
    obtain ⟨stages, hstages, h⟩ := bind_eq_ok.mp h
    cases h
    rw [hsteps] at hempty hstages
    exact ⟨hunit, by simpa using hempty, hstages⟩
  · rintro ⟨hunit, hnonempty, hstages⟩
    have hsteps := (isOf_of_ofParts hunit).baseline.stepModels_eq
    refine ⟨_, hunit, ?_⟩
    dsimp only
    rw [hsteps, if_neg (by simpa using hnonempty), bind_eq_ok]
    exact ⟨_, hstages, rfl⟩

/-- A model is built of what the lookup has for its name, in one of two ways. -/
lemma create_eq_ok_iff :
    create name (some lookup) flags cpuOnly = .ok model ↔
      ∃ baseline, lookup name = .ok baseline ∧
        (IsEnsemble baseline ∧ ofEnsemble name lookup baseline flags cpuOnly = .ok model ∨
          ¬ IsEnsemble baseline ∧ ServedModel.ofBaseline name baseline flags cpuOnly = .ok model) := by
  rw [create]
  cases hlookup : lookup name with
  | error status => simp
  | ok baseline =>
    simp only [Except.ok.injEq, exists_eq_left']
    split_ifs with hensemble
    · rw [isEnsemble_iff] at hensemble
      simp [hensemble]
    · rw [isEnsemble_iff] at hensemble
      simp [hensemble]

/-! ### Built models -/

/-- Baselines are objects, and the schedule of an ensemble names every stage. -/
structure WellFormed (model : ServedModel) : Prop where
  baseline : model.baseline.IsObject
  stages : ∀ stage ∈ model.stages, stage.baseline.IsObject
  steps : model.stages.length ≤ model.baseline.stepModels.length

/-- A model that was built, from its baseline or through a lookup. -/
inductive IsBuilt : ServedModel → Prop
  | ofBaseline {name : String} {baseline flags : Json} {cpuOnly : Bool} {model : ServedModel} :
    ServedModel.ofBaseline name baseline flags cpuOnly = .ok model → IsBuilt model
  | create {name : String} {lookup : Option BaselineLookup} {flags : Json} {cpuOnly : Bool}
    {model : ServedModel} : ServedModel.create name lookup flags cpuOnly = .ok model → IsBuilt model

/-- A model that was built has no stages, or it is an ensemble of the stages that its schedule
names. -/
lemma IsBuilt.cases (h : model.IsBuilt) :
    (∃ name baseline flags cpuOnly, ServedModel.ofBaseline name baseline flags cpuOnly = .ok model) ∨
      ∃ name lookup baseline flags cpuOnly, ofEnsemble name lookup baseline flags cpuOnly =
        .ok model := by
  cases h with
  | ofBaseline h => exact Or.inl ⟨_, _, _, _, h⟩
  | @create name lookup flags cpuOnly _ h =>
    cases lookup with
    | none => cases h
    | some lookup =>
      obtain ⟨baseline, -, ⟨-, h⟩ | ⟨-, h⟩⟩ := create_eq_ok_iff.mp h
      · exact Or.inr ⟨_, _, _, _, _, h⟩
      · exact Or.inl ⟨_, _, _, _, h⟩

/-- The stages that were loaded have the names of the steps, and their baselines are objects. -/
lemma forall₂_of_loadStages {ensemble : String}
    (h : loadStages ensemble lookup cpuOnly steps = .ok stages) :
    List.Forall₂ (fun step stage => stage.name = step ∧ stage.baseline.IsObject) steps stages := by
  refine (loadStages_eq_ok_iff.mp h).imp ?_
  rintro step stage ⟨baseline, -, hstage⟩
  obtain ⟨hparts, -⟩ := ServedUnit.ofBaseline_eq_ok_iff.mp hstage
  exact ⟨(isOf_of_ofParts hparts).name, isObject_of_ofParts hparts⟩

/-- The stages of an ensemble that was built are the models that its schedule names. -/
lemma IsBuilt.stepModels_eq (h : model.IsBuilt) (hcomposite : model.isComposite = true) :
    model.baseline.stepModels = model.stages.map (·.name) := by
  rw [isComposite_iff] at hcomposite
  rcases h.cases with ⟨name, baseline, flags, cpuOnly, h⟩ | ⟨name, lookup, baseline, flags, cpuOnly, h⟩
  · exact absurd (ofBaseline_eq_ok_iff.mp h).2 hcomposite
  · obtain ⟨hunit, -, hstages⟩ := ofEnsemble_eq_ok_iff.mp h
    have hnames : List.Forall₂ (· = ·) (ModelConfig.mk baseline).stepModels
        (model.stages.map (·.name)) := by
      rw [List.forall₂_map_right_iff]
      exact (forall₂_of_loadStages hstages).imp fun step stage hstage => hstage.1.symm
    rw [List.forall₂_eq_eq_eq] at hnames
    rw [(isOf_of_ofParts hunit).baseline.stepModels_eq, hnames]

/-- A model that was built is well formed. -/
theorem IsBuilt.wellFormed (h : model.IsBuilt) : model.WellFormed := by
  rcases h.cases with ⟨name, baseline, flags, cpuOnly, h⟩ | ⟨name, lookup, baseline, flags, cpuOnly, h⟩
  · obtain ⟨hunit, hstages⟩ := ofBaseline_eq_ok_iff.mp h
    obtain ⟨hparts, -⟩ := ServedUnit.ofBaseline_eq_ok_iff.mp hunit
    exact ⟨isObject_of_ofParts hparts, by simp [hstages], by simp [hstages]⟩
  · obtain ⟨hunit, -, hstages⟩ := ofEnsemble_eq_ok_iff.mp h
    have hloaded := forall₂_of_loadStages hstages
    refine ⟨isObject_of_ofParts hunit, ?_, ?_⟩
    · intro stage hstage
      obtain ⟨i, hi, rfl⟩ := List.getElem_of_mem hstage
      exact (hloaded.get (hloaded.length_eq ▸ hi) hi).2
    · rw [(isOf_of_ofParts hunit).baseline.stepModels_eq, hloaded.length_eq]

/-! ### What it takes to build a model -/

/-- What it takes to build a model of a baseline: the baseline is valid, the flags are flags, and the
schedule of an ensemble names stages, which the lookup has. -/
structure CanServe (lookup : BaselineLookup) (baseline flags : Json) : Prop where
  isValid : IsValid baseline
  flags : AreFlags flags
  steps : IsEnsemble baseline → (ModelConfig.mk baseline).stepModels ≠ []
  stages : IsEnsemble baseline →
    ∀ step ∈ (ModelConfig.mk baseline).stepModels, HasStage lookup step

/-- What is built of a baseline: the model has a stage for each one that the schedule names, in order,
and it is an ensemble if the baseline is one. -/
structure Serves (lookup : BaselineLookup) (name : String) (baseline flags : Json) (cpuOnly : Bool)
    (model : ServedModel) : Prop where
  isOf : model.toServedUnit.IsOf name baseline flags cpuOnly
  isComposite : model.isComposite = true ↔ IsEnsemble baseline
  stages : List.Forall₂ (IsStage lookup cpuOnly) (ModelConfig.mk baseline).stepModels model.stages
  unitCount : model.unitCount = max 1 (ModelConfig.mk baseline).stepModels.length

/-- A model that was built serves the baseline that the lookup has for its name. -/
lemma serves_of_create (h : create name (some lookup) flags cpuOnly = .ok model) :
    ∃ baseline, lookup name = .ok baseline ∧ Serves lookup name baseline flags cpuOnly model := by
  obtain ⟨baseline, hlookup, ⟨hensemble, h⟩ | ⟨hplain, h⟩⟩ := create_eq_ok_iff.mp h
  · obtain ⟨hunit, hsteps, hstages⟩ := ofEnsemble_eq_ok_iff.mp h
    have hloaded : List.Forall₂ (IsStage lookup cpuOnly) (ModelConfig.mk baseline).stepModels
        model.stages := (loadStages_eq_ok_iff.mp hstages).imp fun step stage hstage => by
      obtain ⟨own, hown, hbuilt⟩ := hstage
      exact isStage_of_ofBaseline hown hbuilt
    have hsome : model.stages ≠ [] := by
      intro hnone
      rw [hnone, List.forall₂_nil_right_iff] at hloaded
      exact hsteps hloaded
    refine ⟨baseline, hlookup, isOf_of_ofParts hunit, ?_, hloaded, ?_⟩
    · exact iff_of_true (model.isComposite_iff.mpr hsome) hensemble
    · rw [unitCount_eq, hloaded.length_eq]
  · obtain ⟨hunit, hstages⟩ := ofBaseline_eq_ok_iff.mp h
    obtain ⟨hparts, -⟩ := ServedUnit.ofBaseline_eq_ok_iff.mp hunit
    have hsteps := stepModels_of_not_isEnsemble hplain
    refine ⟨baseline, hlookup, isOf_of_ofParts hparts, ?_, ?_, ?_⟩
    · exact iff_of_false (by rw [isComposite_iff, hstages]; simp) hplain
    · rw [hsteps, hstages]
      exact .nil
    · rw [unitCount_eq, hsteps, hstages]
      rfl

/-- A model can be built of a baseline that can be served. -/
lemma exists_create_iff
    (hwords : ∀ asked baseline, lookup asked = .ok baseline → HasWord baseline) :
    (∃ model, create name (some lookup) flags cpuOnly = .ok model) ↔
      ∃ baseline, lookup name = .ok baseline ∧ CanServe lookup baseline flags := by
  constructor
  · rintro ⟨model, h⟩
    obtain ⟨baseline, hlookup, ⟨hensemble, h⟩ | ⟨hplain, h⟩⟩ := create_eq_ok_iff.mp h
    · obtain ⟨hunit, hsteps, hstages⟩ := ofEnsemble_eq_ok_iff.mp h
      obtain ⟨hvalid, hflags⟩ :=
        (exists_ofParts_iff (hwords name baseline hlookup)).mp ⟨_, hunit⟩
      have hloaded := (exists_loadStages_iff hwords).mp ⟨_, hstages⟩
      exact ⟨baseline, hlookup, hvalid, hflags, fun _ => hsteps, fun _ => hloaded⟩
    · obtain ⟨hunit, -⟩ := ofBaseline_eq_ok_iff.mp h
      obtain ⟨hvalid, hflags, -⟩ :=
        (exists_ofBaseline_iff (hwords name baseline hlookup)).mp ⟨_, hunit⟩
      exact ⟨baseline, hlookup, hvalid, hflags, fun h => absurd h hplain,
        fun h => absurd h hplain⟩
  · rintro ⟨baseline, hlookup, hvalid, hflags, hsteps, hstages⟩
    have hword := hwords name baseline hlookup
    by_cases hensemble : IsEnsemble baseline
    · obtain ⟨unit, hunit⟩ := (exists_ofParts_iff hword).mpr ⟨hvalid, hflags⟩
      obtain ⟨stages, hloaded⟩ := (exists_loadStages_iff hwords).mpr (hstages hensemble)
      have hbuilt : ofEnsemble name lookup baseline flags cpuOnly = .ok ⟨unit, stages⟩ :=
        ofEnsemble_eq_ok_iff.mpr ⟨hunit, hsteps hensemble, hloaded⟩
      exact ⟨_, create_eq_ok_iff.mpr ⟨baseline, hlookup, Or.inl ⟨hensemble, hbuilt⟩⟩⟩
    · obtain ⟨unit, hunit⟩ := (exists_ofBaseline_iff hword).mpr ⟨hvalid, hflags, hensemble⟩
      have hbuilt : ServedModel.ofBaseline name baseline flags cpuOnly = .ok ⟨unit, []⟩ :=
        ofBaseline_eq_ok_iff.mpr ⟨hunit, rfl⟩
      exact ⟨_, create_eq_ok_iff.mpr ⟨baseline, hlookup, Or.inr ⟨hensemble, hbuilt⟩⟩⟩

/-- Take a lookup whose integers are 64-bit words.  A model can be built exactly if the lookup has a
valid baseline for its name, the flags are an object or null, and, where the baseline is that of an
ensemble, the schedule names stages and the lookup has a valid baseline that is no ensemble for each.
A model that was built is an ensemble exactly if its baseline is one.  It has one stage for each step
of the schedule, in order, and none of them is an ensemble; and all baselines are stored as they are
but for a name where they have none. -/
theorem create_grammar (name : String) (lookup : BaselineLookup) (flags : Json) (cpuOnly : Bool)
    (hwords : ∀ asked baseline, lookup asked = .ok baseline → HasWord baseline) :
    ((∃ model, create name (some lookup) flags cpuOnly = .ok model) ↔
      ∃ baseline, lookup name = .ok baseline ∧ CanServe lookup baseline flags) ∧
    ∀ model, create name (some lookup) flags cpuOnly = .ok model →
      ∃ baseline, lookup name = .ok baseline ∧ Serves lookup name baseline flags cpuOnly model :=
  ⟨exists_create_iff hwords, fun _ => serves_of_create⟩

/-- The baseline of an ensemble with one stage twice.  It has a schedule but no platform. -/
def unnamedEnsemble : Json :=
  .obj [("ensemble_scheduling", .obj [("step", .arr [.obj [("model_name", .str "bert")], .null,
      .obj [("model_name", .str "bert")]])]),
    ("input", .arr []), ("max_batch_size", .int 0)]

/-- The baseline of a stage with the greatest batch size there is, and with no text for a name. -/
def unnamedStage : Json :=
  .obj [("input", .arr []), ("max_batch_size", .int maxSigned), ("name", .int 7)]

/-- A lookup for an ensemble and its stage. -/
def unnamedLookup : BaselineLookup := fun asked =>
  if asked = "pipeline" then .ok unnamedEnsemble
  else if asked = "bert" then .ok unnamedStage
  else .error ⟨.unknownModel, "no such model"⟩

/-- An ensemble that has no name, of a stage that has none, is built with that stage twice.  The
stages are under the name of their step. -/
theorem create_grammar_of_unnamed :
    (∀ asked baseline, unnamedLookup asked = .ok baseline → HasWord baseline) ∧
    ∃ model, create "pipeline" (some unnamedLookup) .null true = .ok model ∧
      model.isComposite = true ∧ model.unitCount = 2 ∧
      ∀ stage ∈ model.stages, stage.cpuOnly = true ∧
        unnamedStage.setField? "name" (.str "bert") = some stage.baseline.content := by
  have hwords : ∀ asked baseline, unnamedLookup asked = .ok baseline → HasWord baseline := by
    intro asked baseline h n hn
    rw [unnamedLookup] at h
    split_ifs at h <;> cases h <;> cases hn <;> decide
  obtain ⟨hbuilds, hserves⟩ := create_grammar "pipeline" unnamedLookup .null true hwords
  have hstage : HasStage unnamedLookup "bert" := by
    refine ⟨unnamedStage, rfl, ⟨rfl, ⟨_, rfl⟩, maxSigned, rfl, by decide, le_rfl⟩, ?_⟩
    rw [← isEnsemble_iff]
    decide +kernel
  have hsteps : (ModelConfig.mk unnamedEnsemble).stepModels = ["bert", "bert"] := by decide +kernel
  have hcan : CanServe unnamedLookup unnamedEnsemble .null := by
    refine ⟨⟨rfl, ⟨_, rfl⟩, 0, rfl, le_rfl, by decide⟩, Or.inl rfl, ?_, ?_⟩
    · simp [hsteps]
    · simpa [hsteps] using fun _ => hstage
  obtain ⟨model, hmodel⟩ := hbuilds.mpr ⟨unnamedEnsemble, rfl, hcan⟩
  obtain ⟨baseline, hlookup, hmodel'⟩ := hserves model hmodel
  obtain rfl : unnamedEnsemble = baseline := Except.ok.inj hlookup
  refine ⟨hwords, model, hmodel, hmodel'.isComposite.mpr (Or.inr ⟨_, rfl⟩), ?_, ?_⟩
  · rw [hmodel'.unitCount, hsteps]
    rfl
  · have hbert : ∀ stage, IsStage unnamedLookup true "bert" stage → stage.cpuOnly = true ∧
        unnamedStage.setField? "name" (.str "bert") = some stage.baseline.content := by
      rintro stage ⟨given, own, hgiven, -, -, -, hstage⟩
      obtain rfl : unnamedStage = given := Except.ok.inj hgiven
      refine ⟨hstage.cpuOnly, hstage.baseline.unnamed ?_⟩
      rw [← isEmpty_name_iff]
      decide +kernel
    obtain ⟨unit, stages⟩ := model
    have hstages : List.Forall₂ (IsStage unnamedLookup true) ["bert", "bert"] stages :=
      hsteps ▸ hmodel'.stages
    rcases hstages with _ | ⟨hfirst, _ | ⟨hsecond, _ | _⟩⟩
    simpa using ⟨hbert _ hfirst, hbert _ hsecond⟩

end ServedModel

end ServingTuner
