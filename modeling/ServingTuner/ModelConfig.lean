import ServingTuner.Json.Basic

/-!
# Model configurations

The serving configuration of a model is a JSON value, normally an object. The search reads a few of
its fields and writes a few, and it leaves all others alone.
-/

namespace ServingTuner

/-! ### Fields that the search reads or writes -/

namespace ConfigField

/-- The name of the configuration. -/
def name : String := "name"

/-- The inputs of the model, which every baseline has. -/
def input : String := "input"

/-- The greatest batch size. -/
def maxBatchSize : String := "max_batch_size"

/-- The groups of instances. -/
def instanceGroup : String := "instance_group"

/-- The settings of dynamic batching. -/
def dynamicBatching : String := "dynamic_batching"

/-- The settings of sequence batching. -/
def sequenceBatching : String := "sequence_batching"

/-- The platform that serves the model. -/
def platform : String := "platform"

/-- The schedule of an ensemble. -/
def ensembleScheduling : String := "ensemble_scheduling"

/-- The entries of a schedule. -/
def step : String := "step"

/-- The model of a schedule's entry. -/
def modelName : String := "model_name"

/-- The number of instances in a group. -/
def count : String := "count"

/-- The kind of device that a group runs on. -/
def kind : String := "kind"

end ConfigField

/-- The serving configuration of a model. -/
structure ModelConfig where
  content : Json := Json.empty

namespace ModelConfig

/-- A field of the configuration. -/
def field? (config : ModelConfig) (key : String) : Option Json := config.content.field? key

/-- Whether the configuration has a field. -/
def hasField (config : ModelConfig) (key : String) : Bool := config.content.hasField key

/-- Puts a field into a configuration that takes fields. -/
def setField? (config : ModelConfig) (key : String) (value : Json) : Option ModelConfig :=
  (config.content.setField? key value).map ModelConfig.mk

/-- The configuration with a field. One that takes no fields stays as it is. -/
def withField (config : ModelConfig) (key : String) (value : Json) : ModelConfig :=
  (config.setField? key value).getD config

theorem field?_withField {config : ModelConfig} (h : config.content.isObject) (key : String)
    (value : Json) (k : String) :
    (config.withField key value).field? k = if k = key then some value else config.field? k := by
  obtain ⟨content⟩ := config
  cases content with
  | obj fields =>
    exact Json.field?_setField? (j := .obj fields) rfl k
  | _ => simp [Json.isObject, Json.fields?] at h

/-- The configuration without a field. -/
def eraseField (config : ModelConfig) (key : String) : ModelConfig :=
  ⟨config.content.eraseField key⟩

/-- The name, empty where it is missing or not a string. -/
def name (config : ModelConfig) : String :=
  ((config.field? ConfigField.name).bind Json.string?).getD ""

/-- The configuration under a name. -/
def withName (config : ModelConfig) (name : String) : ModelConfig :=
  config.withField ConfigField.name (.str name)

/-- The greatest batch size, 0 where the configuration states none: it has no batching then. -/
def maxBatchSize (config : ModelConfig) : Int :=
  ((config.field? ConfigField.maxBatchSize).bind Json.signed?).getD 0

/-- The instances that an entry of the instance groups asks for, 1 where it does not say. -/
def groupCount (group : Json) : Int :=
  ((group.field? ConfigField.count).bind Json.signed?).getD 1

/-- The total number of instances over the instance groups, at least 1. -/
def instanceCount (config : ModelConfig) : Int :=
  match config.field? ConfigField.instanceGroup with
  | some (.arr groups) =>
    let sum := (groups.map groupCount).foldr (· + ·) 0
    if 0 < sum then sum else 1
  | _ => 1

/-- Whether requests are gathered into batches. -/
def hasDynamicBatching (config : ModelConfig) : Bool := config.hasField ConfigField.dynamicBatching

/-- Whether requests are batched by the sequences that they belong to. -/
def hasSequenceBatching (config : ModelConfig) : Bool :=
  config.hasField ConfigField.sequenceBatching

/-- Whether the model is an ensemble: by its platform, or by having a schedule of steps. -/
def isEnsemble (config : ModelConfig) : Bool :=
  (config.field? ConfigField.platform).bind Json.string? == some "ensemble" ||
    config.hasField ConfigField.ensembleScheduling

/-- The entries of an ensemble's schedule. -/
def scheduleEntries (config : ModelConfig) : List Json :=
  match (config.field? ConfigField.ensembleScheduling).bind (·.field? ConfigField.step) with
  | some steps => steps.items
  | none => []

/-- The models that an ensemble's schedule names, in order. -/
def stepModels (config : ModelConfig) : List String :=
  config.scheduleEntries.filterMap fun entry =>
    (entry.field? ConfigField.modelName).bind Json.string?

/-- Hands out names to the entries of a schedule that have a model name of any kind, in order,
until the names run out. -/
def renameEntries : List String → List Json → List Json
  | name :: names, entry :: entries =>
    if entry.hasField ConfigField.modelName then
      (entry.setField? ConfigField.modelName (.str name)).getD entry :: renameEntries names entries
    else entry :: renameEntries (name :: names) entries
  | _, entries => entries

/-- An ensemble whose schedule names the given stage variants. Without a schedule of steps there is
nothing to rename. -/
def withStages (config : ModelConfig) (names : List String) : ModelConfig :=
  match config.field? ConfigField.ensembleScheduling with
  | some (.obj scheduling) =>
    match Fields.get? scheduling ConfigField.step with
    | some steps =>
      let renamed := steps.withItems (renameEntries names steps.items)
      config.withField ConfigField.ensembleScheduling
        (.obj (Fields.set ConfigField.step renamed scheduling))
    | none => config
  | _ => config

end ModelConfig

end ServingTuner
