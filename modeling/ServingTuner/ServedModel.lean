import ServingTuner.Failure
import ServingTuner.ModelConfig

/-!
# Models taking part in a search

A model is known by its baseline configuration and the flags for its benchmark. An ensemble has its
stages besides, in the order of its schedule; stages are never ensembles themselves. What can be
tuned of a model are its search units: the stages of an ensemble, and any other model itself.
-/

namespace ServingTuner

/-- A search unit: a plain model, or a stage of an ensemble. -/
structure ServedUnit where
  name : String
  baseline : ModelConfig
  flags : Fields Json
  cpuOnly : Bool

/-- A model with its stages; only an ensemble has any. -/
structure ServedModel extends ServedUnit where
  stages : List ServedUnit := []

/-- Gives the baseline of a model, or a status that says why there is none. -/
abbrev BaselineLookup := String → Except Status Json

namespace ServedUnit

/-- A baseline is an object with an input and a greatest batch size that is not negative. -/
def checkBaseline (name : String) (baseline : Json) : Except Failure Unit :=
  if !baseline.isObject then .error (.baselineNotObject name)
  else if !baseline.hasField ConfigField.input then
    .error (.baselineIncomplete name ConfigField.input)
  else
    match baseline.field? ConfigField.maxBatchSize with
    | none => .error (.baselineIncomplete name ConfigField.maxBatchSize)
    | some size =>
      if size.signed?.any (0 ≤ ·) then .ok ()
      else .error (.baselineBatchSize name ConfigField.maxBatchSize)

/-- The flags for a model's benchmark: an object, or null for none. -/
def readFlags (name : String) : Json → Except Failure (Fields Json)
  | .null => .ok []
  | .obj fields => .ok fields
  | _ => .error (.flagsNotObject name)

/-- A baseline under its own name, or under `name` if it has none. -/
def nameBaseline (name : String) (baseline : Json) : ModelConfig :=
  let config : ModelConfig := ⟨baseline⟩
  if config.name.isEmpty then config.withName name else config

/-- A checked baseline with checked flags, whether or not it is an ensemble. -/
def ofParts (name : String) (baseline flags : Json) (cpuOnly : Bool) :
    Except Failure ServedUnit := do
  checkBaseline name baseline
  let flags ← readFlags name flags
  return ⟨name, nameBaseline name baseline, flags, cpuOnly⟩

/-- A search unit from a baseline that is not an ensemble. -/
def ofBaseline (name : String) (baseline flags : Json) (cpuOnly : Bool) :
    Except Failure ServedUnit := do
  let unit ← ofParts name baseline flags cpuOnly
  if unit.baseline.isEnsemble then .error (.ensembleWithoutLookup name) else .ok unit

end ServedUnit

namespace ServedModel

/-- Whether the model is served as an ensemble of stages. -/
def isComposite (model : ServedModel) : Bool := !model.stages.isEmpty

/-- What can be tuned of a model, in order. -/
def units (model : ServedModel) : List ServedUnit :=
  if model.isComposite then model.stages else [model.toServedUnit]

/-- The number of search units. -/
def unitCount (model : ServedModel) : Nat := model.units.length

/-- A model from a baseline that is not an ensemble. -/
def ofBaseline (name : String) (baseline flags : Json) (cpuOnly : Bool) :
    Except Failure ServedModel := do
  let unit ← ServedUnit.ofBaseline name baseline flags cpuOnly
  return ⟨unit, []⟩

/-- The stages of an ensemble, looked up one after another. They have no flags of their own. -/
def loadStages (ensemble : String) (lookup : BaselineLookup) (cpuOnly : Bool) :
    List String → Except Failure (List ServedUnit)
  | [] => .ok []
  | step :: rest =>
    match lookup step with
    | .error status => .error (.stageUnavailable step ensemble status.message)
    | .ok baseline => do
      let stage ← ServedUnit.ofBaseline step baseline Json.empty cpuOnly
      let others ← loadStages ensemble lookup cpuOnly rest
      return stage :: others

/-- An ensemble from its baseline. Its schedule has to name at least one stage. -/
def ofEnsemble (name : String) (lookup : BaselineLookup) (baseline flags : Json)
    (cpuOnly : Bool) : Except Failure ServedModel := do
  let unit ← ServedUnit.ofParts name baseline flags cpuOnly
  let steps := unit.baseline.stepModels
  if steps.isEmpty then .error (.ensembleWithoutSteps name)
  else do
    let stages ← loadStages name lookup cpuOnly steps
    return ⟨unit, stages⟩

/-- A model with the baseline that `lookup` gives, and for an ensemble with the stages that it
gives. -/
def create (name : String) (lookup : Option BaselineLookup) (flags : Json) (cpuOnly : Bool) :
    Except Failure ServedModel :=
  match lookup with
  | none => .error .lookupMissing
  | some lookup =>
    match lookup name with
    | .error status => .error (.baselineUnavailable name status.message)
    | .ok baseline =>
      if (ModelConfig.mk baseline).isEnsemble then ofEnsemble name lookup baseline flags cpuOnly
      else ofBaseline name baseline flags cpuOnly

end ServedModel

end ServingTuner
