import ServingTuner.Bounds
import ServingTuner.Json.Reader
import ServingTuner.Measurement

/-!
# Options of a search

The options are read from a JSON object. Every key may be left out and unknown keys do not matter.
Writing options gives an object from which reading gives the same options.
-/

namespace ServingTuner

/-! ### Single settings -/

/-- A limit: an integer within the signed 64-bit range, or none where it is missing or null. -/
def readLimitSetting (j : Json) (key : String) : Except Failure (Option Int) :=
  match j.field? key with
  | none | some .null => .ok none
  | some (.int n) => if maxSigned < n then .error (.settingTooLarge key) else .ok (some n)
  | some _ => .error (.settingMistyped key .integer)

/-- A count of 32 unsigned bits, or `fallback` where it is missing. -/
def readCountSetting (j : Json) (key : String) (fallback : UInt32) : Except Failure UInt32 :=
  match j.field? key with
  | none => .ok fallback
  | some (.int n) =>
    if 0 ≤ n ∧ n < UInt32.size then .ok (UInt32.ofInt n) else .error (.settingMistyped key .natural)
  | some _ => .error (.settingMistyped key .natural)

/-! ### Bounds -/

namespace Bounds

/-- Bounds from an object, or the standard ones from null. The kinds of all values are checked
before the values themselves. -/
def ofJson (j : Json) : Except Failure Bounds :=
  if j.isNull then .ok {}
  else if !j.isObject then .error (.settingMistyped "bounds" .object)
  else do
    let minBatchSize ← readLimitSetting j "min_model_batch_size"
    let maxBatchSize ← readLimitSetting j "max_model_batch_size"
    let minInstanceCount ← readLimitSetting j "min_instance_count"
    let maxInstanceCount ← readLimitSetting j "max_instance_count"
    let minConcurrency ← readLimitSetting j "min_concurrency"
    let maxConcurrency ← readLimitSetting j "max_concurrency"
    let multiplier ← readLimitSetting j "concurrency_multiplier"
    let bounds : Bounds :=
      { batchSize := ⟨minBatchSize, maxBatchSize⟩
        instanceCount := ⟨minInstanceCount, maxInstanceCount⟩
        concurrency := ⟨minConcurrency, maxConcurrency⟩
        multiplier := multiplier.getD ({} : Bounds).multiplier }
    bounds.check
    return bounds

/-- Bounds as an object. Limits that are not set have no field. -/
def toJson (bounds : Bounds) : Json :=
  let limit (key : String) (value : Option Int) : List (String × Json) :=
    (value.map fun n => (key, Json.int n)).toList
  Json.object <|
    limit "min_model_batch_size" bounds.batchSize.lower ++
    limit "max_model_batch_size" bounds.batchSize.upper ++
    limit "min_instance_count" bounds.instanceCount.lower ++
    limit "max_instance_count" bounds.instanceCount.upper ++
    limit "min_concurrency" bounds.concurrency.lower ++
    limit "max_concurrency" bounds.concurrency.upper ++
    [("concurrency_multiplier", .int bounds.multiplier)]

end Bounds

/-! ### Options -/

/-- The options of a search. -/
structure Options where
  bounds : Bounds := {}
  radius : UInt32 := 3
  minMeasured : UInt32 := 3
  maxSteps : UInt32 := 32
  mode : ConcurrencyMode := .formula
  objectives : Objectives Float := Objectives.standard
  constraints : Json := .null

namespace Options

/-- Weights in the order of their tags. None may be negative. -/
def readObjectives : Fields Json → Except Failure (Objectives Float)
  | [] => .ok []
  | (tag, j) :: rest =>
    match j.number? with
    | none => .error (.objectiveNotNatural tag)
    | some weight =>
      if weight < 0.0 then .error (.objectiveNotNatural tag)
      else (readObjectives rest).map ((tag, weight) :: ·)

/-- The objectives of an object of options: throughput alone where the key is missing. -/
def objectivesOf (j : Json) : Except Failure (Objectives Float) :=
  match j.field? "objectives" with
  | none => .ok Objectives.standard
  | some (.obj (field :: fields)) => readObjectives (field :: fields)
  | some _ => .error (.settingMistyped "objectives" .filledObject)

/-- The bounds of an object of options: the standard ones where the key is missing. -/
def boundsOf (j : Json) : Except Failure Bounds :=
  match j.field? "bounds" with
  | none => .ok {}
  | some b => Bounds.ofJson b

/-- The concurrency mode of an object of options: the formula where the key is missing. -/
def modeOf (j : Json) : Except Failure ConcurrencyMode :=
  match j.field? "concurrency_mode" with
  | none => .ok .formula
  | some (.str name) => ConcurrencyMode.ofName name
  | some _ => .error (.settingMistyped "concurrency_mode" .text)

/-- The source of constraints in an object of options. It is kept as it is and read once the
models are known. -/
def constraintsOf (j : Json) : Except Failure Json :=
  match j.field? "constraints" with
  | none => .ok .null
  | some source =>
    if source.isObject || source.isNull then .ok source
    else .error (.settingMistyped "constraints" .object)

/-- Options from an object, or the standard ones from null. -/
def ofJson (j : Json) : Except Failure Options :=
  if j.isNull then .ok {}
  else if !j.isObject then .error .settingsNotObject
  else do
    let standard : Options := {}
    let bounds ← boundsOf j
    let radius ← readCountSetting j "radius" standard.radius
    let minMeasured ← readCountSetting j "min_initialized" standard.minMeasured
    let maxSteps ← readCountSetting j "max_steps" standard.maxSteps
    let mode ← modeOf j
    let objectives ← objectivesOf j
    let constraints ← constraintsOf j
    return { bounds, radius, minMeasured, maxSteps, mode, objectives, constraints }

/-- Options as an object. -/
def toJson (options : Options) : Json :=
  Json.object
    [("radius", .int options.radius.toNat),
      ("min_initialized", .int options.minMeasured.toNat),
      ("max_steps", .int options.maxSteps.toNat),
      ("concurrency_mode", .str options.mode.name),
      ("bounds", options.bounds.toJson),
      ("objectives", .obj (options.objectives.map fun (tag, weight) => (tag, Json.float weight))),
      ("constraints", options.constraints)]

/-! ### Files -/

/-- A path with the home directory in place of a tilde at its front. Without a home directory the
tilde stays. -/
def expandHome (home : Option String) (path : String) : String :=
  match path.toList, home with
  | '~' :: rest, some directory => directory ++ String.ofList rest
  | _, _ => path

/-- Options from a file. `readFile` gives the text of a file that can be opened. -/
def load (home : Option String) (readFile : String → Option String) (path : String) :
    Except Failure Options :=
  let resolved := expandHome home path
  match readFile resolved with
  | none => .error (.fileUnreadable resolved)
  | some text =>
    match Json.ofText? text with
    | none => .error (.fileMalformed resolved)
    | some j => ofJson j

end Options

end ServingTuner
