import ServingTuner.BenchmarkFlags
import ServingTuner.ModelConfig

/-!
# Run configurations

Everything that is measured together in one step: for every model the variant to serve, the flags
of its benchmark, and for an ensemble the variants of its stages.
-/

namespace ServingTuner

/-- The part of one model in a run. -/
structure ModelRun where
  model : String
  config : ModelConfig := {}
  flags : BenchmarkFlags := {}
  stages : List ModelConfig := []

namespace ModelRun

/-- Whether the model is served as an ensemble of stages. -/
def isComposite (run : ModelRun) : Bool := !run.stages.isEmpty

/-- The name of the model's variant. -/
def variant (run : ModelRun) : String := run.config.name

/-- The model's part as JSON. Only an ensemble has stages. -/
def toJson (run : ModelRun) : Json :=
  Json.object <|
    [("model_name", .str run.model), ("model_config", run.config.content),
      ("perf_config", .obj run.flags.fields)] ++
    if run.isComposite then [("stage_configs", .arr (run.stages.map (·.content)))] else []

end ModelRun

/-- What is measured together. -/
structure RunConfig where
  models : List ModelRun := []

namespace RunConfig

/-- Joins texts by blanks. No blank is put before the first text that is not empty. -/
def join (texts : List String) : String :=
  texts.foldl (fun line text => (if line.isEmpty then line else line ++ " ") ++ text) ""

/-- The command lines of all models, by which a run is identified. -/
def text (run : RunConfig) : String := join (run.models.map (·.flags.text))

/-- The run as JSON. -/
def toJson (run : RunConfig) : Json := .arr (run.models.map ModelRun.toJson)

end RunConfig

end ServingTuner
