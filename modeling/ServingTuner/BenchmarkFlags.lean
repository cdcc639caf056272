import ServingTuner.Json.Printer

/-!
# Benchmark flags

The flags of a benchmark run for one model, and their text as a command line. The model, the batch
size and the concurrency come first, the other flags in the order of their names.
-/

namespace ServingTuner

/-- The flags of a benchmark run for one model. -/
structure BenchmarkFlags where
  fields : Fields Json := []

namespace BenchmarkFlags

/-- The flag for the variant to measure. -/
def modelName : String := "model-name"

/-- The flag for the number of items in a request. -/
def batchSize : String := "batch-size"

/-- The flag for the number of requests under way at once. -/
def concurrencyRange : String := "concurrency-range"

/-- The value of a flag. -/
def get? (flags : BenchmarkFlags) (key : String) : Option Json := Fields.get? flags.fields key

/-- Sets one flag. -/
def set (flags : BenchmarkFlags) (key : String) (value : Json) : BenchmarkFlags :=
  ⟨Fields.set key value flags.fields⟩

/-- Sets every flag of an object; any other value sets none. -/
def update (flags : BenchmarkFlags) (changes : Json) : BenchmarkFlags :=
  match changes with
  | .obj fields => ⟨Fields.update flags.fields fields⟩
  | _ => flags

/-- The concurrency, 0 where the flag is missing or not an integer. -/
def concurrency (flags : BenchmarkFlags) : Int :=
  ((flags.get? concurrencyRange).bind Json.signed?).getD 0

/-- The text of a flag's value: a string stands for itself. -/
def valueText : Json → String
  | .str s => s
  | j => j.text

/-- A flag with its value, in the long form. -/
def longForm (key : String) (value : Json) : String := "--" ++ key ++ "=" ++ valueText value

/-- The flags that come first, in this order, each with its form. -/
def leading : List (String × (Json → String)) :=
  [(modelName, fun value => "-m " ++ valueText value),
    (batchSize, fun value => "-b " ++ valueText value),
    (concurrencyRange, longForm concurrencyRange)]

/-- Whether a flag is one of those that come first. -/
def isLeading (key : String) : Bool := leading.any (·.1 == key)

/-- The flags as words of a command line. -/
def words (flags : BenchmarkFlags) : List String :=
  leading.filterMap (fun (key, form) => (flags.get? key).map form) ++
    (flags.fields.filter fun (key, _) => !isLeading key).map fun (key, value) => longForm key value

/-- The flags as a command line. -/
def text (flags : BenchmarkFlags) : String := String.intercalate " " flags.words

end BenchmarkFlags

end ServingTuner
