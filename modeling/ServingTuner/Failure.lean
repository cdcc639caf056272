import ServingTuner.Status
import ServingTuner.Coordinate.Basic
import ServingTuner.Decimal.Layout

/-!
# Causes of failure

Every way in which an operation can fail is one cause. The status code and the wording of a cause
are fixed here and nowhere else.
-/

namespace ServingTuner

/-- The lower or the upper end of an allowed range. -/
inductive BoundSide where
  | lower
  | upper
  deriving DecidableEq

/-- The word for an end of a range. -/
def BoundSide.word : BoundSide → String
  | lower => "min"
  | upper => "max"

/-- What kind of value a setting takes. -/
inductive Shape where
  | integer
  | natural
  | text
  | object
  | filledObject
  deriving DecidableEq

/-- A kind of value in words. -/
def Shape.words : Shape → String
  | integer => "an integer"
  | natural => "a non-negative integer"
  | text => "a string"
  | object => "an object"
  | filledObject => "a non-empty object"

/-- A cause of failure. -/
inductive Failure where
  /-- A slot of a new coordinate does not fit 32 unsigned bits. -/
  | slotOutOfRange (slot : Nat) (value : Int)
  /-- A coordinate has no such slot. -/
  | noSuchSlot (slot size : Nat)
  /-- Dimensions arrived for another search unit than the next one. -/
  | unitOutOfOrder (unit expected : Nat)
  /-- A coordinate does not fit the dimensions it is resolved against. -/
  | unresolvable (coordinate : Coordinate) (slots : Nat)
  /-- A coordinate does not fit the space that the cursor moves in. -/
  | unreachable (coordinate : Coordinate) (slots : Nat)
  /-- The dimensions and the models disagree on the number of search units. -/
  | unitCount (described provided : Nat)
  | unknownConcurrencyMode (name : String)
  | boundNotPositive (side : BoundSide) (quantity : String) (value : Int)
  | boundsCrossed (quantity : String) (lower upper : Int)
  | multiplierNotPositive (value : Int)
  | settingMistyped (key : String) (expected : Shape)
  | settingTooLarge (key : String)
  | settingsNotObject
  | objectiveNotNatural (tag : String)
  | fileUnreadable (path : String)
  | fileMalformed (path : String)
  | baselineNotObject (model : String)
  | baselineIncomplete (model field : String)
  | baselineBatchSize (model field : String)
  | flagsNotObject (model : String)
  | ensembleWithoutLookup (model : String)
  | ensembleWithoutSteps (model : String)
  | lookupMissing
  | baselineUnavailable (model reason : String)
  | stageUnavailable (stage ensemble reason : String)
  /-- A name already stands for another payload. -/
  | nameTaken (name : String)
  /-- A payload already has another name. -/
  | payloadTaken (name holder : String)
  | registryMissing
  | noModels
  | unknownMetric (tag : String)
  | metricsNotAdded (left right : String)
  | metricsNotSubtracted (subtrahend minuend : String)
  | constraintsNotObject
  | constraintSourceNotObject
  | constraintNotObject (tag : String)
  | constraintNotNumber (tag : String) (side : BoundSide)
  | constraintCrossed (tag : String) (lower upper : Float)
  | measureMissing
  | unknownLogLevel (name : String)

namespace Failure

/-- The status code of a cause. -/
def code : Failure → StatusCode
  | slotOutOfRange .. => .invalidCoordinate
  | noSuchSlot .. | unitOutOfOrder .. | unresolvable .. | unreachable .. | unitCount .. =>
    .dimensionMismatch
  | boundNotPositive .. | boundsCrossed .. | multiplierNotPositive .. => .invalidBounds
  | unknownConcurrencyMode .. | settingMistyped .. | settingTooLarge .. | settingsNotObject
  | objectiveNotNatural .. | baselineNotObject .. | baselineIncomplete .. | baselineBatchSize ..
  | flagsNotObject .. | ensembleWithoutLookup .. | ensembleWithoutSteps .. | constraintsNotObject
  | constraintSourceNotObject | constraintNotObject .. | constraintNotNumber ..
  | constraintCrossed .. | unknownLogLevel .. => .invalidConfiguration
  | fileUnreadable .. => .unreadableFile
  | fileMalformed .. => .malformedText
  | lookupMissing | registryMissing | noModels | unknownMetric .. | metricsNotAdded ..
  | metricsNotSubtracted .. | measureMissing => .invalidInput
  | baselineUnavailable .. | stageUnavailable .. => .unknownModel
  | nameTaken .. | payloadTaken .. => .namingCollision

/-- The wording of a cause. -/
def message : Failure → String
  | slotOutOfRange slot value => s!"slot {slot} has out-of-range value {value}"
  | noSuchSlot slot size => s!"slot {slot} out of range for coordinate of size {size}"
  | unitOutOfOrder unit expected =>
    s!"dimensions for entity {unit} added out of order (expected {expected})"
  | unresolvable c slots =>
    "coordinate " ++ c.text ++ " has " ++ toString c.size ++ " slots, dimension set has " ++
      toString slots
  | unreachable c slots =>
    "coordinate " ++ c.text ++ " has " ++ toString c.size ++ " slots, expected " ++ toString slots
  | unitCount described provided =>
    s!"dimension set describes {described} search units, models provide {provided}"
  | unknownConcurrencyMode name => s!"unknown concurrency mode '{name}'"
  | boundNotPositive side quantity value =>
    side.word ++ s!" {quantity} must be positive, got {value}"
  | boundsCrossed quantity lower upper =>
    s!"min {quantity} ({lower}) exceeds max {quantity} ({upper})"
  | multiplierNotPositive value => s!"concurrency multiplier must be positive, got {value}"
  | settingMistyped key expected => s!"'{key}' must be " ++ expected.words
  | settingTooLarge key => s!"'{key}' is out of range"
  | settingsNotObject => "search options must be an object"
  | objectiveNotNatural tag => s!"objective '{tag}' must be a non-negative number"
  | fileUnreadable path => s!"cannot open '{path}'"
  | fileMalformed path => s!"{path}: not a JSON text"
  | baselineNotObject model => s!"baseline of '{model}' is not an object"
  | baselineIncomplete model field => s!"baseline of '{model}' has no '{field}' field"
  | baselineBatchSize model field => s!"'{field}' of '{model}' must be a non-negative integer"
  | flagsNotObject model => s!"benchmark flags of '{model}' must be an object"
  | ensembleWithoutLookup model =>
    s!"'{model}' is an ensemble; its stages need a baseline lookup"
  | ensembleWithoutSteps model => s!"ensemble '{model}' has no steps"
  | lookupMissing => "baseline lookup is empty"
  | baselineUnavailable model reason => s!"cannot load baseline of '{model}': {reason}"
  | stageUnavailable stage ensemble reason =>
    s!"cannot load stage '{stage}' of ensemble '{ensemble}': {reason}"
  | nameTaken name => s!"name '{name}' is already bound to a different payload"
  | payloadTaken name holder => s!"payload named '{name}' is already bound to '{holder}'"
  | registryMissing => "variant name registry is null"
  | noModels => "no models to search"
  | unknownMetric tag => s!"unknown metric tag '{tag}'"
  | metricsNotAdded left right => s!"cannot add {left} and {right}"
  | metricsNotSubtracted subtrahend minuend => s!"cannot subtract {subtrahend} from {minuend}"
  | constraintsNotObject => "constraints must be an object"
  | constraintSourceNotObject => "constraint source must be an object"
  | constraintNotObject tag => s!"constraint for '{tag}' must be an object"
  | constraintNotNumber tag side => s!"constraint {tag}." ++ side.word ++ " must be a number"
  | constraintCrossed tag lower upper =>
    s!"constraint for '{tag}' has min " ++ Decimal.message.write lower ++ " > max " ++
      Decimal.message.write upper
  | measureMissing => "measure function is empty"
  | unknownLogLevel name => s!"unknown log level '{name}'"

/-- A cause as a status. -/
def status (f : Failure) : Status := ⟨f.code, f.message⟩

end Failure

theorem bind_eq_ok {α β : Type} {result : Except Failure α} {next : α → Except Failure β} {b : β} :
    result >>= next = .ok b ↔ ∃ a, result = .ok a ∧ next a = .ok b := by
  cases result <;> simp [Bind.bind, Except.bind]

end ServingTuner
