/-!
# Outcomes

A status pairs a code with a message. Codes are numbered in hundreds by area, a number that no
area has assigned is still a code, and only the code decides whether a status is a success.
-/

namespace ServingTuner

/-- What an outcome means. A number that no area has assigned is kept as it is. -/
inductive StatusCode where
  | ok
  | dimensionMismatch
  | invalidCoordinate
  | invalidConfiguration
  | invalidBounds
  | unknownModel
  | namingCollision
  | invalidInput
  | malformedText
  | unreadableFile
  | internal
  | notImplemented
  | unassigned (number : UInt32)
  deriving DecidableEq

namespace StatusCode

/-- The number of a code: 1xx search space, 2xx configuration, 3xx naming, 4xx input,
9xx internal. -/
def number : StatusCode → UInt32
  | ok => 0
  | dimensionMismatch => 100
  | invalidCoordinate => 101
  | invalidConfiguration => 200
  | invalidBounds => 201
  | unknownModel => 202
  | namingCollision => 300
  | invalidInput => 400
  | malformedText => 401
  | unreadableFile => 402
  | internal => 900
  | notImplemented => 901
  | unassigned n => n

/-- The codes with a meaning of their own. -/
def assigned : List StatusCode :=
  [ok, dimensionMismatch, invalidCoordinate, invalidConfiguration, invalidBounds, unknownModel,
    namingCollision, invalidInput, malformedText, unreadableFile, internal, notImplemented]

/-- The code of a number. -/
def ofNumber (n : UInt32) : StatusCode :=
  (assigned.find? (·.number == n)).getD (unassigned n)

/-- The word that a report uses for a code. -/
def name : StatusCode → String
  | ok => "OK"
  | dimensionMismatch => "DimensionError"
  | invalidCoordinate => "InvalidCoordinate"
  | invalidConfiguration => "ConfigurationError"
  | invalidBounds => "BoundsError"
  | unknownModel => "UnknownModel"
  | namingCollision => "NamingCollisionError"
  | invalidInput => "InvalidInput"
  | malformedText => "ParseError"
  | unreadableFile => "IoError"
  | internal => "InternalError"
  | notImplemented => "NotImplemented"
  | unassigned _ => "UnknownError"

/-- Reading back the number of a code gives the code. -/
theorem number_ofNumber (n : UInt32) : (ofNumber n).number = n := by
  unfold ofNumber
  cases h : assigned.find? (·.number == n) with
  | none => rfl
  | some c => simpa using List.find?_some h

end StatusCode

/-- A code with the text that explains it. -/
structure Status where
  code : StatusCode
  message : String := ""
  deriving DecidableEq

namespace Status

/-- The status of success, without a message. -/
def success : Status := ⟨.ok, ""⟩

/-- A status is a success by its code alone; a message changes nothing. -/
def isOk (s : Status) : Bool := s.code == .ok

/-- The code's word, followed by the message of a failure that has one. -/
def text (s : Status) : String :=
  if s.isOk then "OK"
  else if s.message.isEmpty then s.code.name
  else s.code.name ++ ": " ++ s.message

/-- The value of an outcome, or `fallback` where there is a status instead. A status is no value
even when its code is that of success. -/
def valueOr {α : Type} (outcome : Except Status α) (fallback : α) : α :=
  match outcome with
  | .ok value => value
  | .error _ => fallback

end Status

end ServingTuner
