import ServingTuner.Failure

/-!
# Logging

How much is logged is set once, when logging starts. A level in the environment takes precedence
over the one asked for. Starting again while logging runs changes nothing, and neither stopping nor
a failed start touches the level.
-/

namespace ServingTuner

/-- How much is logged, from everything to nothing. -/
inductive LogLevel where
  | trace
  | debug
  | info
  | warning
  | error
  | critical
  | off
  deriving DecidableEq

namespace LogLevel

/-- The levels with their names. Two of them have a short name besides. -/
def table : List (String × LogLevel) :=
  [("trace", trace), ("debug", debug), ("info", info), ("warning", warning), ("error", error),
    ("critical", critical), ("off", off), ("warn", warning), ("err", error)]

/-- The level of a name. -/
def ofName (name : String) : Except Failure LogLevel :=
  match table.find? (·.1 == name) with
  | some (_, level) => .ok level
  | none => .error (.unknownLogLevel name)

/-- Levels in increasing order of severity. -/
def severity : LogLevel → Nat
  | trace => 0
  | debug => 1
  | info => 2
  | warning => 3
  | error => 4
  | critical => 5
  | off => 6

end LogLevel

/-- Whether logging runs, at what level, and what level the environment asks for. -/
structure Logging where
  running : Bool := false
  level : LogLevel := .info
  environment : Option String := none

namespace Logging

/-- The level asked for when nothing else is said. -/
def standardLevel : String := "info"

/-- Starts logging at a level. -/
def start (logging : Logging) (level : String) : Except Failure Logging :=
  if logging.running then .ok logging
  else do
    let level ← LogLevel.ofName (logging.environment.getD level)
    return { logging with running := true, level }

/-- Stops logging. -/
def stop (logging : Logging) : Logging := { logging with running := false }

end Logging

end ServingTuner
