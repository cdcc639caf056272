import ServingTuner.Constraint.Basic
import ServingTuner.Json.Basic

/-!
# Reading constraints

Constraints are written as an object that gives metrics their `min` and `max`, and a source of
constraints gives every model such an object. The entry under `default` holds for the models that
have none of their own.
-/

namespace ServingTuner

/-- The key of the constraints that hold for models without their own. -/
def defaultConstraintKey : String := "default"

namespace Constraint

/-- One limit of a constraint, where it is given. -/
def readLimit (tag : String) (side : BoundSide) (limits : Json) : Except Failure (Option Float) :=
  match limits.field? side.word with
  | none => .ok none
  | some j =>
    match j.number? with
    | some x => .ok (some x)
    | none => .error (.constraintNotNumber tag side)

/-- The constraint of a metric. Its lower limit must not exceed its upper one. -/
def ofJson (tag : String) (limits : Json) : Except Failure (Constraint Float) :=
  if !limits.isObject then .error (.constraintNotObject tag)
  else do
    let lower ← readLimit tag .lower limits
    let upper ← readLimit tag .upper limits
    match lower, upper with
    | some low, some high =>
      if high < low then .error (.constraintCrossed tag low high) else .ok ⟨lower, upper⟩
    | _, _ => .ok ⟨lower, upper⟩

end Constraint

namespace ConstraintSet

/-- The constraints of a list of fields, in their order; the first fault is reported. -/
def ofFields : Fields Json → Except Failure (ConstraintSet Float)
  | [] => .ok []
  | (tag, limits) :: rest => do
    let c ← Constraint.ofJson tag limits
    let others ← ofFields rest
    return (tag, c) :: others

/-- The constraints of one model. -/
def ofJson (j : Json) : Except Failure (ConstraintSet Float) :=
  match j.fields? with
  | some fields => ofFields fields
  | none => .error .constraintsNotObject

end ConstraintSet

namespace RunConstraints

/-- The constraints under a name, or `fallback` where the source does not have the name. -/
def readEntry (source : Json) (fallback : Option (ConstraintSet Float)) (name : String) :
    Except Failure (Option (ConstraintSet Float)) :=
  match source.field? name with
  | some j => (ConstraintSet.ofJson j).map some
  | none => .ok fallback

/-- The constraints of models by name, in their order. -/
def forNames (source : Json) (fallback : Option (ConstraintSet Float)) :
    List String → Except Failure (RunConstraints Float)
  | [] => .ok []
  | name :: rest => do
    let own ← readEntry source fallback name
    let others ← forNames source fallback rest
    return own :: others

/-- The constraints that a source gives to the models of a run. A source of null gives none. -/
def forModels (source : Json) (names : List String) : Except Failure (RunConstraints Float) :=
  if source.isNull then .ok (names.map fun _ => none)
  else if !source.isObject then .error .constraintSourceNotObject
  else do
    let fallback ← readEntry source none defaultConstraintKey
    forNames source fallback names

end RunConstraints

end ServingTuner
