import ServingTuner.Fields

/-!
# JSON values

A value is an integer or a float by the way it was written, not by its size: `1` is an integer and
`1.0` a float. Integers cover both the signed and the unsigned 64-bit range. The fields of an
object are kept in the order of their names.
-/

namespace ServingTuner

/-- A JSON value. -/
inductive Json where
  | null
  | bool (value : Bool)
  | int (value : Int)
  | float (value : Float)
  | str (value : String)
  | arr (elements : List Json)
  | obj (fields : List (String × Json))

namespace Json

/-- The object with the given fields; of a repeated name the last value counts. -/
def object (fields : List (String × Json)) : Json := obj (Fields.ofList fields)

/-- The empty object. -/
def empty : Json := obj []

/-- Whether a value is null. -/
def isNull : Json → Bool
  | null => true
  | _ => false

/-- The fields of an object. -/
def fields? : Json → Option (Fields Json)
  | obj fields => some fields
  | _ => none

/-- Whether a value is an object. -/
def isObject (j : Json) : Bool := j.fields?.isSome

/-- The text of a string. -/
def string? : Json → Option String
  | str s => some s
  | _ => none

/-- The integer as it was written. -/
def int? : Json → Option Int
  | int n => some n
  | _ => none

/-- Reads an integer as a signed 64-bit number: the unsigned ones beyond its range wrap. -/
def signed? (j : Json) : Option Int := j.int?.map (Int.bmod · UInt64.size)

/-- The double of a number. -/
def number? : Json → Option Float
  | int n => some (Float.ofInt n)
  | float x => some x
  | _ => none

/-- A field of an object; other values have none. -/
def field? (j : Json) (key : String) : Option Json := j.fields?.bind (Fields.get? · key)

/-- Whether a value is an object with such a field. -/
def hasField (j : Json) (key : String) : Bool := (j.field? key).isSome

/-- Puts a field into an object. Null counts as an empty object; other values take no fields. -/
def setField? (j : Json) (key : String) (value : Json) : Option Json :=
  match j with
  | null => some (obj [(key, value)])
  | obj fields => some (obj (Fields.set key value fields))
  | _ => none

/-- Removes a field from an object; other values stay as they are. -/
def eraseField (j : Json) (key : String) : Json :=
  match j with
  | obj fields => obj (Fields.erase fields key)
  | _ => j

/-- The values met when going through a value: the elements of an array, the field values of an
object in the order of the names, nothing for null, and any other value itself. -/
def items : Json → List Json
  | arr elements => elements
  | obj fields => Fields.values fields
  | null => []
  | other => [other]

/-- Puts other values in place of those of `items`, position by position. -/
def withItems (j : Json) (values : List Json) : Json :=
  match j, values with
  | arr _, values => arr values
  | obj fields, values => obj (List.zip (Fields.keys fields) values)
  | null, _ => null
  | _, value :: _ => value
  | other, [] => other

/-- An object is not null. -/
theorem isNull_of_isObject {j : Json} (h : j.isObject = true) : j.isNull = false := by
  cases j <;> first | rfl | cases h

/-! ### Reading after a change -/

theorem field?_setField? {j changed : Json} {key : String} {value : Json}
    (h : j.setField? key value = some changed) (k : String) :
    changed.field? k = if k = key then some value else j.field? k := by
  cases j with
  | null =>
    obtain rfl : obj [(key, value)] = changed := by simpa [setField?] using h
    simp [field?, fields?, Fields.get?]
  | obj fields =>
    obtain rfl : obj (Fields.set key value fields) = changed := by simpa [setField?] using h
    simp [field?, fields?, Fields.get?_set]
  | _ => simp [setField?] at h

theorem field?_eraseField (j : Json) (key k : String) :
    (j.eraseField key).field? k = if k = key then none else j.field? k := by
  cases j <;> simp [eraseField, field?, fields?, Fields.get?_erase]

end Json

end ServingTuner
