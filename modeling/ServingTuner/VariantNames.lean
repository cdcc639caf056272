import ServingTuner.Failure
import ServingTuner.Json.Printer
import ServingTuner.ModelConfig

/-!
# Names of variants

A registry of names gives every variant of an entity a name of its own: the default variant is
`<entity>_config_default`, and the others are numbered in the order in which they are met. Two
payloads that differ in their `name` field alone are one variant.

For every entity the registry keeps which name stands for which payload, the next number to try,
and how many of the names are numbered. Numbers are unsigned 64-bit and wrap. Names chosen
elsewhere can be adopted, and the numbers that they carry are not handed out again.
-/

namespace ServingTuner

namespace VariantName

/-- What stands between an entity and the rest of a variant's name. -/
def separator : String := "_config_"

/-- The name of an entity's default variant. -/
def standard (entity : String) : String := entity ++ separator ++ "default"

/-- The name of an entity's variant with a number. -/
def numbered (entity : String) (index : UInt64) : String :=
  entity ++ separator ++ toString index.toNat

/-- The number that decimal digits denote, if there are any and it fits 64 unsigned bits. -/
def index? (digits : List Char) : Option UInt64 :=
  if digits.isEmpty || !digits.all Char.isDigit then none
  else
    let n := digits.foldl (fun n c => 10 * n + (c.toNat - '0'.toNat)) 0
    if n < UInt64.size then some (UInt64.ofNat n) else none

/-- The number in a name of an entity's variant. Zeros may stand in front of it. -/
def indexOf? (entity name : String) : Option UInt64 :=
  ((entity ++ separator).toList.isPrefixOf? name.toList).bind index?

end VariantName

/-- The names of one entity's variants. Which name stands for which payload is kept in both
directions. -/
structure EntityNames where
  nameByPayload : Fields String := []
  payloadByName : Fields String := []
  nextIndex : UInt64 := 0
  numbered : Nat := 0
  deriving DecidableEq

namespace EntityNames

/-- The payload that a name stands for. -/
def payloadOf? (names : EntityNames) (name : String) : Option String :=
  Fields.get? names.payloadByName name

/-- The name that stands for a payload. -/
def nameOf? (names : EntityNames) (payload : String) : Option String :=
  Fields.get? names.nameByPayload payload

/-- Whether a name stands for a payload. -/
def isBound (names : EntityNames) (name : String) : Bool := (names.payloadOf? name).isSome

/-- The number of names that stand for a payload. -/
def size (names : EntityNames) : Nat := names.payloadByName.length

/-- Lets a name stand for a payload, unless one of them belongs to another one already. -/
def bind (names : EntityNames) (name payload : String) : Except Failure EntityNames :=
  if (names.payloadOf? name).any (· != payload) then .error (.nameTaken name)
  else
    match (names.nameOf? payload).filter (· != name) with
    | some holder => .error (.payloadTaken name holder)
    | none =>
      .ok { names with
        nameByPayload := Fields.set payload name names.nameByPayload
        payloadByName := Fields.set name payload names.payloadByName }

/-- The first number from `index` on whose name is free, among at most `tries + 1` of them. As
many tries as there are names suffice. -/
def freeIndex (names : EntityNames) (entity : String) : Nat → UInt64 → UInt64
  | 0, index => index
  | tries + 1, index =>
    if names.isBound (VariantName.numbered entity index) then
      freeIndex names entity tries (index + 1)
    else index

/-- Numbers a payload that has no name yet. The number counts as tried even if binding its name
fails. -/
def number (names : EntityNames) (entity payload : String) :
    Except Failure String × EntityNames :=
  let index := names.freeIndex entity names.size names.nextIndex
  let name := VariantName.numbered entity index
  let moved := { names with nextIndex := index + 1 }
  match moved.bind name payload with
  | .ok bound => (.ok name, { bound with numbered := bound.numbered + 1 })
  | .error failure => (.error failure, moved)

/-- Takes over a name chosen elsewhere. A number in it counts as handed out. -/
def adopt (names : EntityNames) (entity name payload : String) : Except Failure EntityNames := do
  let bound ← names.bind name payload
  if names.isBound name then return bound
  else
    match VariantName.indexOf? entity name with
    | none => return bound
    | some index =>
      return { bound with
        numbered := bound.numbered + 1
        nextIndex := if bound.nextIndex ≤ index then index + 1 else bound.nextIndex }

end EntityNames

/-- The names of the variants of all entities. -/
structure VariantNames where
  entities : Fields EntityNames := []
  deriving DecidableEq

namespace VariantNames

/-- A payload without the field that holds its name. -/
def canonical (payload : Json) : Json := payload.eraseField ConfigField.name

/-- The text that identifies a variant. -/
def key (payload : Json) : String := (canonical payload).text

/-- The names of one entity. -/
def entity (names : VariantNames) (entity : String) : EntityNames :=
  (Fields.get? names.entities entity).getD {}

/-- The registry with other names for one entity. -/
def withEntity (names : VariantNames) (entity : String) (own : EntityNames) : VariantNames :=
  ⟨Fields.set entity own names.entities⟩

/-- The name of a payload as a variant of an entity: the reserved name if it is the default, the
name it has already, or a new numbered one. -/
def assign (names : VariantNames) (entity : String) (payload : Json) (isDefault : Bool) :
    Except Failure String × VariantNames :=
  if isDefault then (.ok (VariantName.standard entity), names)
  else
    let own := names.entity entity
    match own.nameOf? (key payload) with
    | some name => (.ok name, names)
    | none =>
      let (outcome, own) := own.number entity (key payload)
      (outcome, names.withEntity entity own)

/-- Takes over a name chosen elsewhere for a payload. -/
def adopt (names : VariantNames) (entity name : String) (payload : Json) :
    Except Failure VariantNames := do
  let own ← (names.entity entity).adopt entity name (key payload)
  return names.withEntity entity own

/-- The number of an entity's numbered variants. -/
def count (names : VariantNames) (entity : String) : Nat := (names.entity entity).numbered

/-- A registry without names. -/
def empty : VariantNames := {}

end VariantNames

end ServingTuner
