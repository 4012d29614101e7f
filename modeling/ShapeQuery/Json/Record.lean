/-
This file reads records from JSON. A record is an object that may lack fields and may have others,
or an array of the first fields in their order.
-/
import ShapeQuery.Json.Fault
import ShapeQuery.Number.Numeral

namespace ShapeQuery.Json

/-- The fields of a record whose fields have the given names. -/
def readRecord (names : List String) (value : Json) : Except Fault (List (String × Json)) :=
  match value with
  | .object members => .ok members
  | .array elements =>
    if elements.length ≤ names.length then .ok (names.zip elements)
    else .error (tooLong elements)
  | _ => .error (.wrongType value "a record")

/-- A field of a record, which may be missing. -/
def readField {α : Type} (fields : List (String × Json)) (name : String) (default : α)
    (read : Json → Except Fault α) : Except Fault α :=
  match lookup name fields with
  | none => .ok default
  | some value => read value

/-- A value that may be null. -/
def readNullable {α : Type} (read : Json → Except Fault α) (value : Json) :
    Except Fault (Option α) :=
  match value with
  | .null => .ok none
  | _ => (read value).map some

/-- A natural number of at most 64 bits. -/
def readWord (value : Json) : Except Fault Nat :=
  match value with
  | .number (.integer integer) =>
    if 0 ≤ integer ∧ integer ≤ Number.greatestWord then .ok integer.toNat
    else .error (.wrongType value "u64")
  | _ => .error (.wrongType value "u64")

end ShapeQuery.Json
