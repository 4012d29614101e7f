/-
This file lists the reasons why a JSON value does not have the form that is expected of it, and
reads values of the simplest forms.
-/
import ShapeQuery.Json.Text

namespace ShapeQuery.Json

/-- Why a value is not what is expected. -/
inductive Fault where
  | missingField (name : String)
  | wrongType (value : Json) (expected : String)
  | wrongLength (length : Nat) (expected : String)
  | unknownVariant (name : String) (known : List String)
  | invalidValue (value : Json) (expected : String)

/-- Names in backticks, separated by commas. -/
def quotedNames (names : List String) : String :=
  ", ".intercalate (names.map fun name => "`" ++ name ++ "`")

/-- The wording of a fault. -/
def Fault.message : Fault → String
  | .missingField name => "missing field `" ++ name ++ "`"
  | .wrongType value expected =>
    "invalid type: " ++ value.description ++ ", expected " ++ expected
  | .wrongLength length expected =>
    "invalid length " ++ toString length ++ ", expected " ++ expected
  | .unknownVariant name known =>
    "unknown variant `" ++ name ++ "`, expected one of " ++ quotedNames known
  | .invalidValue value expected =>
    "invalid value: " ++ value.description ++ ", expected " ++ expected

/-- The elements of a value that has to be an array. -/
def readArray (value : Json) : Except Fault (List Json) :=
  match value with
  | .array elements => .ok elements
  | _ => .error (.wrongType value "a sequence")

/-- The text of a value that has to be a string. -/
def readString (value : Json) : Except Fault String :=
  match value with
  | .string text => .ok text
  | _ => .error (.wrongType value "a string")

/-- A value that has to be a number, as a floating point number. -/
def readFloat (value : Json) : Except Fault Number.Binary64 :=
  match value.float? with
  | some float => .ok float
  | none => .error (.wrongType value "f64")

/-- The elements of an array, each read in the same way. -/
def readList {α : Type} (read : Json → Except Fault α) (value : Json) : Except Fault (List α) := do
  (← readArray value).mapM read

/-- An array must not be longer than what is read of it. -/
def tooLong (elements : List Json) : Fault :=
  .wrongLength elements.length "fewer elements in array"

/-- The name of a variant without content: a string, or the only key of an object that leads to
null. -/
def readVariant {α : Type} (known : List (String × α)) (value : Json) : Except Fault α := do
  let find := fun (name : String) =>
    match known.lookup name with
    | some variant => .ok variant
    | none => .error (.unknownVariant name (known.map Prod.fst))
  match value with
  | .string name => find name
  | .object [(name, content)] =>
    let variant ← find name
    match content with
    | .null => .ok variant
    | _ => .error (.wrongType content "unit")
  | .object _ => .error (.invalidValue value "map with a single key")
  | _ => .error (.wrongType value "string or map")

end ShapeQuery.Json
