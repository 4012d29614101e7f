/-
This file writes JSON values as compact text, and describes them in the words used when a value
of another type was expected.
-/
import ShapeQuery.Json.Value
import ShapeQuery.Number.Layout
import ShapeQuery.Text.Quoted

namespace ShapeQuery

/-- Integers in full, floating point numbers with the fewest digits that read back. -/
def JsonNumber.text : JsonNumber → String
  | .integer value => toString value
  | .float value => value.jsonText

namespace Json

mutual

/-- The compact text of a value, without spaces. -/
def text : Json → String
  | .null => "null"
  | .bool value => if value then "true" else "false"
  | .number value => value.text
  | .string value => Text.quoted Text.escapeJson value
  | .array elements => "[" ++ elementsText elements ++ "]"
  | .object members => "\x7b" ++ membersText members ++ "\x7d"

/-- Elements separated by commas. -/
def elementsText : List Json → String
  | [] => ""
  | [element] => text element
  | element :: rest => text element ++ "," ++ elementsText rest

/-- Members separated by commas. -/
def membersText : List (String × Json) → String
  | [] => ""
  | [(key, value)] => Text.quoted Text.escapeJson key ++ ":" ++ text value
  | (key, value) :: rest =>
    Text.quoted Text.escapeJson key ++ ":" ++ text value ++ "," ++ membersText rest

end

/-- What a value is, as told when something else was expected. -/
def description : Json → String
  | .null => "null"
  | .bool value => "boolean `" ++ (if value then "true" else "false") ++ "`"
  | .number (.integer value) => "integer `" ++ toString value ++ "`"
  | .number (.float value) => "floating point `" ++ value.jsonText ++ "`"
  | .string value => "string " ++ Text.quoted Text.escapeDiagnostic value
  | .array _ => "sequence"
  | .object _ => "map"

end Json

end ShapeQuery
