/-
This file defines the commands of the program and reads them from the words of a command line.
-/
import ShapeQuery.CommandLine.Words
import ShapeQuery.Listing.Parameters

namespace ShapeQuery.CommandLine

open Listing (Parameters Direction OrderValue)
open Number (Binary64)

/-! ### Commands -/

/-- Where the shapes come from. -/
structure ShapeSource where
  file : Option String
  /-- Declarations of the form `name=shape`. -/
  queryables : List String

/-- What resources are asked for. -/
structure Selection where
  endpoint : Option String
  /-- The file of a filter. -/
  filter : Option String
  parameters : Parameters

/-- What the program is to do. -/
inductive Command where
  | object (shapes : ShapeSource) (profile focus : String)
  | listing (shapes : ShapeSource) (profile : String) (selection : Selection)
      (search : Option String)
  | count (shapes : ShapeSource) (selection : Selection)
  | facets (shapes : ShapeSource) (facets : String) (selection : Selection)
  | search (term : String) (parameters : Parameters)
  | filter (shapes : ShapeSource) (file : Option String)
  | labels (resources : List String)

/-- A command, and the file of the configuration if it is not the standard one. -/
structure Invocation where
  configuration : Option String
  command : Command

/-! ### Options -/

/-- The options of every command. -/
def commonOptions : List (String × OptionKind) :=
  [("--config", .path)]

/-- The options for the shapes. -/
def shapeOptions : List (String × OptionKind) :=
  [("--shapes", .path), ("--queryable", .texts)]

/-- The options for the resources. -/
def selectionOptions : List (String × OptionKind) :=
  [("--endpoint", .text), ("--filter", .path), ("--bbox", .numbers), ("--filter-crs", .text),
   ("--datetime", .text)]

/-- The options for the page. -/
def pageOptions : List (String × OptionKind) :=
  [("--page", .text), ("--limit", .text), ("--startindex", .text)]

/-- The options for the order. -/
def orderOptions : List (String × OptionKind) :=
  [("--order-by", .text), ("--order-by-direction", .text), ("--order-by-value", .text)]

/-- The names of the directions. -/
def directionNames : List (String × Direction) :=
  [("asc", .ascending), ("desc", .descending)]

/-! ### Values -/

/-- A value that may be missing but must not be malformed. -/
def optional {α : Type} (read : String → Option α) : Option String → Option (Option α)
  | none => some none
  | some text => (read text).map some

/-- A natural number of at most 64 bits. -/
def word? (text : String) : Option Nat :=
  Number.unsigned? Number.greatestWord text

/-- Numbers with commas between them. -/
def numbers? (text : String) : Option (List Binary64) :=
  (Text.splitOn ',' text.toList).mapM fun piece => Binary64.ofText? (String.ofList piece)

namespace Words

/-- Where the shapes come from. -/
def shapeSource (words : Words) : ShapeSource :=
  ⟨words.value? "--shapes", words.values "--queryable"⟩

/-- The parameters of a listing. Options that the command does not know are not given. -/
def parameters? (words : Words) : Option Parameters := do
  return {
    page := (← optional word? (words.value? "--page")).getD 1
    limit := ← optional word? (words.value? "--limit")
    startIndex := ← optional word? (words.value? "--startindex")
    orderBy := words.value? "--order-by"
    direction := ← optional (directionNames.lookup ·) (words.value? "--order-by-direction")
    orderValue := ← optional (OrderValue.names.lookup ·) (words.value? "--order-by-value")
    box := (← (words.values "--bbox").mapM numbers?).flatten
    system := words.value? "--filter-crs"
    datetime := words.value? "--datetime" }

/-- What resources are asked for. -/
def selection? (words : Words) : Option Selection := do
  return ⟨words.value? "--endpoint", words.value? "--filter", ← words.parameters?⟩

/-! ### Reading -/

/-- The object command. -/
def object? (words : Words) : Option Command := do
  guard words.operands.isEmpty
  return .object words.shapeSource (← words.value? "--profile") (← words.value? "--focus")

/-- The listing command. -/
def listing? (words : Words) : Option Command := do
  guard words.operands.isEmpty
  return .listing words.shapeSource (← words.value? "--profile") (← words.selection?)
    (words.value? "--search")

/-- The count command. -/
def count? (words : Words) : Option Command := do
  guard words.operands.isEmpty
  return .count words.shapeSource (← words.selection?)

/-- The facets command. -/
def facets? (words : Words) : Option Command := do
  guard words.operands.isEmpty
  return .facets words.shapeSource (← words.value? "--facets") (← words.selection?)

/-- The search command. -/
def search? (words : Words) : Option Command := do
  let [term] := words.operands | none
  return .search term (← words.parameters?)

/-- The filter command. -/
def filter? (words : Words) : Option Command :=
  match words.operands with
  | [] => some (.filter words.shapeSource none)
  | [file] => if file.isEmpty then none else some (.filter words.shapeSource (some file))
  | _ => none

/-- The labels command. -/
def labels? (words : Words) : Option Command := do
  guard !words.operands.isEmpty
  return .labels words.operands

end Words

/-- The options of the command with a name, and how it is read. -/
def form? (name : String) : Option (List (String × OptionKind) × (Words → Option Command)) :=
  match name with
  | "object" =>
    some (shapeOptions ++ [("--profile", .text), ("--focus", .text)], Words.object?)
  | "listing" =>
    some (shapeOptions ++ selectionOptions ++ pageOptions ++ orderOptions
      ++ [("--profile", .text), ("--search", .text)], Words.listing?)
  | "count" => some (shapeOptions ++ selectionOptions, Words.count?)
  | "facets" => some (shapeOptions ++ selectionOptions ++ [("--facets", .text)], Words.facets?)
  | "search" => some (pageOptions, Words.search?)
  | "cql" => some (shapeOptions, Words.filter?)
  | "labels" => some ([], Words.labels?)
  | _ => none

/-- Reads a command line. Options that all commands have may stand before the name of the
command, too; those after it count more. -/
def Invocation.ofWords? (words : List String) : Option Invocation := do
  let (common, name, rest) ← (Words.empty commonOptions).leading words
  let (kinds, read) ← form? name
  let words ← Words.ofList (commonOptions ++ kinds) rest
  return ⟨words.value? "--config" <|> common.value? "--config", ← read words⟩

end ShapeQuery.CommandLine
