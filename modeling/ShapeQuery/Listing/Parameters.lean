/-
This file defines the parameters of a listing and reads them from JSON.
-/
import ShapeQuery.Json.Record

namespace ShapeQuery.Listing

open Number (Binary64)

/-- The direction of an order. -/
inductive Direction where
  | ascending
  | descending
deriving DecidableEq, Inhabited

namespace Direction

/-- The names of the directions. -/
def names : List (String × Direction) :=
  [("ASC", .ascending), ("DESC", .descending)]

/-- The name of a direction. -/
def text : Direction → String
  | .ascending => "ASC"
  | .descending => "DESC"

end Direction

/-- What a listing is ordered by: the label of a resource, the value of a property, or the weight
of a search result. -/
inductive OrderValue where
  | label
  | property
  | weight
deriving DecidableEq, Inhabited

namespace OrderValue

/-- The names of the order values. -/
def names : List (String × OrderValue) :=
  [("label", .label), ("order_by_val", .property), ("weight", .weight)]

/-- The name of an order value. -/
def text : OrderValue → String
  | .label => "label"
  | .property => "order_by_val"
  | .weight => "weight"

end OrderValue

/-- The parameters of a listing. -/
structure Parameters where
  page : Nat
  limit : Option Nat
  startIndex : Option Nat
  orderBy : Option String
  direction : Option Direction
  orderValue : Option OrderValue
  /-- The least and greatest ordinates of a box, or nothing. -/
  box : List Binary64
  /-- The coordinate reference system of the box. -/
  system : Option String
  datetime : Option String
deriving DecidableEq, Inhabited

namespace Parameters

/-- The parameters of a request that gives none. -/
def standard : Parameters :=
  { page := 1, limit := none, startIndex := none, orderBy := none, direction := none,
    orderValue := none, box := [], system := none, datetime := none }

/-- The names of the parameters in the order of a record. -/
def fieldNames : List String :=
  ["page", "limit", "startindex", "order_by", "order_by_direction", "order_by_value", "bbox",
   "filter_crs", "datetime"]

/-- Reads the parameters of a request. -/
def ofJson (value : Json) : Except Json.Fault Parameters := do
  let fields ← Json.readRecord fieldNames value
  return {
    page := ← Json.readField fields "page" 1 Json.readWord
    limit := ← Json.readField fields "limit" none (Json.readNullable Json.readWord)
    startIndex := ← Json.readField fields "startindex" none (Json.readNullable Json.readWord)
    orderBy := ← Json.readField fields "order_by" none (Json.readNullable Json.readString)
    direction := ← Json.readField fields "order_by_direction" none
      (Json.readNullable (Json.readVariant Direction.names))
    orderValue := ← Json.readField fields "order_by_value" none
      (Json.readNullable (Json.readVariant OrderValue.names))
    box := ← Json.readField fields "bbox" [] (Json.readList Json.readFloat)
    system := ← Json.readField fields "filter_crs" none (Json.readNullable Json.readString)
    datetime := ← Json.readField fields "datetime" none (Json.readNullable Json.readString) }

end Parameters

end ShapeQuery.Listing
