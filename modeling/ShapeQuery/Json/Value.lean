/-
This file defines JSON values. A number is an integer when it is written as one and fits into 64
bits, with or without a sign, and a floating point number otherwise.

The members of an object keep the order in which they were written. The canonical form of a value
sorts them by key and keeps the last of several members with one key; everything that reads or
writes a document works on the canonical form.
-/
import ShapeQuery.Number.Binary64

namespace ShapeQuery

open Number (Binary64)

/-- A number of a JSON document. -/
inductive JsonNumber where
  | integer (value : Int)
  | float (value : Binary64)
deriving DecidableEq, Inhabited

/-- A JSON value. -/
inductive Json where
  | null
  | bool (value : Bool)
  | number (value : JsonNumber)
  | string (value : String)
  | array (elements : List Json)
  | object (members : List (String × Json))
deriving Inhabited

/-- The floating point number nearest to a number. -/
def JsonNumber.toBinary64 : JsonNumber → Binary64
  | .integer value => .ofInt value
  | .float value => value

namespace Json

/-- The value of the last member with the given key among some members. -/
def lookup (key : String) (members : List (String × Json)) : Option Json :=
  (members.reverse.find? fun entry => entry.1 = key).map Prod.snd

/-- The value of the last member of an object with the given key; no other value has members. -/
def member? (key : String) : Json → Option Json
  | .object members => lookup key members
  | _ => none

/-- The text of a string. -/
def string? : Json → Option String
  | .string value => some value
  | _ => none

/-- The elements of an array. -/
def array? : Json → Option (List Json)
  | .array elements => some elements
  | _ => none

/-- A number as a floating point number. -/
def float? : Json → Option Binary64
  | .number value => some value.toBinary64
  | _ => none

/-- Puts a member into a list sorted by key, in place of one with the same key. -/
def insertMember (key : String) (value : Json) : List (String × Json) → List (String × Json)
  | [] => [(key, value)]
  | (other, present) :: rest =>
    if key < other then (key, value) :: (other, present) :: rest
    else if key = other then (key, value) :: rest
    else (other, present) :: insertMember key value rest

mutual

/-- The value with the members of every object sorted by key, the last of duplicates kept. -/
def canonical : Json → Json
  | .array elements => .array (canonicalElements elements)
  | .object members => .object (canonicalMembers [] members)
  | value => value

/-- The canonical forms of some elements. -/
def canonicalElements : List Json → List Json
  | [] => []
  | element :: rest => canonical element :: canonicalElements rest

/-- Adds members one by one to a sorted list. -/
def canonicalMembers (sorted : List (String × Json)) :
    List (String × Json) → List (String × Json)
  | [] => sorted
  | (key, value) :: rest => canonicalMembers (insertMember key (canonical value) sorted) rest

end

end Json

end ShapeQuery
