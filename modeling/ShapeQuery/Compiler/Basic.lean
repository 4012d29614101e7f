/-
This file defines compilers and the requests that they answer, and finds the resources that a
request selects.
-/
import ShapeQuery.Compiler.Configuration
import ShapeQuery.Filter.Lowering
import ShapeQuery.Listing.Parameters
import ShapeQuery.Listing.Restriction
import ShapeQuery.Listing.Selection

namespace ShapeQuery

open Listing (BuildError)
open Sparql (Group)

/-- A request for some of the resources. -/
structure Request where
  /-- The shape of the resources. -/
  endpoint : Option NodeShape
  /-- A filter document. -/
  filter : Option Json
  parameters : Listing.Parameters
  /-- A term to search for. -/
  search : Option String

/-- The request for every resource. -/
def Request.all : Request :=
  ⟨none, none, .standard, none⟩

/-- What queries are compiled with. It is never changed by a request. -/
structure Compiler where
  configuration : Configuration
  functions : Filter.Registry
  /-- The properties that filters may name, the latest declaration first. -/
  queryables : List (String × PropertyShape)

namespace Compiler

/-- The compiler with the standard functions and without queryables. -/
def ofConfiguration (configuration : Configuration) : Compiler :=
  ⟨configuration, .standard, []⟩

/-- Declares a queryable, in place of one with the same name. -/
def declare (compiler : Compiler) (name : String) (shape : PropertyShape) : Compiler :=
  { compiler with queryables := (name, shape) :: compiler.queryables }

/-- The translator of filters. -/
def translator (compiler : Compiler) : Filter.Translator :=
  ⟨compiler.queryables, compiler.functions, compiler.configuration.target,
    compiler.configuration.system⟩

/-! ### Selections -/

/-- The resources of the shape of a request. -/
def ofEndpoint (shape : NodeShape) : Except BuildError Group :=
  let lowering : Lowering := ⟨.endpoint, Listing.focus, []⟩
  match lowering.nodeShape shape with
  | .ok fragment => .ok fragment.pattern
  | .error error => .error (.shape error)

/-- The resources that pass a filter. -/
def ofFilter (compiler : Compiler) (document : Json) : Except BuildError Group :=
  let group := do compiler.translator.translate (← Filter.Expression.ofJson document)
  group.mapError .filter

/-- The resources in the box of a request. -/
def ofBox (compiler : Compiler) (parameters : Listing.Parameters) : Except BuildError Group :=
  if parameters.box.isEmpty then .ok []
  else
    Listing.inBox parameters.box (parameters.system.getD compiler.configuration.system)
      compiler.configuration.target Listing.focus

/-- The resources in a span of time. -/
def ofTime (compiler : Compiler) (text : String) : Except BuildError Group := do
  let span ← Listing.TimeSpan.ofText text
  return span.lower compiler.configuration.temporalPredicate Listing.focus

/-- A group, or the empty one if there is nothing to make it from. -/
def whenGiven {α : Type} (source : Option α) (group : α → Except BuildError Group) :
    Except BuildError Group :=
  match source with
  | some source => group source
  | none => .ok []

/-- All that restricts the resources of a request. -/
def selection (compiler : Compiler) (request : Request) : Except BuildError Group := do
  let shaped ← whenGiven request.endpoint ofEndpoint
  let filtered ← whenGiven request.filter compiler.ofFilter
  let placed ← compiler.ofBox request.parameters
  let timed ← whenGiven request.parameters.datetime compiler.ofTime
  return shaped ++ filtered ++ placed ++ timed

end Compiler

end ShapeQuery
