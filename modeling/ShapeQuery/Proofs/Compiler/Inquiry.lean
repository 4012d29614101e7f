/-
This file gathers the ways to ask a compiler for a query, so that what holds of all queries can be
said at once, and takes a selection apart into its restrictions.
-/
import ShapeQuery.Compiler.Queries
import ShapeQuery.Proofs.Success

namespace ShapeQuery

open Listing (BuildError Parameters)
open Sparql (Group Query)
open Success (bind_ok mapError_ok)

/-- What a compiler can be asked for. -/
inductive Inquiry where
  | object (profile : NodeShape) (focus : Iri)
  | listing (profile : NodeShape) (request : Request)
  | count (request : Request)
  | facets (shape : PropertyShape) (request : Request)
  | search (term : String) (parameters : Parameters)
  | filter (document : Json)
  | labels (resources : List Iri)

namespace Inquiry

/-- The node shapes that come with an inquiry. -/
def nodeShapes : Inquiry → List NodeShape
  | .object profile _ => [profile]
  | .listing profile request => profile :: request.endpoint.toList
  | .count request => request.endpoint.toList
  | .facets _ request => request.endpoint.toList
  | _ => []

/-- The property shapes that come with an inquiry. -/
def propertyShapes : Inquiry → List PropertyShape
  | .facets shape _ => [shape]
  | _ => []

/-- The resources that an inquiry names. -/
def resources : Inquiry → List Iri
  | .object _ focus => [focus]
  | .labels resources => resources
  | _ => []

end Inquiry

namespace Compiler

/-- The query that answers an inquiry, if there is one. -/
def answer? (compiler : Compiler) : Inquiry → Option Query
  | .object profile focus => (object profile focus).toOption
  | .listing profile request => (compiler.listing profile request).toOption
  | .count request => (compiler.count request).toOption
  | .facets shape request => (compiler.facets shape request).toOption
  | .search term parameters => (compiler.search term parameters).toOption
  | .filter document => (compiler.filter document).toOption
  | .labels resources => compiler.labels resources

theorem toOption_eq_some {ε α : Type} {computed : Except ε α} {result : α} :
    computed.toOption = some result ↔ computed = .ok result := by
  cases computed with
  | error fault => exact iff_of_false nofun nofun
  | ok value => exact ⟨fun same => congrArg _ (Option.some.inj same), fun same => by cases same; rfl⟩

variable {compiler : Compiler}

/-! ### Restrictions -/

/-- Whether a group is one of the restrictions that a request puts on its resources. -/
inductive Restricts (compiler : Compiler) (request : Request) : Group → Prop
  | endpoint {shape : NodeShape} {group : Group} (given : request.endpoint = some shape)
      (lowered : ofEndpoint shape = .ok group) : Restricts compiler request group
  | filter {document : Json} {group : Group} (given : request.filter = some document)
      (lowered : compiler.ofFilter document = .ok group) : Restricts compiler request group
  | box {group : Group} (given : request.parameters.box ≠ [])
      (lowered : compiler.ofBox request.parameters = .ok group) : Restricts compiler request group
  | time {text : String} {group : Group} (given : request.parameters.datetime = some text)
      (lowered : compiler.ofTime text = .ok group) : Restricts compiler request group

/-- The restriction that comes from something optional. -/
theorem whenGiven_ok {α : Type} {source : Option α} {lower : α → Except BuildError Group}
    {group : Group} (lowered : whenGiven source lower = .ok group) :
    group = [] ∨ ∃ given, source = some given ∧ lower given = .ok group := by
  cases source with
  | none => exact .inl (Except.ok.inj lowered).symm
  | some given => exact .inr ⟨given, rfl, lowered⟩

/-- A selection consists of restrictions. -/
theorem restricts_of_selection {request : Request} {selection : Group}
    (selected : compiler.selection request = .ok selection) :
    ∃ parts : List Group, selection = parts.flatten ∧
      ∀ part ∈ parts, part = [] ∨ Restricts compiler request part := by
  obtain ⟨shaped, shapedLowered, further⟩ := bind_ok.1 selected
  obtain ⟨filtered, filteredLowered, further⟩ := bind_ok.1 further
  obtain ⟨placed, placedLowered, further⟩ := bind_ok.1 further
  obtain ⟨timed, timedLowered, total⟩ := bind_ok.1 further
  cases total
  refine ⟨[shaped, filtered, placed, timed], by simp, ?_⟩
  simp only [List.forall_mem_cons]
  refine ⟨?_, ?_, ?_, ?_, fun _ member => absurd member List.not_mem_nil⟩
  · exact (whenGiven_ok shapedLowered).imp_right fun ⟨_, given, lowered⟩ => .endpoint given lowered
  · exact (whenGiven_ok filteredLowered).imp_right fun ⟨_, given, lowered⟩ => .filter given lowered
  · by_cases empty : request.parameters.box = []
    · rw [ofBox, empty] at placedLowered
      exact .inl (Except.ok.inj placedLowered).symm
    · exact .inr (.box empty placedLowered)
  · exact (whenGiven_ok timedLowered).imp_right fun ⟨_, given, lowered⟩ => .time given lowered

theorem ofEndpoint_ok {shape : NodeShape} {group : Group} (lowered : ofEndpoint shape = .ok group) :
    ∃ fragment, Lowering.nodeShape ⟨.endpoint, Listing.focus, []⟩ shape = .ok fragment ∧
      fragment.pattern = group := by
  unfold ofEndpoint at lowered
  dsimp only at lowered
  split at lowered
  · rename_i fragment succeeds
    exact ⟨fragment, succeeds, Except.ok.inj lowered⟩
  · cases lowered

theorem ofFilter_ok {document : Json} {group : Group}
    (lowered : compiler.ofFilter document = .ok group) :
    ∃ filter, Filter.Expression.ofJson document = .ok filter ∧
      compiler.translator.translate filter = .ok group :=
  bind_ok.1 (mapError_ok.1 lowered)

end Compiler

end ShapeQuery
