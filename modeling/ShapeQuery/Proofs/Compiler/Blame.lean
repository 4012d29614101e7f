/-
This file tells whose fault it is that an inquiry has no answer. An error that tells of a shape is
never blamed on the client if the shape is the profile, the endpoint or the facet shape of the
inquiry. The shape of a queryable reaches the client as a fault of the filter that names it, and so
it is blamed on the client, at whatever depth of the filter it is named.
-/
import ShapeQuery.Proofs.Compiler.Inquiry
import ShapeQuery.Proofs.Filter.Blame

namespace ShapeQuery

open Listing (BuildError)
open Sparql (Query Group)

/-! ### Errors -/

/-- What is wrong with a shape, if an error tells of one. -/
def Listing.BuildError.shapeFault? : BuildError → Option Shape.Error
  | .shape source => some source
  | .filter (.queryable _ source) => some source
  | _ => none

/-- Whether an error comes from a shape of an inquiry that cannot be lowered: from its profile, its
endpoint or its facet shape. -/
inductive Inquiry.Raises (error : BuildError) : Inquiry → Prop
  | object {profile : NodeShape} {focus : Iri}
      (fails : Compiler.described profile (.iri focus) = .error error) :
      Raises error (.object profile focus)
  | profile {profile : NodeShape} {request : Request}
      (fails : Compiler.described profile Listing.focus = .error error) :
      Raises error (.listing profile request)
  | endpoint {inquiry : Inquiry} {shape : NodeShape} (given : shape ∈ inquiry.nodeShapes)
      (fails : Compiler.ofEndpoint shape = .error error) : Raises error inquiry
  | facet {shape : PropertyShape} {request : Request}
      (fails : Listing.Facet.query shape [] = .error error) :
      Raises error (.facets shape request)

namespace Compiler

variable {compiler : Compiler}

/-- What comes of an inquiry: an error, or a query unless there is nothing to ask for. -/
def outcome (compiler : Compiler) : Inquiry → Except BuildError (Option Query)
  | .object profile focus => (object profile focus).map some
  | .listing profile request => (compiler.listing profile request).map some
  | .count request => (compiler.count request).map some
  | .facets shape request => (compiler.facets shape request).map some
  | .search term parameters => (compiler.search term parameters).map some
  | .filter document => (compiler.filter document).map some
  | .labels resources => .ok (compiler.labels resources)

/-- Whether an error is deserved by an inquiry. An error that blames no client comes from a shape
of the inquiry, and one that blames a queryable from the shape of that. -/
def Deserves (compiler : Compiler) (inquiry : Inquiry) : BuildError → Prop
  | .filter (.queryable name source) => compiler.translator.Faulty name source
  | .filter _ => True
  | .parameter _ => True
  | error => inquiry.Raises error

variable {inquiry : Inquiry}

theorem deserves_of_raises {α : Type} {computed : Except BuildError α}
    (raises : FailsOnly (fun error => error.isClientError = false ∧ inquiry.Raises error) computed) :
    FailsOnly (compiler.Deserves inquiry) computed := by
  refine raises.mono fun error both => ?_
  cases error with
  | filter fault => cases both.1
  | parameter fault => cases both.1
  | _ => exact both.2

theorem deserves_of_filter {α : Type} {computed : Except Filter.Error α}
    (blames : FailsOnly compiler.translator.Blames computed) :
    FailsOnly (compiler.Deserves inquiry) (computed.mapError .filter) := by
  refine .mapError (blames.mono fun fault deserved => ?_)
  cases fault with
  | queryable name source => exact deserved
  | _ => trivial

/-! ### Parts -/

theorem deserves_described {profile : NodeShape} {focus : Sparql.Term}
    (raises : ∀ error, described profile focus = .error error → inquiry.Raises error) :
    FailsOnly (compiler.Deserves inquiry) (described profile focus) := by
  have blameless : FailsOnly (fun error => error.isClientError = false)
      (described profile focus) := .mapError fun _ _ => rfl
  exact deserves_of_raises fun error failed => ⟨blameless error failed, raises error failed⟩

theorem deserves_ofEndpoint {shape : NodeShape} (given : shape ∈ inquiry.nodeShapes) :
    FailsOnly (compiler.Deserves inquiry) (ofEndpoint shape) := by
  refine deserves_of_raises fun error failed => ⟨?_, .endpoint given failed⟩
  unfold ofEndpoint at failed
  dsimp only at failed
  split at failed
  · cases failed
  · cases failed
    rfl

theorem deserves_ofFilter (sparing : compiler.functions.IsSparing) (document : Json) :
    FailsOnly (compiler.Deserves inquiry) (compiler.ofFilter document) :=
  deserves_of_filter ((compiler.translator.blames_of_own
    (Filter.Expression.blame_ofJson document)).bind fun filter =>
      compiler.translator.blame_translate sparing filter)

theorem deserves_ofBox (parameters : Listing.Parameters) :
    FailsOnly (compiler.Deserves inquiry) (compiler.ofBox parameters) := by
  unfold ofBox
  split
  · exact .ok _
  · exact .mapError fun _ _ => trivial

theorem deserves_ofTime (text : String) :
    FailsOnly (compiler.Deserves inquiry) (compiler.ofTime text) := by
  have moment (text : String) :
      FailsOnly (compiler.Deserves inquiry) (Listing.TimeSpan.moment text) := by
    unfold Listing.TimeSpan.moment
    split
    · exact .ok _
    · exact .error trivial
  have bound (text : String) :
      FailsOnly (compiler.Deserves inquiry) (Listing.TimeSpan.bound text) := by
    unfold Listing.TimeSpan.bound
    split
    · exact .ok _
    · exact (moment text).map _
  refine FailsOnly.bind ?_ fun span => .ok _
  unfold Listing.TimeSpan.ofText
  split
  · exact (moment _).bind fun _ => .ok _
  · refine (bound _).bind fun start => (bound _).bind fun finish => ?_
    split
    · exact .ok _
    · exact .ok _
    · exact .ok _
    · exact .error trivial

theorem deserves_whenGiven {α : Type} {source : Option α} {lower : α → Except BuildError Group}
    (deserves : ∀ given, source = some given →
      FailsOnly (compiler.Deserves inquiry) (lower given)) :
    FailsOnly (compiler.Deserves inquiry) (whenGiven source lower) := by
  cases source with
  | none => exact .ok _
  | some given => exact deserves given rfl

theorem deserves_selection (sparing : compiler.functions.IsSparing) {request : Request}
    (known : ∀ shape, request.endpoint = some shape → shape ∈ inquiry.nodeShapes) :
    FailsOnly (compiler.Deserves inquiry) (compiler.selection request) :=
  (deserves_whenGiven fun shape given => deserves_ofEndpoint (known shape given)).bind fun _ =>
    (deserves_whenGiven fun document _ => deserves_ofFilter sparing document).bind fun _ =>
      (deserves_ofBox request.parameters).bind fun _ =>
        (deserves_whenGiven fun text _ => deserves_ofTime text).bind fun _ => .ok _

theorem deserves_page (parameters : Listing.Parameters) :
    FailsOnly (compiler.Deserves inquiry) (compiler.page parameters) := by
  unfold page Listing.Parameters.toPage
  dsimp only
  split
  · exact .error trivial
  · split
    · exact .ok _
    · split
      · exact .error trivial
      · split
        · exact .error trivial
        · exact .ok _

theorem deserves_searched (term : String) :
    FailsOnly (compiler.Deserves inquiry) (compiler.searched term) := by
  unfold searched Listing.Search.ofTerm
  split
  · exact .error trivial
  · split
    · exact .error trivial
    · exact .ok _

theorem deserves_order (parameters : Listing.Parameters) (usual : Option Iri) (search : Bool) :
    FailsOnly (compiler.Deserves inquiry) (parameters.order usual search) := by
  refine FailsOnly.bind ?_ fun _ => .ok _
  unfold Listing.Parameters.orderPredicate
  split
  · exact .ok _
  · split
    · exact .ok _
    · exact .error trivial

theorem deserves_assembly (assembly : Listing.Assembly) :
    FailsOnly (compiler.Deserves inquiry) assembly.query := by
  have predicate (order : Listing.Order) (searching : Bool) :
      FailsOnly (compiler.Deserves inquiry)
        (Listing.Assembly.orderPredicate order searching) := by
    unfold Listing.Assembly.orderPredicate
    split
    · split
      · exact .ok _
      · exact .error trivial
    · exact .ok _
    · exact .ok _
    · exact .error trivial
  have selection : FailsOnly (compiler.Deserves inquiry) assembly.pageSelection := by
    unfold Listing.Assembly.pageSelection
    split
    · exact .ok _
    · refine (predicate _ _).bind fun found => ?_
      split
      · exact .ok _
      · exact .ok _
  unfold Listing.Assembly.query
  split
  · exact .ok _
  · exact selection.bind fun _ => .ok _

/-! ### Facets -/

theorem blameless_branches (shape : String) (scope : Shape.Scope) (paths : List ShapePath) :
    FailsOnly (fun error => error.isClientError = false)
      (Listing.Facet.branches shape scope paths) := by
  have label (path : ShapePath) :
      FailsOnly (fun error => error.isClientError = false) (Listing.Facet.label path) := by
    unfold Listing.Facet.label
    split
    · exact .ok _
    · exact .ok _
    · split
      · exact .ok _
      · exact .error rfl
  have branch (scope : Shape.Scope) (path : ShapePath) :
      FailsOnly (fun error => error.isClientError = false)
        (Listing.Facet.branch shape scope path) := by
    refine FailsOnly.bind (.mapError fun _ _ => rfl) fun lowered => ?_
    obtain ⟨fragment, next⟩ := lowered
    dsimp only
    split
    · exact .error rfl
    · exact (label path).bind fun _ => .ok _
  induction paths generalizing scope with
  | nil => exact .ok _
  | cons path rest inductionHypothesis =>
    exact (branch scope path).bind fun lowered =>
      (inductionHypothesis lowered.2).bind fun _ => .ok _

theorem blameless_facets (shape : PropertyShape) (selection : Group) :
    FailsOnly (fun error => error.isClientError = false)
      (Listing.Facet.query shape selection) := by
  unfold Listing.Facet.query
  dsimp only
  split
  · exact .error rfl
  · exact (blameless_branches _ _ _).bind fun _ => .ok _

/-- Facets fail for every selection or for none. -/
theorem facets_error_iff {shape : PropertyShape} {selection other : Group} {error : BuildError} :
    Listing.Facet.query shape selection = .error error ↔
      Listing.Facet.query shape other = .error error := by
  unfold Listing.Facet.query
  dsimp only
  split
  · exact Iff.rfl
  · generalize Listing.Facet.branches _ _ _ = made
    cases made with
    | error fault => exact Iff.rfl
    | ok branches => exact iff_of_false nofun nofun

/-! ### Inquiries -/

/-- Every error is deserved. -/
theorem deserves_outcome (sparing : compiler.functions.IsSparing) (inquiry : Inquiry) :
    FailsOnly (compiler.Deserves inquiry) (compiler.outcome inquiry) := by
  cases inquiry with
  | object profile focus =>
    exact ((deserves_described fun error failed => .object failed).bind fun _ => .ok _).map _
  | listing profile request =>
    have known (shape : NodeShape) (given : request.endpoint = some shape) :
        shape ∈ (Inquiry.listing profile request).nodeShapes :=
      List.mem_cons_of_mem _ (Option.mem_toList.2 given)
    refine ((deserves_described fun error failed => .profile failed).bind fun _ =>
      (deserves_page _).bind fun _ => (deserves_selection sparing known).bind fun _ =>
        (deserves_order _ _ _).bind fun _ => FailsOnly.bind ?_ fun _ => deserves_assembly _).map _
    cases request.search with
    | none => exact .ok _
    | some term => exact (deserves_searched term).bind fun _ => .ok _
  | count request =>
    have known (shape : NodeShape) (given : request.endpoint = some shape) :
        shape ∈ (Inquiry.count request).nodeShapes := Option.mem_toList.2 given
    exact ((deserves_selection sparing known).bind fun _ => .ok _).map _
  | facets shape request =>
    have known (other : NodeShape) (given : request.endpoint = some other) :
        other ∈ (Inquiry.facets shape request).nodeShapes := Option.mem_toList.2 given
    refine ((deserves_selection sparing known).bind fun selection => ?_).map _
    exact deserves_of_raises fun error failed =>
      ⟨blameless_facets shape selection error failed, .facet (facets_error_iff.1 failed)⟩
  | search term parameters =>
    exact ((deserves_page _).bind fun _ => (deserves_searched _).bind fun _ => .ok _).map _
  | filter document =>
    exact (deserves_of_filter ((compiler.translator.blames_of_own
      (Filter.Expression.blame_ofJson document)).bind fun filter =>
        (compiler.translator.blame_translate sparing filter).bind fun _ => .ok _)).map _
  | labels resources => exact .ok _

/-- An error that tells of a shape is no fault of the client if the shape is one of the inquiry; the
client is only blamed for the shape of a queryable, and only if that is at fault. -/
theorem blame_of_shapeFault (sparing : compiler.functions.IsSparing) {error : BuildError}
    (failed : compiler.outcome inquiry = .error error) {source : Shape.Error}
    (told : error.shapeFault? = some source) :
    error.isClientError = false ∧ error = .shape source ∧ inquiry.Raises error ∨
      error.isClientError = true ∧ ∃ name, error = .filter (.queryable name source) ∧
        compiler.translator.Faulty name source := by
  have deserved := deserves_outcome sparing inquiry error failed
  cases error with
  | shape fault =>
    cases told
    exact .inl ⟨rfl, rfl, deserved⟩
  | filter fault =>
    cases fault with
    | queryable name fault =>
      cases told
      exact .inr ⟨rfl, name, rfl, deserved⟩
    | _ => cases told
  | parameter fault => cases told
  | unwritable defect => cases told

/-- A profile without a class. -/
def classlessProfile : NodeShape :=
  ⟨"<http://example.org/shape>", [], [], none, none⟩

theorem blame_of_shapeFault_classless :
    (ofConfiguration .standard).functions.IsSparing ∧
      (ofConfiguration .standard).outcome (.listing classlessProfile .all) =
        .error (.shape (.missingTargetClass "<http://example.org/shape>")) ∧
      BuildError.isClientError (.shape (.missingTargetClass "<http://example.org/shape>")) =
        false := by
  have failed : (ofConfiguration .standard).outcome (.listing classlessProfile .all) =
      .error (.shape (.missingTargetClass "<http://example.org/shape>")) := rfl
  refine ⟨Filter.Registry.standard_isSparing, failed, ?_⟩
  rcases blame_of_shapeFault Filter.Registry.standard_isSparing failed rfl with
    blameless | ⟨-, name, other, -⟩
  · exact blameless.1
  · cases other

/-! ### Queryables -/

/-- The shape of a property without values, along a path that this is not supported for. -/
def unsupportedShape : PropertyShape :=
  { id := "<http://example.org/shape>"
    paths := [⟨.inverse (.predicate ⟨"http://example.org/part"⟩), none⟩]
    choices := []
    classes := []
    minCount := none
    maxCount := some 0
    filters := [] }

/-- A filter that names a queryable. -/
def partFilter : Json :=
  .object [("op", .string "="),
    ("args", .array [.object [("property", .string "part")], .number (.integer 1)])]

/-- The shape of a queryable is blamed on the client that names it. -/
theorem queryable_blamed_on_client :
    ∃ error source, ((ofConfiguration .standard).declare "part" unsupportedShape).outcome
        (.filter partFilter) = .error error ∧ error.shapeFault? = some source ∧
      ((ofConfiguration .standard).declare "part" unsupportedShape).translator.Faulty "part"
        source ∧ ¬ error.isClientError = false := by
  refine ⟨.filter (.queryable "part" (.unsupportedPath "<http://example.org/shape>"
    .excludedCompound)), _, ?_, rfl, ⟨unsupportedShape, 1, rfl, rfl⟩, by decide⟩
  have read : Filter.Expression.ofJson partFilter =
      .ok (.leaf (.compare .equal ⟨"part", false⟩ (.literal (.ofInt 1)))) := by
    rw [Filter.Expression.ofJson]
    rfl
  show Except.map some (Except.mapError BuildError.filter
    (Filter.Expression.ofJson partFilter >>= _)) = _
  rw [read]
  rfl

end Compiler

end ShapeQuery
