/-
This file tells which coordinate reference system stands before the geometries of a selection: that
of the request before the box, and that of the configuration before the geometries of the filter. The
system of a request therefore reaches the geometries of its filter only if it is the configured one.
-/
import ShapeQuery.Proofs.Compiler.Inquiry
import ShapeQuery.Proofs.Filter.Literals

namespace ShapeQuery

open Sparql (Group Query Term)
open Success (bind_ok mapError_ok)

/-- The request of an inquiry for the resources of a selection. -/
def Inquiry.request? : Inquiry → Option Request
  | .listing _ request => some request
  | .count request => some request
  | .facets _ request => some request
  | _ => none

namespace Compiler

variable {compiler : Compiler} {request : Request}

/-- The values that the configured shapes behind a request ask for. -/
def shapeValues (compiler : Compiler) (request : Request) : List Term :=
  request.endpoint.toList.flatMap NodeShape.values
    ++ compiler.queryables.flatMap fun entry => entry.2.values

/-- The coordinate reference system that a request asks for. -/
def system (compiler : Compiler) (request : Request) : String :=
  request.parameters.system.getD compiler.configuration.system

/-- What a literal of a selection is: no geometry, a value of a configured shape, the box of the
request with the system of the request, or a geometry of its filter with the configured system. -/
inductive Refers (compiler : Compiler) (request : Request) : Literal → Prop
  | plain {literal : Literal} (other : ¬ literal.IsGeometry) : Refers compiler request literal
  | shape {literal : Literal} (asked : .literal literal ∈ compiler.shapeValues request) :
      Refers compiler request literal
  | box {geometry : Filter.Geometry}
      (read : Filter.Geometry.ofBox request.parameters.box = .ok geometry) :
      Refers compiler request (geometry.literal (compiler.system request))
  | filter {document : Json} {filter : Filter.Expression} {geometry : Filter.Geometry}
      (given : request.filter = some document)
      (read : Filter.Expression.ofJson document = .ok filter)
      (placed : geometry ∈ filter.geometries) :
      Refers compiler request (geometry.literal compiler.configuration.system)

theorem refers_values {values : List Term} (within : values ⊆ compiler.shapeValues request) :
    ∀ value ∈ values, value.QuotedIn (compiler.Refers request) := by
  intro value member literal named
  cases value with
  | literal written =>
    rw [List.mem_singleton.1 named]
    exact .shape (within member)
  | _ => cases named

/-! ### Restrictions -/

theorem quotedIn_ofTime {kind : Literal → Prop}
    (plain : ∀ literal : Literal, ¬ literal.IsGeometry → kind literal) (text : String) :
    YieldsOnly (Group.QuotedIn kind) (compiler.ofTime text) := by
  have moment (text : String) : YieldsOnly kind (Listing.TimeSpan.moment text) := by
    have other : Vocabulary.xsdDateTime ≠ Vocabulary.geoWktLiteral := by decide
    unfold Listing.TimeSpan.moment
    split
    · exact .ok (plain _ other)
    · exact .error _
  have bound (text : String) :
      YieldsOnly (fun bound => ∀ literal ∈ bound, kind literal) (Listing.TimeSpan.bound text) := by
    unfold Listing.TimeSpan.bound
    split
    · exact .ok fun _ member => by cases member
    · exact .map ((moment text).mono fun _ good _ same => Option.some.inj same ▸ good)
  have span : YieldsOnly (fun span => ∀ part ∈ span.comparisons, kind part.2)
      (Listing.TimeSpan.ofText text) := by
    unfold Listing.TimeSpan.ofText
    split
    · exact (moment _).bind fun _ good => .ok (List.forall_mem_singleton.2 good)
    · refine (bound _).bind fun start startGood => (bound _).bind fun finish finishGood => ?_
      split
      · exact .ok (List.forall_mem_cons.2 ⟨startGood _ rfl,
          List.forall_mem_singleton.2 (finishGood _ rfl)⟩)
      · exact .ok (List.forall_mem_singleton.2 (startGood _ rfl))
      · exact .ok (List.forall_mem_singleton.2 (finishGood _ rfl))
      · exact .error _
  refine span.bind fun made good => .ok ?_
  have conditions : Group.QuotedIn kind (made.comparisons.map fun part =>
      Sparql.Element.filter (.compare (.var Listing.TimeSpan.datetime) part.1 (.literal part.2))) := by
    generalize made.comparisons = parts at good
    induction parts with
    | nil => exact Group.quotedIn_nil
    | cons part rest inductionHypothesis =>
      rw [List.forall_mem_cons] at good
      exact (Group.quotedIn_cons _ _).2 ⟨by simp [good.1], inductionHypothesis good.2⟩
  simpa [Listing.TimeSpan.lower, Listing.focus] using conditions

section Selection

variable (functions : compiler.functions.QuotedIn fun literal => ¬ literal.IsGeometry)
  (target : compiler.configuration.target ≠ .qlever)

include functions target

/-- Every restriction refers. -/
theorem quotedIn_of_restricts {group : Group} (restricts : Restricts compiler request group) :
    group.QuotedIn (compiler.Refers request) := by
  cases restricts with
  | @endpoint shape _ given lowered =>
    obtain ⟨fragment, succeeds, rfl⟩ := ofEndpoint_ok lowered
    have plain : Lowering.Plain ⟨.endpoint, Listing.focus, []⟩ := ⟨by decide, rfl⟩
    have values : shape.values ⊆ compiler.shapeValues request := by
      intro value member
      exact List.mem_append_left _ (List.mem_flatMap.2
        ⟨shape, Option.mem_toList.2 given, member⟩)
    exact (Lowering.quotedIn_nodeShape plain (Term.quotedIn_var _) (refers_values values)
      succeeds).pattern
  | @filter document _ given lowered =>
    obtain ⟨filter, read, translated⟩ := ofFilter_ok lowered
    have quoted : compiler.translator.QuotedIn (compiler.Refers request) := {
      plain := fun _ => .plain
      functions := fun function member arguments suffix =>
        (functions function member arguments suffix).mono
          fun _ written literal inside => .plain (written literal inside)
      queryables := fun entry member => refers_values fun value inside =>
        List.mem_append_right _ (List.mem_flatMap.2 ⟨entry, member, inside⟩)
      target }
    exact Filter.Translator.quotedIn_translate quoted read
      (fun _ placed => .filter given read placed) group translated
  | box given lowered =>
    rw [ofBox, if_neg fun empty => given (List.isEmpty_iff.1 empty)] at lowered
    obtain ⟨geometry, read, related⟩ := bind_ok.1 (mapError_ok.1 lowered)
    exact Filter.SpatialFilter.quotedIn_lower _ (Term.quotedIn_var _) (.box read) target group
      related
  | time given lowered => exact quotedIn_ofTime (fun _ => .plain) _ group lowered

/-- Every literal of a selection refers. -/
theorem refers_of_selection {selection : Group}
    (selected : compiler.selection request = .ok selection) :
    ∀ literal ∈ Sparql.groupLiterals selection, compiler.Refers request literal := by
  obtain ⟨parts, rfl, restrictions⟩ := restricts_of_selection selected
  refine Group.QuotedIn.flatten fun part member => ?_
  rcases restrictions part member with rfl | restricts
  · exact Group.quotedIn_nil
  · exact quotedIn_of_restricts functions target restricts

omit functions target in
/-- An inquiry for the resources of a selection has an answer only if the selection has one. -/
theorem exists_selection {inquiry : Inquiry} {query : Query}
    (asks : inquiry.request? = some request) (answered : compiler.answer? inquiry = some query) :
    ∃ selection, compiler.selection request = .ok selection := by
  cases inquiry with
  | listing profile own =>
    cases asks
    obtain ⟨_, -, further⟩ := bind_ok.1 (toOption_eq_some.1 answered)
    obtain ⟨_, -, further⟩ := bind_ok.1 further
    obtain ⟨selection, selected, -⟩ := bind_ok.1 further
    exact ⟨selection, selected⟩
  | count own =>
    cases asks
    obtain ⟨selection, selected, -⟩ := bind_ok.1 (toOption_eq_some.1 answered)
    exact ⟨selection, selected⟩
  | facets shape own =>
    cases asks
    obtain ⟨selection, selected, -⟩ := bind_ok.1 (toOption_eq_some.1 answered)
    exact ⟨selection, selected⟩
  | _ => cases asks

/-- Every geometry of a selection, unless a configured shape asks for it, starts with the coordinate
reference system of the request, or is one of the filter and starts with the configured one. -/
theorem system_before_geometry {inquiry : Inquiry} {query : Query}
    (asks : inquiry.request? = some request) (answered : compiler.answer? inquiry = some query) :
    ∃ selection, compiler.selection request = .ok selection ∧
      ∀ text, .typed text Vocabulary.geoWktLiteral ∈ Sparql.groupLiterals selection →
        .literal (.typed text Vocabulary.geoWktLiteral) ∈ compiler.shapeValues request ∨
        ("<" ++ compiler.system request ++ "> ").toList <+: text.toList ∨
        ("<" ++ compiler.configuration.system ++ "> ").toList <+: text.toList ∧
          ∃ document filter, request.filter = some document ∧
            Filter.Expression.ofJson document = .ok filter ∧ filter.geometries ≠ [] := by
  obtain ⟨selection, selected⟩ := exists_selection asks answered
  refine ⟨selection, selected, fun text member => ?_⟩
  have starts {system : String} {geometry : Filter.Geometry}
      (same : geometry.literal system = .typed text Vocabulary.geoWktLiteral) :
      ("<" ++ system ++ "> ").toList <+: text.toList := by
    obtain ⟨rfl, -⟩ := Literal.typed.inj same
    exact ⟨geometry.wellKnownText.toList, String.toList_append.symm⟩
  have refers := refers_of_selection functions target selected _ member
  generalize written : Literal.typed text Vocabulary.geoWktLiteral = literal at refers
  cases refers with
  | plain other => exact absurd (written ▸ rfl : literal.IsGeometry) other
  | shape asked => exact .inl (written ▸ asked)
  | box read => exact .inr (.inl (starts written.symm))
  | @filter document filter geometry given read placed =>
    exact .inr (.inr ⟨starts written.symm, document, filter, given, read,
      List.ne_nil_of_mem placed⟩)

end Selection

/-- A request for the things in a box, with a coordinate reference system. -/
def boxRequest : Request :=
  { Request.all with
    parameters := { Listing.Parameters.standard with
      box := [.ofInt 0, .ofInt 0, .ofInt 1, .ofInt 1]
      system := some "http://example.org/crs" } }

theorem system_before_geometry_box :
    (ofConfiguration .standard).functions.QuotedIn (fun literal => ¬ literal.IsGeometry) ∧
    (ofConfiguration .standard).configuration.target ≠ .qlever ∧
    (Inquiry.count boxRequest).request? = some boxRequest ∧
    ∃ query, (ofConfiguration .standard).answer? (.count boxRequest) = some query ∧
      ∃ selection, (ofConfiguration .standard).selection boxRequest = .ok selection ∧
        ∀ text, .typed text Vocabulary.geoWktLiteral ∈ Sparql.groupLiterals selection →
          "<http://example.org/crs> ".toList <+: text.toList := by
  have functions := @Filter.Registry.standard_quotedIn _ fun literal other => other
  have target : (ofConfiguration .standard).configuration.target ≠ .qlever := by decide
  have succeeds : ((ofConfiguration .standard).count boxRequest).isOk = true := by decide +kernel
  obtain ⟨query, counted⟩ := Success.exists_ok succeeds
  have answered : (ofConfiguration .standard).answer? (.count boxRequest) = some query :=
    toOption_eq_some.2 counted
  obtain ⟨selection, selected, starts⟩ := system_before_geometry functions target rfl answered
  refine ⟨functions, target, rfl, query, answered, selection, selected, fun text member => ?_⟩
  rcases starts text member with asked | own | ⟨-, document, filter, given, -⟩
  · cases asked
  · exact own
  · cases given

/-- A filter for the things at a point. -/
def pointFilter : Json :=
  .object [("op", .string "s_intersects"),
    ("args", .array [.object [("property", .string "geometry")],
      .object [("type", .string "Point"),
        ("coordinates", .array [.number (.integer 1), .number (.integer 2)])]])]

/-- A request for the things at a point, with a coordinate reference system. -/
def pointRequest : Request :=
  { Request.all with
    filter := some pointFilter
    parameters := { Listing.Parameters.standard with system := some "http://example.org/crs" } }

/-- The coordinate reference system of a request does not reach the geometries of its filter. -/
theorem system_missing_before_geometry :
    ∃ query selection text,
      (ofConfiguration .standard).answer? (.count pointRequest) = some query ∧
      (ofConfiguration .standard).selection pointRequest = .ok selection ∧
      .typed text Vocabulary.geoWktLiteral ∈ Sparql.groupLiterals selection ∧
      ¬ "<http://example.org/crs> ".toList <+: text.toList := by
  let geometry : Filter.Geometry := .point [.ofInt 1, .ofInt 2]
  let filter : Filter.SpatialFilter := ⟨.intersects, geometry, Filter.defaultReferenceSystem,
    Filter.Translator.focus, toString 1⟩
  let selection : Group := Group.ofTriples filter.geometryTriples
    ++ [.filter (.call (.custom Vocabulary.geofSfIntersects)
      [.var filter.geometryText, .literal filter.literal])]
  have read : Filter.Expression.ofJson pointFilter =
      .ok (.leaf (.spatial .intersects ⟨"geometry", false⟩ geometry)) := by
    rw [Filter.Expression.ofJson]
    rfl
  have filtered : (ofConfiguration .standard).ofFilter pointFilter = .ok selection := by
    show Except.mapError Listing.BuildError.filter (Filter.Expression.ofJson pointFilter >>= _) = _
    rw [read]
    rfl
  have selected : (ofConfiguration .standard).selection pointRequest = .ok selection :=
    bind_ok.2 ⟨[], rfl, bind_ok.2 ⟨selection, filtered, bind_ok.2 ⟨[], rfl, bind_ok.2 ⟨[], rfl,
      rfl⟩⟩⟩⟩
  have counted : (ofConfiguration .standard).count pointRequest =
      .ok (Listing.Count.query selection) := bind_ok.2 ⟨selection, selected, rfl⟩
  refine ⟨_, selection, _, toOption_eq_some.2 counted, selected, List.mem_cons_self, fun starts => ?_⟩
  have configured : ("<" ++ Filter.defaultReferenceSystem ++ "> ").toList <+:
      ("<" ++ Filter.defaultReferenceSystem ++ "> " ++ geometry.wellKnownText).toList :=
    ⟨geometry.wellKnownText.toList, String.toList_append.symm⟩
  exact absurd (List.prefix_of_prefix_length_le starts configured (by decide)) (by decide)

end Compiler

end ShapeQuery
