/-
This file compares the coordinates that are accepted for a geometry of several members with those
that are accepted for its members. Points and lines are checked alike in both. A polygon is checked
further than a member of a multipolygon: only its own rings have to have four positions.
-/
import ShapeQuery.Proofs.Filter.Arguments

namespace ShapeQuery.Filter

/-! ### Lists of a form -/

/-- A list of a form whose members are good exists as soon as there is a good member for each
element. -/
theorem exists_listOf_iff {α : Type} {form : Json → α → Prop} {good : α → Prop}
    {elements : List Json} :
    (∃ results, Json.ListOf form (.array elements) results ∧ ∀ result ∈ results, good result) ↔
      ∀ element ∈ elements, ∃ result, form element result ∧ good result := by
  constructor
  · rintro ⟨results, ⟨each⟩, all⟩
    induction each with
    | nil => exact fun _ member => absurd member List.not_mem_nil
    | cons first _ inductionHypothesis =>
      rw [List.forall_mem_cons] at all
      exact List.forall_mem_cons.2 ⟨⟨_, first, all.1⟩, inductionHypothesis all.2⟩
  · intro each
    induction elements with
    | nil => exact ⟨[], .array .nil, fun _ member => absurd member List.not_mem_nil⟩
    | cons element rest inductionHypothesis =>
      rw [List.forall_mem_cons] at each
      obtain ⟨⟨first, form, good⟩, others⟩ := each
      obtain ⟨results, ⟨forms⟩, all⟩ := inductionHypothesis others
      exact ⟨first :: results, .array (.cons form forms), List.forall_mem_cons.2 ⟨good, all⟩⟩

namespace Geometry

/-! ### Accepted coordinates -/

/-- The document of a geometry: its type and its coordinates. -/
def document (type : String) (coordinates : Json) : Json :=
  .object [("type", .string type), ("coordinates", coordinates)]

/-- Whether coordinates are accepted for a type of geometries. -/
def Accepted (type : String) (coordinates : Json) : Prop :=
  ∃ geometry, ofJson (document type coordinates) = .ok geometry

/-- Whether a position has two or three finite ordinates. -/
def IsProper (position : Position) : Prop :=
  (position.length = 2 ∨ position.length = 3) ∧
    ∀ ordinate ∈ position, ordinate.isFinite = true

theorem sound_iff {geometry : Geometry} :
    geometry.Sound ↔ (∀ position ∈ geometry.positions, IsProper position) ∧
      ∀ rings, geometry = .polygon rings → ∀ ring ∈ rings, 4 ≤ ring.length := by
  constructor
  · rintro ⟨size, finite, ring⟩
    exact ⟨fun position member => ⟨size position member, finite position member⟩, ring⟩
  · rintro ⟨proper, ring⟩
    exact ⟨fun position member => (proper position member).1,
      fun position member => (proper position member).2, ring⟩

theorem sound_iff_proper {geometry : Geometry} (other : ∀ rings, geometry ≠ .polygon rings) :
    geometry.Sound ↔ ∀ position ∈ geometry.positions, IsProper position :=
  sound_iff.trans (and_iff_left fun rings same => absurd same (other rings))

theorem sound_polygon {rings : List (List Position)} :
    (polygon rings).Sound ↔ (∀ ring ∈ rings, ∀ position ∈ ring, IsProper position) ∧
      ∀ ring ∈ rings, 4 ≤ ring.length := by
  rw [sound_iff, ← List.forall_mem_flatten]
  refine and_congr_right fun _ => ⟨fun long => long rings rfl, ?_⟩
  rintro long _ ⟨⟩
  exact long

/-- Coordinates are accepted if they have the form of their type and make a sound geometry. -/
theorem accepted_iff {α : Type} {type : String} {read : Json → Except Json.Fault α}
    {form : Json → α → Prop} {make : α → Geometry} (reads : Reads read form)
    (located : readers.lookup type = some fun coordinates => (read coordinates).map make)
    {coordinates : Json} :
    Accepted type coordinates ↔ ∃ value, form coordinates value ∧ (make value).Sound := by
  have made {geometry : Geometry} : Coordinates type coordinates geometry ↔
      ∃ value, form coordinates value ∧ make value = geometry := by
    rw [← readers_ok, ← map_reads reads, located]
    constructor
    · rintro ⟨_, ⟨⟩, succeeds⟩
      exact succeeds
    · exact fun succeeds => ⟨_, rfl, succeeds⟩
  constructor
  · rintro ⟨geometry, succeeds⟩
    cases (Geometry.reads ..).1 succeeds with
    | box boxed => cases boxed
    | tagged _ tagged coordinates sound =>
      cases tagged with
      | object typed named given =>
        cases typed
        cases named
        cases given
        obtain ⟨value, form, rfl⟩ := made.1 coordinates
        exact ⟨value, form, sound⟩
  · rintro ⟨value, form, sound⟩
    have tagged : Tagged (document type coordinates) type coordinates :=
      .object rfl (.text type) rfl
    exact ⟨make value, (Geometry.reads ..).2 (.tagged rfl tagged (made.2 ⟨value, form, rfl⟩) sound)⟩

theorem reads_position : Reads (Json.readList Json.readFloat) Position.Form :=
  Json.reads_readList Json.reads_readFloat

theorem reads_line : Reads (Json.readList (Json.readList Json.readFloat)) Position.LineForm :=
  Json.reads_readList reads_position

theorem reads_lines :
    Reads (Json.readList (Json.readList (Json.readList Json.readFloat))) Position.LinesForm :=
  Json.reads_readList reads_line

variable {coordinates : Json}

theorem accepted_point :
    Accepted "Point" coordinates ↔
      ∃ position, Position.Form coordinates position ∧ IsProper position :=
  (accepted_iff reads_position rfl).trans <| exists_congr fun _ =>
    and_congr_right fun _ => (sound_iff_proper (by nofun)).trans List.forall_mem_singleton

theorem accepted_multiPoint :
    Accepted "MultiPoint" coordinates ↔
      ∃ positions, Position.LineForm coordinates positions ∧
        ∀ position ∈ positions, IsProper position :=
  (accepted_iff reads_line rfl).trans <| exists_congr fun _ =>
    and_congr_right fun _ => sound_iff_proper (by nofun)

theorem accepted_lineString :
    Accepted "LineString" coordinates ↔
      ∃ positions, Position.LineForm coordinates positions ∧
        ∀ position ∈ positions, IsProper position :=
  (accepted_iff reads_line rfl).trans <| exists_congr fun _ =>
    and_congr_right fun _ => sound_iff_proper (by nofun)

theorem accepted_multiLineString :
    Accepted "MultiLineString" coordinates ↔
      ∃ lines, Position.LinesForm coordinates lines ∧
        ∀ line ∈ lines, ∀ position ∈ line, IsProper position :=
  (accepted_iff reads_lines rfl).trans <| exists_congr fun _ =>
    and_congr_right fun _ => (sound_iff_proper (by nofun)).trans List.forall_mem_flatten

theorem accepted_polygon :
    Accepted "Polygon" coordinates ↔
      ∃ rings, Position.LinesForm coordinates rings ∧
        (∀ ring ∈ rings, ∀ position ∈ ring, IsProper position) ∧
        ∀ ring ∈ rings, 4 ≤ ring.length :=
  (accepted_iff reads_lines rfl).trans <| exists_congr fun _ =>
    and_congr_right fun _ => sound_polygon

theorem accepted_multiPolygon :
    Accepted "MultiPolygon" coordinates ↔
      ∃ polygons, Json.ListOf Position.LinesForm coordinates polygons ∧
        ∀ rings ∈ polygons, ∀ ring ∈ rings, ∀ position ∈ ring, IsProper position :=
  (accepted_iff (Json.reads_readList reads_lines) rfl).trans <| exists_congr fun _ =>
    and_congr_right fun _ => (sound_iff_proper (by nofun)).trans
      (List.forall_mem_flatten.trans List.forall_mem_flatten)

/-! ### Rings -/

/-- Whether every list among some rings has at least four elements. -/
def LongRings : Json → Prop
  | .array rings => ∀ positions, Json.array positions ∈ rings → 4 ≤ positions.length
  | _ => True

theorem longRings_iff {rings : List (List Position)}
    (form : Position.LinesForm coordinates rings) :
    LongRings coordinates ↔ ∀ ring ∈ rings, 4 ≤ ring.length := by
  obtain ⟨each⟩ := form
  induction each with
  | nil => exact ⟨fun _ => List.forall_mem_nil _, fun _ _ member => absurd member List.not_mem_nil⟩
  | cons first _ inductionHypothesis =>
    obtain @⟨positions, _, points⟩ := first
    rw [List.forall_mem_cons, ← inductionHypothesis, ← points.length_eq]
    constructor
    · exact fun long => ⟨long positions List.mem_cons_self,
        fun others member => long others (List.mem_cons_of_mem _ member)⟩
    · rintro ⟨here, long⟩ others member
      rcases List.mem_cons.1 member with same | later
      · cases same
        exact here
      · exact long others later

/-- A polygon is accepted if its rings are accepted as lines and are long enough. -/
theorem accepted_polygon_iff :
    Accepted "Polygon" coordinates ↔
      Accepted "MultiLineString" coordinates ∧ LongRings coordinates := by
  rw [accepted_polygon, accepted_multiLineString]
  constructor
  · rintro ⟨rings, form, proper, long⟩
    exact ⟨⟨rings, form, proper⟩, (longRings_iff form).2 long⟩
  · rintro ⟨⟨rings, form, proper⟩, long⟩
    exact ⟨rings, form, proper, (longRings_iff form).1 long⟩

/-- The members of a multipolygon are checked as lines are, not as polygons. -/
theorem accepted_multiPolygon_iff {members : List Json} :
    Accepted "MultiPolygon" (.array members) ↔
      ∀ member ∈ members, Accepted "MultiLineString" member := by
  rw [accepted_multiPolygon, exists_listOf_iff]
  exact forall₂_congr fun _ _ => accepted_multiLineString.symm

/-- Some points or lines are accepted together if and only if each of them is accepted alone. For
polygons this holds as long as every ring has four positions; a ring that has fewer is refused in a
polygon, but not in a multipolygon. -/
theorem accepted_iff_members (members : List Json) :
    (Accepted "MultiPoint" (.array members) ↔ ∀ member ∈ members, Accepted "Point" member) ∧
      (Accepted "MultiLineString" (.array members) ↔
        ∀ member ∈ members, Accepted "LineString" member) ∧
      (Accepted "MultiPolygon" (.array members) ∧ (∀ member ∈ members, LongRings member) ↔
        ∀ member ∈ members, Accepted "Polygon" member) := by
  refine ⟨?_, ?_, ?_⟩
  · rw [accepted_multiPoint, exists_listOf_iff]
    exact forall₂_congr fun _ _ => accepted_point.symm
  · rw [accepted_multiLineString, exists_listOf_iff]
    exact forall₂_congr fun _ _ => accepted_lineString.symm
  · rw [accepted_multiPolygon_iff, ← forall₂_and]
    exact forall₂_congr fun _ _ => accepted_polygon_iff.symm

/-- The rings of a polygon whose only ring is a single position. -/
def singlePosition : Json :=
  .array [.array [.array [.number (.integer 0), .number (.integer 0)]]]

/-- A multipolygon may have a ring of a single position, which no polygon may have. -/
theorem short_ring_accepted :
    ¬ (Accepted "MultiPolygon" (.array [singlePosition]) ↔
        ∀ member ∈ [singlePosition], Accepted "Polygon" member) := by
  intro same
  have together : Accepted "MultiPolygon" (.array [singlePosition]) :=
    ⟨.multiPolygon [[[[.ofInt 0, .ofInt 0]]]], rfl⟩
  have alone := same.1 together singlePosition List.mem_cons_self
  have long : 4 ≤ 1 := (accepted_polygon_iff.1 alone).2 _ List.mem_cons_self
  omega

end Geometry

end ShapeQuery.Filter
