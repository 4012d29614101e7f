/-
This file gives the forms of the arguments of filters, which are properties, values, geometries and
operands of temporal relations, and proves that exactly what has a form is read. A form speaks of
the members of objects and of the elements of arrays; it knows nothing of errors, nor of the order
in which anything is read.
-/
import Mathlib.Data.List.Forall2
import ShapeQuery.Filter.Expression
import ShapeQuery.Proofs.Success

namespace ShapeQuery

open Success (bind_ok error_ne_ok map_ok mapError_ok mapM_cons_ok)

/-! ### Readers of a form -/

/-- Whether a reader reads exactly what has a form, to what the form says that it stands for. -/
def Reads {ε α β : Type} (read : α → Except ε β) (form : α → β → Prop) : Prop :=
  ∀ source result, read source = .ok result ↔ form source result

namespace Reads

variable {ε α β : Type} {read : α → Except ε β} {form : α → β → Prop}

theorem mapM (reads : Reads read form) : Reads (List.mapM read) (List.Forall₂ form) := by
  intro sources
  induction sources with
  | nil =>
    intro results
    rw [List.forall₂_nil_left_iff]
    exact ⟨fun same => (Except.ok.inj same).symm, fun same => congrArg Except.ok same.symm⟩
  | cons source rest inductionHypothesis =>
    intro results
    rw [mapM_cons_ok, List.forall₂_cons_left_iff]
    constructor
    · rintro ⟨first, others, firstRead, othersRead, rfl⟩
      exact ⟨first, others, (reads ..).1 firstRead, (inductionHypothesis _).1 othersRead, rfl⟩
    · rintro ⟨first, others, firstForm, othersForm, rfl⟩
      exact ⟨first, others, (reads ..).2 firstForm, (inductionHypothesis _).2 othersForm, rfl⟩

end Reads

namespace Json

/-- A number as a floating point number. -/
inductive IsFloat : Json → Number.Binary64 → Prop
  | number (value : JsonNumber) : IsFloat (.number value) value.toBinary64

/-- An array whose elements have a form. -/
inductive ListOf {α : Type} (form : Json → α → Prop) : Json → List α → Prop
  | array {elements : List Json} {results : List α} (each : List.Forall₂ form elements results) :
    ListOf form (.array elements) results

/-- The name of a variant: a text, or the only key of an object that leads to null. -/
inductive IsName : Json → String → Prop
  | text (name : String) : IsName (.string name) name
  | key (name : String) : IsName (.object [(name, .null)]) name

theorem float?_eq_some {document : Json} {value : Number.Binary64} :
    document.float? = some value ↔ IsFloat document value := by
  constructor
  · intro found
    cases document <;> cases found
    exact .number _
  · rintro ⟨number⟩
    rfl

theorem mapM_float? {elements : List Json} {values : List Number.Binary64} :
    elements.mapM float? = some values ↔ List.Forall₂ IsFloat elements values := by
  induction elements generalizing values with
  | nil =>
    rw [List.forall₂_nil_left_iff]
    exact ⟨fun same => (Option.some.inj same).symm, fun same => congrArg some same.symm⟩
  | cons element rest inductionHypothesis =>
    simp only [List.mapM_cons, Option.bind_eq_bind, Option.bind_eq_some_iff, Option.pure_def,
      Option.some.injEq, float?_eq_some, inductionHypothesis, List.forall₂_cons_left_iff]
    constructor
    · rintro ⟨first, firstForm, others, othersForm, same⟩
      exact ⟨first, others, firstForm, othersForm, same.symm⟩
    · rintro ⟨first, others, firstForm, othersForm, same⟩
      exact ⟨first, firstForm, others, othersForm, same.symm⟩

theorem reads_readFloat : Reads readFloat IsFloat := by
  intro document value
  rw [← float?_eq_some, readFloat]
  cases document.float? with
  | none => exact iff_of_false nofun nofun
  | some float => exact ⟨fun same => congrArg some (Except.ok.inj same),
      fun same => congrArg Except.ok (Option.some.inj same)⟩

theorem reads_readList {α : Type} {read : Json → Except Fault α} {form : Json → α → Prop}
    (reads : Reads read form) : Reads (readList read) (ListOf form) := by
  intro document results
  constructor
  · intro succeeds
    obtain ⟨elements, elementsRead, further⟩ := bind_ok.1 succeeds
    cases document <;> cases elementsRead
    exact .array ((reads.mapM ..).1 further)
  · rintro ⟨each⟩
    exact (reads.mapM ..).2 each

theorem readVariant_ok {α : Type} {known : List (String × α)} {document : Json} {variant : α} :
    readVariant known document = .ok variant ↔
      ∃ name, IsName document name ∧ known.lookup name = some variant := by
  constructor
  · intro succeeds
    unfold readVariant at succeeds
    dsimp only at succeeds
    split at succeeds
    · rename_i name
      split at succeeds
      · rename_i located
        cases succeeds
        exact ⟨name, .text name, located⟩
      · cases succeeds
    · rename_i name content
      obtain ⟨found, chosen, further⟩ := bind_ok.1 succeeds
      split at chosen
      · rename_i located
        cases chosen
        split at further
        · cases further
          exact ⟨name, .key name, located⟩
        · cases further
      · cases chosen
    · cases succeeds
    · cases succeeds
  · rintro ⟨name, named, located⟩
    unfold readVariant
    cases named with
    | text =>
      dsimp only
      rw [located]
    | key =>
      dsimp only
      rw [located]
      rfl

end Json

namespace Filter

/-! ### Properties and values -/

/-- A property reference: an object that names the property. -/
inductive Property.Form : Json → Property → Prop
  | reference {members : List (String × Json)} {name : String}
    (named : Json.lookup "property" members = some (.string name)) :
    Form (.object members) (.ofName name)

/-- A day or a moment among the members of an object. A day goes before a moment. -/
inductive TimeForm : List (String × Json) → Literal → Prop
  | day {members : List (String × Json)} {text : String}
    (dated : Json.lookup "date" members = some (.string text))
    (valid : (Calendar.readDate text).isOk = true) :
    TimeForm members (.typed text Vocabulary.xsdDate)
  | moment {members : List (String × Json)} {text : String}
    (undated : Json.lookup "date" members = none)
    (timed : Json.lookup "timestamp" members = some (.string text))
    (valid : (Calendar.readDateTime text).isOk = true) :
    TimeForm members (.typed text Vocabulary.xsdDateTime)

/-- A value: a text, an IRI, a truth value, a number, a day or a moment. -/
inductive Value.Form : Json → Value → Prop
  | text {text : String} (plain : looksLikeIri text = false) :
    Form (.string text) (.literal (.plain text))
  | iri {text : String} {name : Iri} (http : looksLikeIri text = true)
    (valid : Iri.ofText text = .ok name) : Form (.string text) (.iri name)
  | bool (value : Bool) : Form (.bool value) (.literal (.ofBool value))
  | number (number : JsonNumber) : Form (.number number) (.literal (numberLiteral number))
  | time {members : List (String × Json)} {literal : Literal} (form : TimeForm members literal) :
    Form (.object members) (.literal literal)

/-- Some values: a list of them that is not empty, or a single one. -/
inductive Value.ListForm : Json → List Value → Prop
  | listed {elements : List Json} {values : List Value} (given : elements ≠ [])
    (each : List.Forall₂ Value.Form elements values) : ListForm (.array elements) values
  | single {document : Json} {value : Value} (form : Value.Form document value) :
    ListForm document [value]

theorem Property.reads (operator : String) : Reads (Property.ofJson operator) Property.Form := by
  intro document property
  constructor
  · intro succeeds
    unfold Property.ofJson at succeeds
    split at succeeds
    · rename_i name found
      cases succeeds
      obtain ⟨reference, located, named⟩ := Option.bind_eq_some_iff.1 found
      cases document with
      | object members =>
        cases reference <;> cases named
        exact .reference located
      | _ => cases located
    · cases succeeds
  · rintro ⟨named⟩
    unfold Property.ofJson
    rw [Json.member?, named]
    rfl

theorem timeLiteral_ok {α : Type} {read : String → Except Calendar.Fault α} {datatype : Iri}
    {document : Json} {value : Literal} :
    timeLiteral read datatype document = .ok value ↔
      ∃ text, document = .string text ∧ (read text).isOk = true ∧ value = .typed text datatype := by
  cases document with
  | string text =>
    rw [timeLiteral]
    cases result : read text with
    | error fault =>
      refine iff_of_false error_ne_ok ?_
      rintro ⟨other, same, valid, -⟩
      cases same
      rw [result] at valid
      cases valid
    | ok time =>
      constructor
      · intro same
        cases same
        exact ⟨text, rfl, by rw [result]; rfl, rfl⟩
      · rintro ⟨other, same, -, rfl⟩
        cases same
        rfl
  | _ =>
    refine iff_of_false error_ne_ok ?_
    rintro ⟨text, same, -⟩
    cases same

/-- The members of an object that tell of a time are read as such. -/
theorem memberTime_ok {α : Type} {members : List (String × Json)} {change : Literal → α}
    {fault : Error} {result : α} :
    (match Json.lookup "date" members, Json.lookup "timestamp" members with
      | some date, _ => (dateLiteral date).map change
      | none, some timestamp => (timestampLiteral timestamp).map change
      | none, none => .error fault) = .ok result ↔
      ∃ literal, TimeForm members literal ∧ change literal = result := by
  constructor
  · intro succeeds
    split at succeeds
    · rename_i dated
      obtain ⟨literal, read, rfl⟩ := map_ok.1 succeeds
      obtain ⟨text, rfl, valid, rfl⟩ := timeLiteral_ok.1 read
      exact ⟨_, .day dated valid, rfl⟩
    · rename_i undated timed
      obtain ⟨literal, read, rfl⟩ := map_ok.1 succeeds
      obtain ⟨text, rfl, valid, rfl⟩ := timeLiteral_ok.1 read
      exact ⟨_, .moment undated timed valid, rfl⟩
    · cases succeeds
  · rintro ⟨literal, form, rfl⟩
    cases form with
    | day dated valid =>
      rw [dated]
      exact map_ok.2 ⟨_, timeLiteral_ok.2 ⟨_, rfl, valid, rfl⟩, rfl⟩
    | moment undated timed valid =>
      rw [undated, timed]
      exact map_ok.2 ⟨_, timeLiteral_ok.2 ⟨_, rfl, valid, rfl⟩, rfl⟩

theorem Value.reads (operator : String) : Reads (Value.ofJson operator) Value.Form := by
  intro document value
  constructor
  · intro succeeds
    unfold Value.ofJson at succeeds
    split at succeeds
    · rename_i text
      split at succeeds
      · rename_i http
        split at succeeds
        · rename_i name valid
          cases succeeds
          exact .iri http valid
        · cases succeeds
      · rename_i plain
        cases succeeds
        exact .text (Bool.eq_false_iff.2 plain)
    · cases succeeds
      exact .bool _
    · cases succeeds
      exact .number _
    · obtain ⟨literal, form, rfl⟩ := memberTime_ok.1 succeeds
      exact .time form
    · cases succeeds
  · intro form
    cases form with
    | text plain => exact if_neg (Bool.eq_false_iff.1 plain)
    | iri http valid =>
      refine (if_pos http).trans ?_
      rw [valid]
    | bool value => rfl
    | number number => rfl
    | time form => exact memberTime_ok.2 ⟨_, form, rfl⟩

theorem Value.reads_list (operator : String) :
    Reads (Value.listOfJson operator) Value.ListForm := by
  intro document values
  constructor
  · intro succeeds
    unfold Value.listOfJson at succeeds
    split at succeeds
    · cases succeeds
    · rename_i elements given
      exact .listed given (((Value.reads operator).mapM ..).1 succeeds)
    · obtain ⟨value, read, rfl⟩ := map_ok.1 succeeds
      exact .single ((Value.reads operator ..).1 read)
  · intro form
    cases form with
    | listed given each =>
      cases each with
      | nil => exact absurd rfl given
      | cons first others => exact ((Value.reads operator).mapM ..).2 (.cons first others)
    | single form =>
      unfold Value.listOfJson
      split
      · cases form
      · cases form
      · rw [(Value.reads operator ..).2 form]
        rfl

/-! ### Geometries -/

/-- The ordinates of a position. -/
abbrev Position.Form : Json → Position → Prop := Json.ListOf Json.IsFloat

/-- The positions of a line. -/
abbrev Position.LineForm : Json → List Position → Prop := Json.ListOf Position.Form

/-- Some lines. -/
abbrev Position.LinesForm : Json → List (List Position) → Prop := Json.ListOf Position.LineForm

namespace Geometry

/-- The coordinates of a geometry of a type. -/
inductive Coordinates : String → Json → Geometry → Prop
  | point {document : Json} {position : Position} (form : Position.Form document position) :
    Coordinates "Point" document (.point position)
  | multiPoint {document : Json} {positions : List Position}
    (form : Position.LineForm document positions) :
    Coordinates "MultiPoint" document (.multiPoint positions)
  | lineString {document : Json} {positions : List Position}
    (form : Position.LineForm document positions) :
    Coordinates "LineString" document (.lineString positions)
  | multiLineString {document : Json} {lines : List (List Position)}
    (form : Position.LinesForm document lines) :
    Coordinates "MultiLineString" document (.multiLineString lines)
  | polygon {document : Json} {rings : List (List Position)}
    (form : Position.LinesForm document rings) :
    Coordinates "Polygon" document (.polygon rings)
  | multiPolygon {document : Json} {polygons : List (List (List Position))}
    (form : Json.ListOf Position.LinesForm document polygons) :
    Coordinates "MultiPolygon" document (.multiPolygon polygons)

/-- A type with coordinates: the members of an object, or the two elements of an array. -/
inductive Tagged : Json → String → Json → Prop
  | object {members : List (String × Json)} {type coordinates : Json} {name : String}
    (typed : Json.lookup "type" members = some type) (named : Json.IsName type name)
    (given : Json.lookup "coordinates" members = some coordinates) :
    Tagged (.object members) name coordinates
  | array (name : String) (coordinates : Json) :
    Tagged (.array [.string name, coordinates]) name coordinates

/-- Whether the positions of a geometry have two or three finite ordinates and the rings of a
polygon four positions. -/
structure Sound (geometry : Geometry) : Prop where
  size : ∀ position ∈ geometry.positions, position.length = 2 ∨ position.length = 3
  finite : ∀ position ∈ geometry.positions, ∀ ordinate ∈ position, ordinate.isFinite = true
  ring : ∀ rings, geometry = .polygon rings → ∀ ring ∈ rings, 4 ≤ ring.length

/-- A geometry: a box of four numbers, or a type with coordinates. -/
inductive Form : Json → Geometry → Prop
  | box {members : List (String × Json)} {sides : List Json}
    {west south east north : Number.Binary64}
    (boxed : Json.lookup "bbox" members = some (.array sides))
    (each : List.Forall₂ Json.IsFloat sides [west, south, east, north]) :
    Form (.object members) (.polygon
      [[[west, south], [west, north], [east, north], [east, south], [west, south]]])
  | tagged {document coordinates : Json} {name : String} {geometry : Geometry}
    (unboxed : document.member? "bbox" = none) (tagged : Tagged document name coordinates)
    (form : Coordinates name coordinates geometry) (sound : geometry.Sound) :
    Form document geometry

theorem map_reads {α : Type} {read : Json → Except Json.Fault α} {form : Json → α → Prop}
    (reads : Reads read form) {change : α → Geometry} {document : Json} {geometry : Geometry} :
    (read document).map change = .ok geometry ↔
      ∃ result, form document result ∧ change result = geometry :=
  map_ok.trans (exists_congr fun result => and_congr_left fun _ => reads document result)

/-- The readers of coordinates are those of the types. -/
theorem readers_ok {name : String} {document : Json} {geometry : Geometry} :
    (∃ read, readers.lookup name = some read ∧ read document = .ok geometry) ↔
      Coordinates name document geometry := by
  have position : Reads (Json.readList Json.readFloat) Position.Form :=
    Json.reads_readList Json.reads_readFloat
  have line := Json.reads_readList position
  have lines := Json.reads_readList line
  have polygons := Json.reads_readList lines
  constructor
  · rintro ⟨read, located, succeeds⟩
    obtain ⟨before, after, split, -⟩ := List.lookup_eq_some_iff.1 located
    have member : (name, read) ∈ readers := by
      rw [split]
      exact List.mem_append_right _ List.mem_cons_self
    simp only [readers, List.mem_cons, List.not_mem_nil, or_false, Prod.mk.injEq] at member
    rcases member with ⟨rfl, rfl⟩ | ⟨rfl, rfl⟩ | ⟨rfl, rfl⟩ | ⟨rfl, rfl⟩ | ⟨rfl, rfl⟩ | ⟨rfl, rfl⟩
    · obtain ⟨result, form, rfl⟩ := (map_reads position).1 succeeds
      exact .point form
    · obtain ⟨result, form, rfl⟩ := (map_reads line).1 succeeds
      exact .multiPoint form
    · obtain ⟨result, form, rfl⟩ := (map_reads line).1 succeeds
      exact .lineString form
    · obtain ⟨result, form, rfl⟩ := (map_reads lines).1 succeeds
      exact .multiLineString form
    · obtain ⟨result, form, rfl⟩ := (map_reads lines).1 succeeds
      exact .polygon form
    · obtain ⟨result, form, rfl⟩ := (map_reads polygons).1 succeeds
      exact .multiPolygon form
  · intro coordinates
    cases coordinates with
    | point form => exact ⟨_, rfl, (map_reads position).2 ⟨_, form, rfl⟩⟩
    | multiPoint form => exact ⟨_, rfl, (map_reads line).2 ⟨_, form, rfl⟩⟩
    | lineString form => exact ⟨_, rfl, (map_reads line).2 ⟨_, form, rfl⟩⟩
    | multiLineString form => exact ⟨_, rfl, (map_reads lines).2 ⟨_, form, rfl⟩⟩
    | polygon form => exact ⟨_, rfl, (map_reads lines).2 ⟨_, form, rfl⟩⟩
    | multiPolygon form => exact ⟨_, rfl, (map_reads polygons).2 ⟨_, form, rfl⟩⟩

theorem form_ok {document : Json} {geometry : Geometry} :
    form document = .ok geometry ↔
      ∃ name coordinates, Tagged document name coordinates ∧
        Coordinates name coordinates geometry := by
  constructor
  · intro succeeds
    unfold form at succeeds
    split at succeeds
    · split at succeeds
      · cases succeeds
      · rename_i type typed
        obtain ⟨read, variant, further⟩ := bind_ok.1 succeeds
        obtain ⟨name, named, located⟩ := Json.readVariant_ok.1 variant
        split at further
        · cases further
        · rename_i coordinates given
          exact ⟨name, coordinates, .object typed named given,
            readers_ok.1 ⟨read, located, further⟩⟩
    · rename_i elements
      split at succeeds
      · cases succeeds
      · rename_i type rest
        dsimp only at succeeds
        split at succeeds
        · rename_i name
          obtain ⟨read, variant, further⟩ := bind_ok.1 succeeds
          obtain ⟨other, named, located⟩ := Json.readVariant_ok.1 variant
          cases named
          split at further
          · cases further
          · rename_i coordinates others
            obtain ⟨made, madeRead, last⟩ := bind_ok.1 further
            split at last
            · rename_i empty
              cases last
              rw [List.isEmpty_iff.1 empty]
              exact ⟨name, coordinates, .array name coordinates,
                readers_ok.1 ⟨read, located, madeRead⟩⟩
            · cases last
        · obtain ⟨_, failed, -⟩ := bind_ok.1 succeeds
          cases failed
    · cases succeeds
  · rintro ⟨name, coordinates, tagged, form⟩
    obtain ⟨read, located, succeeds⟩ := readers_ok.2 form
    cases tagged with
    | object typed named given =>
      unfold Geometry.form
      dsimp only
      rw [typed]
      refine bind_ok.2 ⟨read, Json.readVariant_ok.2 ⟨name, named, located⟩, ?_⟩
      rw [given]
      exact succeeds
    | array =>
      exact bind_ok.2 ⟨read, Json.readVariant_ok.2 ⟨name, .text name, located⟩,
        bind_ok.2 ⟨geometry, succeeds, rfl⟩⟩

theorem checkPosition_ok {position : Position} :
    checkPosition position = .ok () ↔
      (position.length = 2 ∨ position.length = 3) ∧
        ∀ ordinate ∈ position, ordinate.isFinite = true := by
  unfold checkPosition
  split
  · rename_i wrong
    exact iff_of_false error_ne_ok fun sound => by omega
  · rename_i right
    rw [← List.all_eq_true]
    split
    · rename_i finite
      exact iff_of_true rfl ⟨by omega, finite⟩
    · rename_i infinite
      exact iff_of_false error_ne_ok fun sound => infinite sound.2

theorem forM_ok {positions : List Position} :
    positions.forM checkPosition = .ok () ↔
      ∀ position ∈ positions, checkPosition position = .ok () := by
  induction positions with
  | nil => exact iff_of_true rfl fun _ member => absurd member List.not_mem_nil
  | cons position rest inductionHypothesis =>
    rw [List.forall_mem_cons, ← inductionHypothesis]
    show checkPosition position >>= (fun _ => rest.forM checkPosition) = .ok () ↔ _
    rw [bind_ok]
    exact ⟨fun ⟨_, first, others⟩ => ⟨first, others⟩, fun ⟨first, others⟩ => ⟨(), first, others⟩⟩

theorem check_ok {geometry : Geometry} : geometry.check = .ok () ↔ geometry.Sound := by
  have positions : geometry.positions.forM checkPosition = .ok () ↔
      (∀ position ∈ geometry.positions, position.length = 2 ∨ position.length = 3) ∧
        ∀ position ∈ geometry.positions, ∀ ordinate ∈ position, ordinate.isFinite = true := by
    rw [forM_ok, ← forall₂_and]
    exact forall₂_congr fun position _ => checkPosition_ok
  unfold check
  rw [bind_ok]
  constructor
  · rintro ⟨⟨⟩, checked, last⟩
    obtain ⟨size, finite⟩ := positions.1 checked
    refine ⟨size, finite, ?_⟩
    rintro rings rfl ring member
    dsimp only at last
    split at last
    · cases last
    · rename_i long
      simp only [List.any_eq_true, decide_eq_true_eq, not_exists, not_and, Nat.not_lt] at long
      exact long ring member
  · rintro ⟨size, finite, ring⟩
    refine ⟨(), positions.2 ⟨size, finite⟩, ?_⟩
    split
    · rename_i rings
      refine if_neg ?_
      simp only [List.any_eq_true, decide_eq_true_eq, not_exists, not_and, Nat.not_lt]
      exact ring rings rfl
    · rfl

theorem boxOfJson_ok {box : Json} {geometry : Geometry} :
    boxOfJson box = .ok geometry ↔
      ∃ sides west south east north, box = .array sides ∧
        List.Forall₂ Json.IsFloat sides [west, south, east, north] ∧
        geometry = .polygon
          [[[west, south], [west, north], [east, north], [east, south], [west, south]]] := by
  constructor
  · intro succeeds
    unfold boxOfJson at succeeds
    split at succeeds
    · rename_i values found
      obtain ⟨sides, listed, each⟩ := Option.bind_eq_some_iff.1 found
      cases box <;> cases listed
      unfold ofBox at succeeds
      split at succeeds
      · cases succeeds
        exact ⟨_, _, _, _, _, rfl, Json.mapM_float?.1 each, rfl⟩
      · cases succeeds
      · cases succeeds
    · cases succeeds
  · rintro ⟨sides, west, south, east, north, rfl, each, rfl⟩
    have found : (Json.array sides).array?.bind (fun elements => elements.mapM Json.float?) =
        some [west, south, east, north] := Json.mapM_float?.2 each
    unfold boxOfJson
    rw [found]
    rfl

theorem reads : Reads Geometry.ofJson Geometry.Form := by
  intro document geometry
  constructor
  · intro succeeds
    unfold Geometry.ofJson at succeeds
    split at succeeds
    · rename_i box boxed
      obtain ⟨sides, west, south, east, north, rfl, each, rfl⟩ := boxOfJson_ok.1 succeeds
      cases document with
      | object members => exact .box boxed each
      | _ => cases boxed
    · rename_i unboxed
      obtain ⟨made, madeRead, further⟩ := bind_ok.1 succeeds
      obtain ⟨⟨⟩, checked, total⟩ := bind_ok.1 further
      cases total
      obtain ⟨name, coordinates, tagged, form⟩ := form_ok.1 (mapError_ok.1 madeRead)
      exact .tagged unboxed tagged form (check_ok.1 (mapError_ok.1 checked))
  · intro form
    cases form with
    | box boxed each =>
      unfold Geometry.ofJson
      rw [Json.member?, boxed]
      exact boxOfJson_ok.2 ⟨_, _, _, _, _, rfl, each, rfl⟩
    | tagged unboxed tagged form sound =>
      unfold Geometry.ofJson
      rw [unboxed]
      exact bind_ok.2 ⟨geometry, mapError_ok.2 (form_ok.2 ⟨_, _, tagged, form⟩),
        bind_ok.2 ⟨(), mapError_ok.2 (check_ok.2 sound), rfl⟩⟩

end Geometry

/-! ### Operands of temporal relations -/

/-- A bounded side: a text that is a day or a moment, a property, or an object that tells of a
time. A moment is told by the letter before its time of day. -/
inductive TimeValue.Form : Json → TimeValue → Prop
  | day {text : String} (unmarked : text.toList.contains 'T' = false)
    (valid : (Calendar.readDate text).isOk = true) :
    Form (.string text) (.literal (.typed text Vocabulary.xsdDate))
  | moment {text : String} (marked : text.toList.contains 'T' = true)
    (valid : (Calendar.readDateTime text).isOk = true) :
    Form (.string text) (.literal (.typed text Vocabulary.xsdDateTime))
  | property {document : Json} {property : Property} (form : Property.Form document property) :
    Form document (.property property)
  | time {members : List (String × Json)} {literal : Literal}
    (unnamed : Json.lookup "property" members = none) (form : TimeForm members literal) :
    Form (.object members) (.literal literal)

/-- A side that may be unbounded. -/
inductive BoundForm : Json → Option TimeValue → Prop
  | unbounded : BoundForm (.string "..") none
  | bounded {document : Json} {value : TimeValue} (bounded : document ≠ .string "..")
    (form : TimeValue.Form document value) : BoundForm document (some value)

/-- An operand: an interval with two sides, or a single bounded value. -/
inductive TemporalOperand.Form : Json → TemporalOperand → Prop
  | interval {members : List (String × Json)} {first last : Json} {start finish : Option TimeValue}
    (given : Json.lookup "interval" members = some (.array [first, last]))
    (opening : BoundForm first start) (closing : BoundForm last finish) :
    Form (.object members) (.interval start finish)
  | instant {document : Json} {value : TimeValue} (single : document.member? "interval" = none)
    (bounded : document ≠ .string "..") (form : TimeValue.Form document value) :
    Form document (.instant value)

theorem dateOrTimeLiteral_ok {text : String} {literal : Literal} :
    dateOrTimeLiteral text = .ok literal ↔
      TimeValue.Form (.string text) (.literal literal) := by
  unfold dateOrTimeLiteral
  constructor
  · intro succeeds
    split at succeeds
    · rename_i marked
      obtain ⟨other, same, valid, rfl⟩ := timeLiteral_ok.1 succeeds
      cases same
      exact .moment marked valid
    · rename_i unmarked
      obtain ⟨other, same, valid, rfl⟩ := timeLiteral_ok.1 succeeds
      cases same
      exact .day (Bool.eq_false_iff.2 unmarked) valid
  · intro form
    cases form with
    | day unmarked valid =>
      rw [if_neg (Bool.eq_false_iff.1 unmarked)]
      exact timeLiteral_ok.2 ⟨text, rfl, valid, rfl⟩
    | moment marked valid =>
      rw [if_pos marked]
      exact timeLiteral_ok.2 ⟨text, rfl, valid, rfl⟩

theorem TimeValue.reads (operator : String) :
    Reads (TimeValue.ofJson operator) TimeValue.Form := by
  intro document value
  constructor
  · intro succeeds
    unfold TimeValue.ofJson at succeeds
    split at succeeds
    · obtain ⟨literal, read, rfl⟩ := map_ok.1 succeeds
      exact dateOrTimeLiteral_ok.1 read
    · split at succeeds
      · obtain ⟨property, read, rfl⟩ := map_ok.1 succeeds
        exact .property ((Property.reads operator ..).1 read)
      · rename_i unnamed
        obtain ⟨literal, form, rfl⟩ := memberTime_ok.1 succeeds
        exact .time (Option.not_isSome_iff_eq_none.1 unnamed) form
    · cases succeeds
  · intro form
    cases form with
    | day unmarked valid =>
      exact map_ok.2 ⟨_, dateOrTimeLiteral_ok.2 (.day unmarked valid), rfl⟩
    | moment marked valid =>
      exact map_ok.2 ⟨_, dateOrTimeLiteral_ok.2 (.moment marked valid), rfl⟩
    | property form =>
      have read := (Property.reads operator ..).2 form
      obtain ⟨named⟩ := form
      refine (if_pos (Option.isSome_iff_exists.2 ⟨_, named⟩)).trans ?_
      exact map_ok.2 ⟨_, read, rfl⟩
    | time unnamed form =>
      refine (if_neg (Option.not_isSome_iff_eq_none.2 unnamed)).trans ?_
      exact memberTime_ok.2 ⟨_, form, rfl⟩

theorem isUnbounded_iff {document : Json} :
    isUnbounded document = true ↔ document = .string ".." := by
  cases document <;> simp [isUnbounded, Json.string?]

theorem reads_boundOfJson (operator : String) : Reads (boundOfJson operator) BoundForm := by
  intro document value
  unfold boundOfJson
  constructor
  · intro succeeds
    split at succeeds
    · rename_i unbounded
      cases succeeds
      rw [isUnbounded_iff.1 unbounded]
      exact .unbounded
    · rename_i bounded
      obtain ⟨side, read, rfl⟩ := map_ok.1 succeeds
      exact .bounded (fun same => bounded (isUnbounded_iff.2 same))
        ((TimeValue.reads operator ..).1 read)
  · intro form
    cases form with
    | unbounded => rfl
    | bounded bounded form =>
      rw [if_neg fun unbounded => bounded (isUnbounded_iff.1 unbounded)]
      exact map_ok.2 ⟨_, (TimeValue.reads operator ..).2 form, rfl⟩

theorem TemporalOperand.reads (operator : String) :
    Reads (TemporalOperand.ofJson operator) TemporalOperand.Form := by
  intro document operand
  unfold TemporalOperand.ofJson
  constructor
  · intro succeeds
    split at succeeds
    · rename_i bounds given
      split at succeeds
      · obtain ⟨start, opening, further⟩ := bind_ok.1 succeeds
        obtain ⟨finish, closing, total⟩ := bind_ok.1 further
        cases total
        cases document with
        | object members =>
          exact .interval given ((reads_boundOfJson operator ..).1 opening)
            ((reads_boundOfJson operator ..).1 closing)
        | _ => cases given
      · cases succeeds
    · rename_i single
      split at succeeds
      · cases succeeds
      · rename_i bounded
        obtain ⟨value, read, total⟩ := bind_ok.1 succeeds
        cases total
        exact .instant single (fun same => bounded (isUnbounded_iff.2 same))
          ((TimeValue.reads operator ..).1 read)
  · intro form
    cases form with
    | interval given opening closing =>
      rw [Json.member?, given]
      exact bind_ok.2 ⟨_, (reads_boundOfJson operator ..).2 opening,
        bind_ok.2 ⟨_, (reads_boundOfJson operator ..).2 closing, rfl⟩⟩
    | instant single bounded form =>
      rw [single]
      dsimp only
      rw [if_neg fun unbounded => bounded (isUnbounded_iff.1 unbounded)]
      exact bind_ok.2 ⟨_, (TimeValue.reads operator ..).2 form, rfl⟩

end Filter

end ShapeQuery
