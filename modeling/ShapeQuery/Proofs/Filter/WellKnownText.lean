/-
This file reads well-known text and proves that a geometry is read back from its text: the keyword
tells its type, the parentheses and commas its structure, and each position has the numerals of its
first two ordinates. This holds however numbers are written, as long as no numeral has a character
that structures the text. In fact all of them are written with as many decimal places as the
written ordinate that needs the most of them.
-/
import ShapeQuery.Filter.WellKnownText
import ShapeQuery.Proofs.Filter.Arguments
import ShapeQuery.Proofs.Number.Layout
import ShapeQuery.Proofs.Sparql.Lexing

namespace ShapeQuery.Filter

open Number (Binary64 decimals)
open Sparql.Lexer (Begins takeWhile_run dropWhile_run)

/-! ### Structure -/

/-- The type and the nesting of a geometry, with something in the place of each position. -/
inductive Outline (α : Type) where
  | point (position : α)
  | multiPoint (positions : List α)
  | lineString (positions : List α)
  | multiLineString (lines : List (List α))
  | polygon (rings : List (List α))
  | multiPolygon (polygons : List (List (List α)))
deriving DecidableEq

/-- The structure of a geometry, with each position shown in some way. -/
def Geometry.outline {α : Type} (shown : Position → α) : Geometry → Outline α
  | .point position => .point (shown position)
  | .multiPoint positions => .multiPoint (positions.map shown)
  | .lineString positions => .lineString (positions.map shown)
  | .multiLineString lines => .multiLineString (lines.map (List.map shown))
  | .polygon rings => .polygon (rings.map (List.map shown))
  | .multiPolygon polygons => .multiPolygon (polygons.map (List.map (List.map shown)))

namespace Outline

/-! ### Reading -/

/-- Reads something at the start of a text; the rest of the text is left. -/
abbrev Reader (α : Type) := List Char → Option (α × List Char)

/-- The characters of numerals and of the spaces between them. -/
def isInner (character : Char) : Bool :=
  !(['(', ')', ','].contains character)

/-- Numerals with a space between each two. -/
def numerals : Reader (List String) := fun text =>
  some (((text.takeWhile isInner).splitOn ' ').map String.ofList, text.dropWhile isInner)

variable {α β : Type}

/-- Something in parentheses. -/
def enclosed (read : Reader α) : Reader α
  | '(' :: text =>
    match read text with
    | some (value, ')' :: rest) => some (value, rest)
    | _ => none
  | _ => none

/-- The members of a list up to its end, with a comma and a space between each two. -/
def members (read : Reader α) : (limit : Nat) → Reader (List α)
  | 0, _ => none
  | limit + 1, text =>
    match read text with
    | some (value, ')' :: rest) => some ([value], rest)
    | some (value, ',' :: ' ' :: rest) =>
      (members read limit rest).map fun found => (value :: found.1, found.2)
    | _ => none

/-- A list in parentheses. It has fewer members than characters. -/
def listed (read : Reader α) : Reader (List α)
  | '(' :: ')' :: rest => some ([], rest)
  | '(' :: text => members read text.length text
  | _ => none

/-- The value of a reader that reads a text to its end. -/
def whole (read : Reader α) (text : List Char) : Option α :=
  match read text with
  | some (value, []) => some value
  | _ => none

/-- Reads what follows the keyword of a type, lists of the depth that the keyword tells. -/
def body? (keyword : String) (body : List Char) : Option (Outline (List String)) :=
  match keyword with
  | "POINT" => (whole (enclosed numerals) body).map point
  | "MULTIPOINT" => (whole (listed (enclosed numerals)) body).map multiPoint
  | "LINESTRING" => (whole (listed numerals) body).map lineString
  | "MULTILINESTRING" => (whole (listed (listed numerals)) body).map multiLineString
  | "POLYGON" => (whole (listed (listed numerals)) body).map polygon
  | "MULTIPOLYGON" => (whole (listed (listed (listed numerals))) body).map multiPolygon
  | _ => none

/-- Reads well-known text: a keyword, a space and the body. -/
def read? (text : String) : Option (Outline (List String)) :=
  body? (String.ofList (text.toList.takeWhile (· ≠ ' ')))
    ((text.toList.dropWhile (· ≠ ' ')).drop 1)

/-! ### Reading back -/

/-- Whether a text has no character that structures well-known text. -/
def IsNumeral (text : String) : Prop :=
  ∀ character ∈ text.toList, character ≠ ' ' ∧ isInner character = true

/-- Whether a reader takes a text to its end in front of everything that cannot go on with it. -/
def Takes (read : Reader α) (text : List Char) (value : α) : Prop :=
  ∀ rest, Begins (fun character => !isInner character) rest →
    read (text ++ rest) = some (value, rest)

theorem Takes.whole {read : Reader α} {text : List Char} {value : α}
    (takes : Takes read text value) : whole read text = some value := by
  have taken := takes [] nofun
  rw [List.append_nil] at taken
  rw [Outline.whole, taken]

theorem begins_close (rest : List Char) :
    Begins (fun character => !isInner character) (')' :: rest) := by
  rintro _ ⟨⟩
  rfl

theorem begins_comma (rest : List Char) :
    Begins (fun character => !isInner character) (',' :: rest) := by
  rintro _ ⟨⟩
  rfl

/-- What holds of the separator and of all pieces holds of what is made of them. -/
theorem forall_mem_intercalate {test : Char → Prop} {separator : List Char}
    {pieces : List (List Char)} (separates : ∀ character ∈ separator, test character)
    (each : ∀ piece ∈ pieces, ∀ character ∈ piece, test character) :
    ∀ character ∈ separator.intercalate pieces, test character := by
  induction pieces with
  | nil => exact fun _ member => absurd member List.not_mem_nil
  | cons piece rest inductionHypothesis =>
    rw [List.forall_mem_cons] at each
    cases rest with
    | nil =>
      rw [List.intercalate_singleton]
      exact each.1
    | cons next others =>
      rw [List.intercalate_cons_cons, List.forall_mem_append, List.forall_mem_append]
      exact ⟨⟨each.1, separates⟩, inductionHypothesis each.2⟩

theorem takes_numerals {texts : List String} (some : texts ≠ [])
    (each : ∀ text ∈ texts, IsNumeral text) :
    Takes numerals (" ".intercalate texts).toList texts := by
  intro rest begins
  have inner : ∀ character ∈ (" ".intercalate texts).toList, isInner character = true := by
    rw [String.toList_intercalate]
    refine forall_mem_intercalate (by decide) ?_
    simp only [List.forall_mem_map]
    exact fun text member character inside => (each text member character inside).2
  have apart : ∀ piece ∈ texts.map String.toList, ' ' ∉ piece := by
    simp only [List.forall_mem_map]
    exact fun text member inside => (each text member ' ' inside).1 rfl
  rw [numerals, takeWhile_run inner begins, dropWhile_run inner begins, String.toList_intercalate]
  show Option.some (((([' '].intercalate (texts.map String.toList)).splitOn ' ').map
    String.ofList), rest) = _
  rw [List.splitOn_intercalate ' ' apart (by simpa using some), List.map_map]
  simp

theorem takes_enclosed {read : Reader α} {text : String} {value : α}
    (takes : Takes read text.toList value) :
    Takes (enclosed read) ("(" ++ text ++ ")").toList value := by
  intro rest _
  have written : ("(" ++ text ++ ")").toList ++ rest = '(' :: (text.toList ++ ')' :: rest) := by
    simp
  rw [written, enclosed, takes _ (begins_close rest)]
  rfl

section

variable {Item : Type} {read : Reader β} {text : Item → String} {value : Item → β}

/-- Members are read one after another, as long as the limit allows for all of them. -/
theorem members_append {first : Item} {items : List Item}
    (takes : ∀ item ∈ first :: items, Takes read (text item).toList (value item)) {limit : Nat}
    (enough : items.length < limit) (rest : List Char) :
    members read limit ((", ".intercalate ((first :: items).map text)).toList ++ ')' :: rest) =
      some ((first :: items).map value, rest) := by
  obtain ⟨limit, rfl⟩ := Nat.exists_eq_add_one_of_ne_zero (Nat.ne_zero_of_lt enough)
  induction items generalizing first limit with
  | nil =>
    rw [List.map_singleton, String.intercalate_singleton, members,
      List.forall_mem_singleton.1 takes _ (begins_close rest)]
    rfl
  | cons next others inductionHypothesis =>
    rw [List.forall_mem_cons] at takes
    have fewer := Nat.lt_of_succ_lt_succ enough
    obtain ⟨limit, rfl⟩ := Nat.exists_eq_add_one_of_ne_zero (Nat.ne_zero_of_lt fewer)
    have further := inductionHypothesis takes.2 limit fewer
    have written : (", ".intercalate ((first :: next :: others).map text)).toList ++ ')' :: rest =
        (text first).toList ++ ',' :: ' ' ::
          ((", ".intercalate ((next :: others).map text)).toList ++ ')' :: rest) := by
      simp [String.intercalate_cons_cons]
    rw [written, members, takes.1 _ (begins_comma _)]
    simp only [further]
    rfl

/-- Whether a text begins with something other than the end of a list. -/
def Opens (text : String) : Prop :=
  ∃ first others, text.toList = first :: others ∧ first ≠ ')'

theorem Opens.append {start : String} (opens : Opens start) (further : String) :
    Opens (start ++ further) := by
  obtain ⟨first, others, written, noEnd⟩ := opens
  exact ⟨first, others ++ further.toList, by rw [String.toList_append, written]; rfl, noEnd⟩

theorem Opens.intercalate {first : String} (opens : Opens first) (others : List String) :
    Opens (", ".intercalate (first :: others)) := by
  cases others with
  | nil => rwa [String.intercalate_singleton]
  | cons next more =>
    rw [String.intercalate_cons_cons, String.append_assoc]
    exact opens.append _

/-- Every member that opens has a character of its own. -/
theorem length_le_intercalate {texts : List String} (opens : ∀ text ∈ texts, Opens text) :
    texts.length ≤ (", ".intercalate texts).toList.length := by
  induction texts with
  | nil => exact Nat.zero_le _
  | cons text rest inductionHypothesis =>
    rw [List.forall_mem_cons] at opens
    obtain ⟨first, others, written, -⟩ := opens.1
    have shorter := inductionHypothesis opens.2
    cases rest with
    | nil => simp [written]
    | cons next more =>
      rw [String.intercalate_cons_cons, String.toList_append, String.toList_append, written]
      simp only [List.length_append, List.length_cons] at shorter ⊢
      omega

theorem takes_listed {items : List Item}
    (takes : ∀ item ∈ items, Takes read (text item).toList (value item))
    (opens : ∀ item ∈ items, Opens (text item)) :
    Takes (listed read) (Geometry.listText (items.map text)).toList (items.map value) := by
  intro rest _
  have written : (Geometry.listText (items.map text)).toList ++ rest =
      '(' :: ((", ".intercalate (items.map text)).toList ++ ')' :: rest) := by
    simp [Geometry.listText]
  have shorter := length_le_intercalate (List.forall_mem_map.2 opens)
  rw [written]
  cases items with
  | nil => rfl
  | cons first items =>
    obtain ⟨opening, others, begun, noEnd⟩ :=
      Opens.intercalate (opens first List.mem_cons_self) (items.map text)
    rw [List.map_cons, begun] at shorter ⊢
    have enough : items.length < (opening :: others ++ ')' :: rest).length := by
      simp only [List.length_cons, List.length_map, List.length_append] at shorter ⊢
      omega
    have found := members_append takes enough rest
    rw [List.map_cons, begun] at found
    rw [List.cons_append, listed]
    · exact found
    · exact fun _ same => noEnd (List.cons.inj same).1

end

theorem opens_enclosed (text : String) : Opens ("(" ++ text ++ ")") :=
  ⟨'(', text.toList ++ [')'], by simp, by decide⟩

theorem opens_listText (texts : List String) : Opens (Geometry.listText texts) := by
  exact opens_enclosed _

/-- The keyword ends at the first space. -/
theorem read?_keyword {keyword : String} (spaceless : ' ' ∉ keyword.toList) (body : String) :
    read? (keyword ++ " " ++ body) = body? keyword body.toList := by
  have inside : ∀ character ∈ keyword.toList, decide (character ≠ ' ') = true := by
    intro character member
    exact decide_eq_true fun same => spaceless (same ▸ member)
  have ends : Begins (fun character => !decide (character ≠ ' ')) (' ' :: body.toList) := by
    rintro _ ⟨⟩
    rfl
  have written : (keyword ++ " " ++ body).toList = keyword.toList ++ ' ' :: body.toList := by
    simp
  rw [read?, written, takeWhile_run inside ends, dropWhile_run inside ends, String.ofList_toList]
  rfl

/-- What the body of a type is read as is the structure of that type. -/
theorem read?_of_takes {read : Reader α} (make : α → Outline (List String))
    (keyword : String) {start body : String} {value : α} (split : start = keyword ++ " ")
    (spaceless : ' ' ∉ keyword.toList)
    (reads : ∀ text, body? keyword text = (whole read text).map make)
    (takes : Takes read body.toList value) : read? (start ++ body) = some (make value) := by
  rw [split, read?_keyword spaceless, reads, takes.whole]
  rfl

end Outline

/-! ### Texts of geometries -/

namespace Geometry

open Outline

variable {numeral : Binary64 → String} (plain : ∀ ordinate, IsNumeral (numeral ordinate))

/-- The numerals of the ordinates of a position that are written. -/
def shownBy (numeral : Binary64 → String) (position : Position) : List String :=
  (position.take 2).map numeral

include plain

theorem takes_position {position : Position} (sized : 2 ≤ position.length) :
    Takes numerals (positionText numeral position).toList (shownBy numeral position) := by
  refine takes_numerals ?_ (List.forall_mem_map.2 fun ordinate _ => plain ordinate)
  match position, sized with
  | _ :: _ :: _, _ => exact List.cons_ne_nil _ _

theorem opens_position {position : Position} (sized : 2 ≤ position.length) :
    Opens (positionText numeral position) := by
  match position, sized with
  | first :: second :: further, _ =>
    have written : positionText numeral (first :: second :: further) =
        numeral first ++ (" " ++ numeral second) := by
      show " ".intercalate [numeral first, numeral second] = _
      rw [String.intercalate_cons_cons, String.intercalate_singleton, String.append_assoc]
    rw [written]
    cases shown : (numeral first).toList with
    | nil =>
      refine ⟨' ', (numeral second).toList, ?_, by decide⟩
      simp [shown]
    | cons character others =>
      refine Opens.append ⟨character, others, shown, ?_⟩ _
      rintro rfl
      exact absurd (plain first ')' (shown ▸ List.mem_cons_self)).2 (by decide)

theorem takes_line {line : List Position} (sized : ∀ position ∈ line, 2 ≤ position.length) :
    Takes (listed numerals) (lineText numeral line).toList (line.map (shownBy numeral)) :=
  takes_listed (fun position member => takes_position plain (sized position member))
    fun position member => opens_position plain (sized position member)

theorem takes_lines {lines : List (List Position)}
    (sized : ∀ line ∈ lines, ∀ position ∈ line, 2 ≤ position.length) :
    Takes (listed (listed numerals)) (linesText numeral lines).toList
      (lines.map (List.map (shownBy numeral))) :=
  takes_listed (fun line member => takes_line plain (sized line member))
    fun _ _ => opens_listText _

/-- A geometry is read back from its text. -/
theorem read?_textWith {geometry : Geometry}
    (sized : ∀ position ∈ geometry.positions, 2 ≤ position.length) :
    read? (geometry.textWith numeral) = some (geometry.outline (shownBy numeral)) := by
  cases geometry with
  | point position =>
    have taken := takes_enclosed (takes_position plain (sized position List.mem_cons_self))
    have found : read? ("POINT " ++ _) = _ :=
      read?_of_takes Outline.point "POINT" (by decide) (by decide) (fun _ => rfl) taken
    have split : "POINT (" = "POINT " ++ "(" := by decide
    show read? ("POINT (" ++ positionText numeral position ++ ")") = _
    rwa [split, String.append_assoc, String.append_assoc, ← @String.append_assoc "("]
  | multiPoint positions =>
    have taken : Takes _ _ (positions.map (shownBy numeral)) :=
      takes_listed
        (fun position member => takes_enclosed (takes_position plain (sized position member)))
        fun _ _ => opens_enclosed _
    exact read?_of_takes Outline.multiPoint "MULTIPOINT" (by decide) (by decide) (fun _ => rfl)
      taken
  | lineString positions =>
    exact read?_of_takes Outline.lineString "LINESTRING" (by decide) (by decide) (fun _ => rfl)
      (takes_line plain sized)
  | multiLineString lines =>
    exact read?_of_takes Outline.multiLineString "MULTILINESTRING" (by decide) (by decide)
      (fun _ => rfl) (takes_lines plain (List.forall_mem_flatten.1 sized))
  | polygon rings =>
    exact read?_of_takes Outline.polygon "POLYGON" (by decide) (by decide) (fun _ => rfl)
      (takes_lines plain (List.forall_mem_flatten.1 sized))
  | multiPolygon polygons =>
    have each := List.forall_mem_flatten.1 (List.forall_mem_flatten.1 sized)
    have taken : Takes _ _ (polygons.map (List.map (List.map (shownBy numeral)))) :=
      takes_listed (fun lines member => takes_lines plain (each lines member))
        fun _ _ => opens_listText _
    exact read?_of_takes Outline.multiPolygon "MULTIPOLYGON" (by decide) (by decide) (fun _ => rfl)
      taken

omit plain

/-! ### Precision -/

/-- The ordinates of a geometry that are written. -/
def writtenOrdinates (geometry : Geometry) : List Binary64 :=
  geometry.positions.flatMap fun position => position.take 2

/-- The greatest of some numbers, or the one that they are compared with. -/
theorem foldl_max (counts : List Nat) (start : Nat) :
    start ≤ counts.foldl max start ∧ (∀ count ∈ counts, count ≤ counts.foldl max start) ∧
      (counts.foldl max start = start ∨ counts.foldl max start ∈ counts) := by
  induction counts generalizing start with
  | nil => exact ⟨Nat.le_refl _, List.forall_mem_nil _, .inl rfl⟩
  | cons count rest inductionHypothesis =>
    obtain ⟨above, each, reached⟩ := inductionHypothesis (max start count)
    rw [List.foldl_cons]
    refine ⟨Nat.le_trans (Nat.le_max_left ..) above,
      List.forall_mem_cons.2 ⟨Nat.le_trans (Nat.le_max_right ..) above, each⟩, ?_⟩
    rcases reached with same | later
    · rw [same]
      rcases Nat.le_total start count with less | more
      · exact .inr (by rw [Nat.max_eq_right less]; exact List.mem_cons_self)
      · exact .inl (Nat.max_eq_left more)
    · exact .inr (List.mem_cons_of_mem _ later)

/-- The decimal places of a geometry are the most that one of the written ordinates needs. -/
theorem decimalPlaces_greatest (geometry : Geometry) :
    (∀ ordinate ∈ geometry.writtenOrdinates,
        decimals ordinate.plainText ≤ geometry.decimalPlaces) ∧
      (geometry.decimalPlaces = 0 ∨ ∃ ordinate ∈ geometry.writtenOrdinates,
        decimals ordinate.plainText = geometry.decimalPlaces) := by
  obtain ⟨-, each, reached⟩ :=
    foldl_max (geometry.writtenOrdinates.map Binary64.decimalPlaces) 0
  refine ⟨fun ordinate member => ?_, reached.imp_right fun found => ?_⟩
  · rw [← Binary64.decimalPlaces_eq_decimals]
    exact each _ (List.mem_map_of_mem member)
  · obtain ⟨ordinate, member, same⟩ := List.mem_map.1 found
    exact ⟨ordinate, member, (Binary64.decimalPlaces_eq_decimals ordinate).symm.trans same⟩

theorem isNumeral_fixedText (places : Nat) (ordinate : Binary64) :
    IsNumeral (ordinate.fixedText places) := by
  have structures : ∀ mark ∈ [' ', '(', ')', ','], mark.isDigit = false := by decide
  refine Binary64.forall_mem_fixedText (fun digit known => ?_) (by decide) ordinate places
  have other : digit ∉ [' ', '(', ')', ','] := fun member =>
    Bool.false_ne_true ((structures digit member).symm.trans known)
  rw [List.mem_cons, not_or] at other
  exact ⟨other.1, by simpa [isInner] using other.2⟩

/-- Every position of a geometry that is read has two ordinates. -/
theorem two_le_length {document : Json} {geometry : Geometry}
    (accepted : ofJson document = .ok geometry) :
    ∀ position ∈ geometry.positions, 2 ≤ position.length := by
  cases (Geometry.reads ..).1 accepted with
  | box boxed each =>
    simp [positions]
  | tagged _ _ _ sound =>
    intro position member
    have size := sound.size position member
    omega

/-- Nothing of a geometry is lost in its text but what is not written. Whichever texts without
structuring characters are taken for numbers, the text is read as a geometry of the same type, with
the same nesting, and with the numerals of the first two ordinates in each position. The numerals
that are taken all have the same number of decimal places, the most that one of the written
ordinates needs in its plain layout. -/
theorem wellKnownText_keeps_structure {document : Json} {geometry : Geometry}
    (accepted : ofJson document = .ok geometry) :
    (∀ numeral : Binary64 → String, (∀ ordinate, IsNumeral (numeral ordinate)) →
      read? (geometry.textWith numeral) =
        some (geometry.outline fun position => (position.take 2).map numeral)) ∧
    (∀ position ∈ geometry.positions, 2 ≤ position.length) ∧
    ∃ places,
      (∀ ordinate ∈ geometry.writtenOrdinates, decimals ordinate.plainText ≤ places) ∧
      (places = 0 ∨
        ∃ ordinate ∈ geometry.writtenOrdinates, decimals ordinate.plainText = places) ∧
      (∀ ordinate : Binary64, ordinate.isFinite = true →
        decimals (ordinate.fixedText places) = places) ∧
      read? geometry.wellKnownText =
        some (geometry.outline fun position =>
          (position.take 2).map (Binary64.fixedText places)) := by
  have sized := two_le_length accepted
  obtain ⟨most, reached⟩ := geometry.decimalPlaces_greatest
  exact ⟨fun numeral plain => read?_textWith plain sized, sized, geometry.decimalPlaces, most,
    reached, fun ordinate finite => Binary64.decimals_fixedText finite _,
    read?_textWith (isNumeral_fixedText _) sized⟩

/-- Two points, the first with an ordinate that needs a decimal place, the second with a height. -/
def points : Geometry :=
  .multiPoint [[.ofInt 1, .finite false 5629499534213120 (-51)], [.ofInt 1, .ofInt 1, .ofInt 1]]

/-- The document of the points. -/
def pointsDocument : Json :=
  .object [("type", .string "MultiPoint"), ("coordinates", .array [
    .array [.number (.integer 1), .number (.float (.finite false 5629499534213120 (-51)))],
    .array [.number (.integer 1), .number (.integer 1), .number (.integer 1)]])]

/-- The height is not written, and all that is written has one decimal place. -/
theorem wellKnownText_keeps_structure_points :
    ofJson pointsDocument = .ok points ∧
      points.wellKnownText = "MULTIPOINT ((1.0 2.5), (1.0 1.0))" ∧
      read? "MULTIPOINT ((1.0 2.5), (1.0 1.0))" =
        some (.multiPoint [["1.0", "2.5"], ["1.0", "1.0"]]) := by
  have accepted : ofJson pointsDocument = .ok points := rfl
  have written : points.wellKnownText = "MULTIPOINT ((1.0 2.5), (1.0 1.0))" := by decide +kernel
  have one : points.textWith (Binary64.fixedText 1) = "MULTIPOINT ((1.0 2.5), (1.0 1.0))" := by
    decide +kernel
  obtain ⟨readBack, -⟩ := wellKnownText_keeps_structure accepted
  have found := readBack (Binary64.fixedText 1) (isNumeral_fixedText 1)
  rw [one] at found
  refine ⟨accepted, written, found.trans ?_⟩
  decide +kernel

end Geometry

end ShapeQuery.Filter
