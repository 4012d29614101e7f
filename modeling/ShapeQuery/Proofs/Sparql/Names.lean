/-
This file lists the names that the queries of the program are made with. They differ in their
numerals only, so that what is left of a name without its digits is one of a few texts. No input can
therefore become part of a name.
-/
import ShapeQuery.Proofs.Sparql.Lexing

namespace ShapeQuery.Sparql.Lexer

open Rdf.Turtle (beginsLocal)

/-- The characters of a text that are no digits. -/
def withoutDigits (text : String) : List Char :=
  text.toList.filter fun character => !character.isDigit

/-- Whether a text is one of some frames with digits put in. -/
def Fills (frames : List String) (text : String) : Prop :=
  withoutDigits text ∈ frames.map String.toList

instance (frames : List String) (text : String) : Decidable (Fills frames text) :=
  inferInstanceAs (Decidable (_ ∈ _))

theorem withoutDigits_append (first second : String) :
    withoutDigits (first ++ second) = withoutDigits first ++ withoutDigits second := by
  rw [withoutDigits, String.toList_append, List.filter_append]
  rfl

theorem withoutDigits_numeral (number : Nat) : withoutDigits (toString number) = [] := by
  rw [withoutDigits, Nat.toString_eq_repr, Nat.toList_repr, List.filter_eq_nil_iff]
  intro character member
  have digit : character.isDigit = true :=
    Nat.isDigit_of_mem_toDigits (by decide) (by decide) member
  simp [digit]

/-- A frame may be filled at its end. -/
theorem fills_numbered {frames : List String} {frame : String} (known : Fills frames frame)
    (number : Nat) : Fills frames (frame ++ toString number) := by
  rw [Fills, withoutDigits_append, withoutDigits_numeral, List.append_nil]
  exact known

/-! ### Frames -/

/-- The frames of the stems of shapes. -/
def stemFrames : List String := ["path", "prof_", "var_"]

/-- The families of the variables of shapes. -/
def families : List String :=
  ["node", "node_classes", "preds", "vals", "excluded_pred_vals", "filter"]

/-- The frames of the variables of shapes. -/
def slotFrames : List String :=
  stemFrames.flatMap fun stem => families.map fun family => stem ++ "_" ++ family ++ "_"

/-- The frames of the variables of filters. -/
def filterFrames : List String :=
  ["var_", "observation_", "obs_prop_", "result_", "attr_bn_var_", "attr_name_var_",
   "aprop_bn_var_", "aprop_name_or_id_var_", "value_", "qa_bn_var_", "role_var_", "agent_var_",
   "geom_bnode_", "geom_var_", "wkt_input_", "geom_bnode_bbox", "geom_var_bbox", "wkt_input_bbox"]

/-- The frames of the other variables. -/
def listingFrames : List String :=
  ["focus_node", "focus_classes", "focus_class", "fts_search_node", "bn_p_", "bn_o_", "datetime",
   "pred", "match", "w", "weight", "hashID", "facetName", "facetValue", "facetCount", "count",
   "label", "order_by_val", "iri", "label_predicate"]

/-- The frames of the labels of blank nodes. -/
def labelFrames : List String :=
  ["config_", "config_bbox", "count", "facet"]

/-- The names of the program, which gives no language tags. -/
def Lexicon.own : Lexicon :=
  ⟨Fills (slotFrames ++ filterFrames ++ listingFrames), Fills labelFrames, fun _ => False⟩

instance (name : String) : Decidable (Lexicon.own.names name) :=
  inferInstanceAs (Decidable (Fills _ _))

instance (label : String) : Decidable (Lexicon.own.labels label) :=
  inferInstanceAs (Decidable (Fills _ _))

theorem withoutDigits_of_mem :
    ∀ frame ∈ filterFrames ++ listingFrames, withoutDigits frame = frame.toList := by
  decide +kernel

/-- A frame without holes is a name of the program. -/
theorem names_of_mem {frame : String} (known : frame ∈ filterFrames ++ listingFrames) :
    Lexicon.own.names frame := by
  show withoutDigits frame ∈ _
  rw [withoutDigits_of_mem frame known, List.append_assoc, List.map_append]
  exact List.mem_append_right _ (List.mem_map_of_mem known)

/-! ### Names that can be read back -/

/-- Whether a character may stand anywhere in a variable or a label. -/
def isNamePart (character : Char) : Bool :=
  beginsLocal character && isVariableCharacter character && isLabelCharacter character
    && character ≠ '.'

/-- What makes every name with a frame one that can be read back. -/
def isReadableFrame (frame : String) : Bool :=
  !frame.toList.isEmpty && frame.toList.all isNamePart

theorem isReadableFrame_of_mem :
    ∀ frame ∈ slotFrames ++ filterFrames ++ listingFrames ++ labelFrames,
      isReadableFrame frame = true := by
  decide +kernel

theorem isNamePart_digit {character : Char} (digit : character.isDigit = true) :
    isNamePart character = true := by
  have allowed : ∀ character ∈ (List.range' 48 10).map Char.ofNat,
      isNamePart character = true := by
    decide
  refine allowed character (List.mem_map.2 ⟨character.toNat, ?_, Char.ofNat_toNat _⟩)
  rw [Char.isDigit, Bool.and_eq_true, decide_eq_true_eq, decide_eq_true_eq] at digit
  exact List.mem_range'_1.2 ⟨digit.1, Nat.lt_succ_of_le digit.2⟩

/-- A name with a known frame has a first character, and only characters that may stand in it. -/
theorem nameParts_of_fills {frames : List String}
    (readable : ∀ frame ∈ frames, isReadableFrame frame = true) {text : String}
    (fills : Fills frames text) :
    ∃ first rest, text.toList = first :: rest ∧
      ∀ character ∈ text.toList, isNamePart character = true := by
  obtain ⟨frame, member, same⟩ := List.mem_map.1 fills
  have allowed := readable frame member
  simp only [isReadableFrame, Bool.and_eq_true, Bool.not_eq_true', List.isEmpty_eq_false_iff,
    List.all_eq_true, same, withoutDigits] at allowed
  have nonempty : text.toList ≠ [] := by
    intro empty
    rw [empty] at allowed
    exact allowed.1 rfl
  obtain ⟨first, rest, written⟩ := List.exists_cons_of_ne_nil nonempty
  refine ⟨first, rest, written, fun character inside => ?_⟩
  by_cases digit : character.isDigit = true
  · exact isNamePart_digit digit
  · exact allowed.2 character (List.mem_filter.2 ⟨inside, by simpa using digit⟩)

theorem own_within_readable : Lexicon.own.Within .readable := by
  refine ⟨fun name fills => ?_, fun label fills => ?_, fun _ member => member.elim⟩
  · obtain ⟨first, rest, written, allowed⟩ := nameParts_of_fills
      (fun frame member => isReadableFrame_of_mem frame (List.mem_append_left _ member)) fills
    simp only [written, List.forall_mem_cons, isNamePart, Bool.and_eq_true] at allowed
    exact ⟨first, rest, written, allowed.1.1.1.1,
      fun character member => (allowed.2 character member).1.1.2⟩
  · obtain ⟨first, rest, written, allowed⟩ := nameParts_of_fills
      (fun frame member => isReadableFrame_of_mem frame (List.mem_append_right _ member)) fills
    simp only [written, List.forall_mem_cons, isNamePart, Bool.and_eq_true,
      decide_eq_true_eq] at allowed
    refine ⟨first, rest, written, allowed.1.1.1.1,
      fun character member => (allowed.2 character member).1.2, fun last => ?_⟩
    exact (allowed.2 '.' (List.mem_of_getLast? last)).2 rfl

end ShapeQuery.Sparql.Lexer
