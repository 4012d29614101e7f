/-
This file tells which triples of a graph stand behind the triples that a filter looks at. Every
condition has variables of its own, so that a triple with such a variable is shown only where its
condition found it; the places of the values of a function are shown as the members of an
alternative.
-/
import ShapeQuery.Proofs.Filter.Blocks
import ShapeQuery.Proofs.Filter.Scoping
import ShapeQuery.Proofs.Shape.Vouching

namespace ShapeQuery.Filter

open Sparql (Term Variable Group Path Element TriplePattern TemplateTriple Unknown groupAsks
  groupAsks_append groupAsks_iff groupAsks_single branchesAsk_iff groupVouches groupTemplateTriples
  groupTemplateTriples_append mem_groupTemplateTriples mem_branchesTemplateTriples)
open Success (bind_ok)

/-! ### Loose paths -/

/-- The places of the result of an observation. -/
def resultPlaces : List Path :=
  [.predicate Vocabulary.sosaHasSimpleResult, .predicate Vocabulary.sosaHasResult,
    twoSteps Vocabulary.sosaHasResult Vocabulary.rdfValue]

/-- The places of the value of an attribute. -/
def attributePlaces : List Path :=
  [.predicate Vocabulary.ternHasSimpleValue, .predicate Vocabulary.ternHasValue,
    twoSteps Vocabulary.ternHasValue Vocabulary.rdfValue]

/-- The places of the value of an additional property. -/
def additionalPlaces : List Path :=
  [.predicate Vocabulary.schemaValue, .predicate Vocabulary.rdfValue,
    twoSteps Vocabulary.schemaValue Vocabulary.rdfValue]

/-- Whether a path is matched by itself in filters: in the shape of a queryable, or as the places
of the value of a function. -/
def Translator.Matches (translator : Translator) (path : Path) : Prop :=
  (∃ entry ∈ translator.queryables, entry.2.Matches path) ∨
  ∃ places ∈ [resultPlaces, attributePlaces, additionalPlaces], path = .alternative places

/-! ### Elements -/

/-- Whether all that an element shows is found wherever the element matches. -/
def Tells (loose : Path → Prop) (element : Element) : Prop :=
  ∀ shown ∈ element.templateTriples, element.Asks False (shown.Shows loose)

section

variable {loose : Path → Prop}

theorem asks_of_tells {group : Group} (tells : ∀ element ∈ group, Tells loose element) :
    ∀ shown ∈ groupTemplateTriples group, groupAsks False (shown.Shows loose) group := by
  intro shown member
  obtain ⟨element, among, inside⟩ := mem_groupTemplateTriples.1 member
  exact groupAsks_iff.2 ⟨element, among, tells element among shown inside⟩

theorem tells_triple (triple : TriplePattern) : Tells loose (.triple triple) :=
  fun _ member => .inl (Option.mem_toList.1 member)

theorem tells_of_silent {element : Element} (silent : element.templateTriples = []) :
    Tells loose element :=
  fun _ member => absurd (silent ▸ member) List.not_mem_nil

/-- The places of a value are shown as the members of an alternative. -/
theorem tells_locations {places : List Path} (free : loose (.alternative places))
    (direct : ∀ path ∈ places, path.inversePredicate? = none) (subject object : Variable) :
    Tells loose (locations subject places object) := by
  have step {path : Path} (among : path ∈ places) :
      path.step (.var subject) (.var object) = ⟨.var subject, .path path, .var object⟩ := by
    rw [Path.step, direct path among]
  intro shown member
  obtain ⟨branch, among, inBranch⟩ := mem_branchesTemplateTriples.1 member
  obtain ⟨part, listed, rfl⟩ := List.mem_map.1 among
  have same : (part.step (.var subject) (.var object)).template? = some shown := by
    rw [step listed]
    exact Option.mem_toList.1 ((List.mem_append.1 inBranch).resolve_right List.not_mem_nil)
  refine branchesAsk_iff.2 (List.forall_mem_map.2 fun path chosen => groupAsks_single.2 ?_)
  exact Path.tells_alternative free (List.mem_append_left _ listed) same
    (.inr ⟨path, chosen, (step chosen).symm⟩)

end

/-! ### Functions -/

/-- Whether all elements of the groups of a function tell what they show. -/
def FilterFunction.Tells (loose : Path → Prop) (function : FilterFunction) : Prop :=
  ∀ {arguments suffix group}, function.lower Translator.focus arguments suffix = .ok group →
    ∀ element ∈ group, Filter.Tells loose element

theorem tells_valuesElement {loose : Path → Prop} {operator : String} {target : Variable}
    {document : Json} {element : Element}
    (read : valuesElement operator target document = .ok element) : Tells loose element := by
  obtain ⟨values, -, made⟩ := bind_ok.1 read
  cases made
  exact tells_of_silent rfl

/-- A node of the focus with a name and a value at one of some places. -/
theorem tells_described {loose : Path → Prop} {first second : TriplePattern} {places : List Path}
    (free : loose (.alternative places))
    (direct : ∀ path ∈ places, path.inversePredicate? = none) {node value : Variable}
    {names values : Element} (namesTell : Tells loose names) (valuesTell : Tells loose values) :
    ∀ element ∈ [.triple first, .triple second, locations node places value, names, values],
      Tells loose element :=
  List.forall_mem_cons.2 ⟨tells_triple _, List.forall_mem_cons.2 ⟨tells_triple _,
    List.forall_mem_cons.2 ⟨tells_locations free direct _ _, List.forall_mem_cons.2
      ⟨namesTell, List.forall_mem_singleton.2 valuesTell⟩⟩⟩⟩

theorem Registry.standard_tells {loose : Path → Prop}
    (free : ∀ places ∈ [resultPlaces, attributePlaces, additionalPlaces],
      loose (.alternative places)) :
    ∀ function ∈ Registry.standard.functions, function.Tells loose := by
  have direct : ∀ places ∈ [resultPlaces, attributePlaces, additionalPlaces],
      ∀ path ∈ places, path.inversePredicate? = none := by decide
  simp only [List.forall_mem_cons] at free direct
  refine List.forall_mem_cons.2 ⟨?_, List.forall_mem_cons.2 ⟨?_, List.forall_mem_cons.2 ⟨?_,
    List.forall_mem_cons.2 ⟨?_, List.forall_mem_cons.2 ⟨?_, List.forall_mem_singleton.2 ?_⟩⟩⟩⟩⟩
  · intro arguments suffix group lowered
    obtain ⟨_, -, lowered⟩ := bind_ok.1 lowered
    obtain ⟨_, -, lowered⟩ := bind_ok.1 lowered
    obtain ⟨_, -, lowered⟩ := bind_ok.1 lowered
    obtain ⟨_, -, lowered⟩ := bind_ok.1 lowered
    cases lowered
    exact List.forall_mem_cons.2 ⟨tells_triple _, List.forall_mem_cons.2 ⟨tells_triple _,
      List.forall_mem_singleton.2 (tells_triple _)⟩⟩
  · intro arguments suffix group lowered
    obtain ⟨_, -, lowered⟩ := bind_ok.1 lowered
    obtain ⟨_, -, lowered⟩ := bind_ok.1 lowered
    obtain ⟨_, -, lowered⟩ := bind_ok.1 lowered
    obtain ⟨_, -, lowered⟩ := bind_ok.1 lowered
    obtain ⟨_, -, lowered⟩ := bind_ok.1 lowered
    cases lowered
    exact List.forall_mem_cons.2 ⟨tells_triple _, List.forall_mem_cons.2 ⟨tells_triple _,
      List.forall_mem_singleton.2 (tells_triple _)⟩⟩
  · intro arguments suffix group lowered
    obtain ⟨_, names, lowered⟩ := bind_ok.1 lowered
    obtain ⟨_, values, lowered⟩ := bind_ok.1 lowered
    cases lowered
    exact tells_described free.1 direct.1 (tells_valuesElement names) (tells_valuesElement values)
  · intro arguments suffix group lowered
    obtain ⟨_, names, lowered⟩ := bind_ok.1 lowered
    obtain ⟨_, values, lowered⟩ := bind_ok.1 lowered
    cases lowered
    exact tells_described free.2.1 direct.2.1 (tells_valuesElement names)
      (tells_valuesElement values)
  · intro arguments suffix group lowered
    obtain ⟨_, names, lowered⟩ := bind_ok.1 lowered
    obtain ⟨_, values, lowered⟩ := bind_ok.1 lowered
    cases lowered
    exact tells_described free.2.2.1 direct.2.2.1 (tells_valuesElement names)
      (tells_valuesElement values)
  · intro arguments suffix group lowered
    obtain ⟨_, roles, lowered⟩ := bind_ok.1 lowered
    obtain ⟨_, agents, lowered⟩ := bind_ok.1 lowered
    cases lowered
    exact List.forall_mem_cons.2 ⟨tells_triple _, List.forall_mem_cons.2 ⟨tells_triple _,
      List.forall_mem_cons.2 ⟨tells_triple _, List.forall_mem_cons.2 ⟨tells_valuesElement roles,
        List.forall_mem_singleton.2 (tells_valuesElement agents)⟩⟩⟩⟩

/-! ### Spatial relations -/

namespace SpatialFilter

variable {filter : SpatialFilter} {target : SpatialTarget} {group : Group}

/-- Besides the triples that lead to the geometry, a spatial filter has one element, which shows
nothing and is no part that need not match. -/
theorem mem_of_lower (lowered : filter.lower target = .ok group) {element : Element}
    (member : element ∈ group) :
    (∃ triple, element = .triple triple) ∨ element.templateTriples = [] ∧ element.Steady := by
  have geometric (geometry : element ∈ Group.ofTriples filter.geometryTriples) :
      ∃ triple, element = .triple triple := by
    obtain ⟨triple, -, same⟩ := List.mem_map.1 geometry
    exact ⟨triple, same.symm⟩
  unfold lower at lowered
  split at lowered
  · cases lowered
    refine (List.mem_append.1 member).imp geometric fun condition => ?_
    exact List.mem_singleton.1 condition ▸ ⟨rfl, trivial⟩
  · cases lowered
    refine (List.mem_append.1 member).imp geometric fun condition => ?_
    exact List.mem_singleton.1 condition ▸ ⟨rfl, trivial⟩
  · split at lowered
    · cases lowered
      exact .inr (List.mem_singleton.1 member ▸ ⟨rfl, trivial⟩)
    · cases lowered

/-- A spatial filter shows the triples that lead to the geometry, if it looks for them itself. -/
theorem tells_lower {loose : Path → Prop} (lowered : filter.lower target = .ok group) :
    ∀ element ∈ group, Tells loose element := by
  intro element member
  rcases mem_of_lower lowered member with ⟨triple, rfl⟩ | ⟨silent, -⟩
  · exact tells_triple triple
  · exact tells_of_silent silent

theorem steady_lower (lowered : filter.lower target = .ok group) :
    ∀ element ∈ group, element.Steady := by
  intro element member
  rcases mem_of_lower lowered member with ⟨triple, rfl⟩ | ⟨-, steady⟩
  · trivial
  · exact steady

theorem slot_ne_word (slot : Shape.Slot) (number : Nat) {text : String}
    (plain : ¬ ['v', 'a', 'r', '_'] <+: text.toList) :
    slot.toVariable (Translator.stem number) ≠ ⟨text ++ "_" ++ toString number⟩ := fun same => by
  cases (@Part.name_inj (.slot slot) (.word text plain) number number same).1

/-- A spatial filter names no slots but those of its subject. -/
theorem free_of_lower {number : Nat} (numbered : filter.suffix = toString number)
    {slot : Shape.Slot} (other : filter.subject ≠ .var (slot.toVariable (Translator.stem number)))
    (lowered : filter.lower target = .ok group) :
    .var (slot.toVariable (Translator.stem number)) ∉ group.unknowns := by
  have word {text : String} (plain : ¬ ['v', 'a', 'r', '_'] <+: text.toList) :
      filter.named text ≠ slot.toVariable (Translator.stem number) := by
    rw [named, numbered]
    exact (slot_ne_word slot number plain).symm
  have subject : ∀ name ∈ filter.subject.names,
      name ≠ slot.toVariable (Translator.stem number) := by
    intro name member same
    cases written : filter.subject with
    | var own =>
      rw [written] at member other
      exact other (congrArg _ ((List.mem_singleton.1 member).symm.trans same))
    | _ =>
      rw [written] at member
      cases member
  exact fun member => (scoped_lower subject (word (by decide)) (word (by decide))
    (word (by decide)) lowered).named _ member rfl

end SpatialFilter

/-! ### Properties -/

/-- Whether what a group of a property shows is found, or names a slot of its number that vouches
for it and is not the value, or is found in the pattern of an optional queryable and names nothing
but the focus and the value. -/
def Backed (loose : Path → Prop) (number : Nat) (bound : Group × Term) (shown : TemplateTriple) :
    Prop :=
  groupAsks False (shown.Shows loose) bound.1 ∨
  (∃ slot : Shape.Slot, slot.toVariable (Translator.stem number) ∈ shown.names ∧
    bound.2 ≠ .var (slot.toVariable (Translator.stem number)) ∧
      bound.1.Backs (shown.Shows loose) (slot.toVariable (Translator.stem number))) ∨
  ∃ (slot : Shape.Slot) (inner : Group), bound.1 = [.optional inner] ∧
    groupAsks False (shown.Shows loose) inner ∧ shown ∈ groupTemplateTriples inner ∧
      ∀ name ∈ shown.names, name ∈ [Shape.focusNode] ∨
        name = slot.toVariable (Translator.stem number)

namespace Translator

variable {translator : Translator} {loose : Path → Prop}

theorem backed_bindShape {operator : String} {property : Property} {shape : PropertyShape}
    {number : Nat} {bound : Group × Term} (regular : shape.Regular) (filled : shape.Filled)
    (free : ∀ path, shape.Matches path → loose path)
    (made : bindShape operator property shape number = .ok bound) {shown : TemplateTriple}
    (shows : shown ∈ groupTemplateTriples bound.1) : Backed loose number bound shown := by
  unfold bindShape at made
  split at made
  · cases made
  · dsimp only at made
    split at made
    · cases made
    · rename_i fragment next lowered
      split at made
      · rename_i terminal ended
        cases made
        have plain : Lowering.Plain ⟨.profile, focus, []⟩ := ⟨nofun, rfl⟩
        have other (slot : Shape.Slot) :
            slot.toVariable (Shape.Scope.start (stem number)).stem ∉ [Shape.focusNode] :=
          fun member => slot.toVariable_ne_focusNode _ (List.mem_singleton.1 member)
        have backed := @Lowering.backed_property _ False loose plain _ other _ regular filled free
          False.elim _ _ lowered _ (.inl shows)
        rcases backed with asks | ⟨key, named, ⟨slot, -, same⟩, backs, elsewhere⟩ |
          ⟨inner, optional, asks, -, known⟩
        · exact .inl asks
        · cases same
          refine .inr (.inl ⟨slot, named, fun leads => elsewhere ?_, backs⟩)
          rw [ended]
          exact congrArg some leads
        · obtain ⟨slot, value⟩ := Lowering.property_terminal _ _ plain regular lowered ended
          rw [optional] at shows
          rw [ended, value] at known
          exact .inr (.inr ⟨slot, inner, optional, asks,
            (List.mem_append.1 shows).resolve_right List.not_mem_nil,
            fun name named => (known name named).imp_right fun same =>
              (Term.var.inj (Option.some.inj same)).symm⟩)
      · cases made

theorem backed_bind (regular : ∀ entry ∈ translator.queryables, entry.2.Regular)
    (filled : ∀ entry ∈ translator.queryables, entry.2.Filled)
    (free : ∀ path, translator.Matches path → loose path) {operator : String}
    {property : Property} {number : Nat} {bound : Group × Term}
    (made : translator.bind operator property number = .ok bound) {shown : TemplateTriple}
    (shows : shown ∈ groupTemplateTriples bound.1) : Backed loose number bound shown := by
  unfold bind at made
  split at made
  · rename_i shape found
    obtain ⟨entry, member, rfl⟩ := mem_of_shape? found
    refine backed_bindShape (regular entry member) (filled entry member) ?_ made shows
    exact fun path matched => free path (.inl ⟨entry, member, matched⟩)
  · unfold bindPredicate at made
    split at made
    · cases made
    · cases made
      refine .inl (asks_of_tells ?_ shown shows)
      split <;> exact List.forall_mem_singleton.2 (tells_triple _)

/-! ### Conditions -/

/-- Whether all that a group shows is upheld by the variables of some conditions, unless it is
exposed. -/
structure Upheld (loose : Path → Prop) (low high : Nat) (group : Group) : Prop where
  block : Block low high (Sparql.groupAtoms group)
  upholds : ∀ shown ∈ groupTemplateTriples group,
    group.Upholds (shown.Shows loose) shown.names (fun name => InBlock low high (.var name)) ∨
      group.Exposes [Shape.focusNode] shown

theorem inBlock_ne_focus {low high : Nat} {name : Variable} (owned : InBlock low high (.var name)) :
    name ≠ Shape.focusNode := by
  obtain ⟨number, -, -, ⟨part, same⟩ | same⟩ := owned
  · rw [Sparql.Unknown.var.inj same]
    exact part.name_ne_focusNode number
  · cases same

namespace Upheld

theorem nil (count : Nat) : Upheld loose count count [] :=
  ⟨.nil count, fun _ member => absurd member List.not_mem_nil⟩

theorem append {low middle high : Nat} {first second : Group}
    (one : Upheld loose low middle first) (other : Upheld loose middle high second) :
    Upheld loose low high (first ++ second) where
  block := by
    rw [Sparql.groupAtoms_append]
    exact one.block.append other.block
  upholds shown member := by
    rw [groupTemplateTriples_append] at member
    rcases List.mem_append.1 member with inFirst | inSecond
    · refine (one.upholds shown inFirst).imp (fun upholds => ?_) fun exposes =>
        exposes.mono (List.subset_append_left _ _)
      refine (upholds.append_left other.block.named ?_).mono fun name owned =>
        owned.mono (Nat.le_refl _) other.block.ordered
      exact fun name owned late => late.elim (inBlock_ne_focus owned) owned.apart
    · refine (other.upholds shown inSecond).imp (fun upholds => ?_) fun exposes =>
        exposes.mono (List.subset_append_right _ _)
      refine (upholds.append_right one.block.named ?_).mono fun name owned =>
        owned.mono one.block.ordered (Nat.le_refl _)
      exact fun name owned early => early.elim (inBlock_ne_focus owned) fun inside =>
        inside.apart owned

/-- A group that shows only what it has found. -/
theorem of_asks {low high : Nat} {group : Group} (block : Block low high (Sparql.groupAtoms group))
    (asks : ∀ shown ∈ groupTemplateTriples group, groupAsks False (shown.Shows loose) group) :
    Upheld loose low high group :=
  ⟨block, fun shown member => .inl (.inl (asks shown member))⟩

/-- The group of a property before elements that give no value to its slots but its own value. -/
theorem of_backed {count : Nat} {bound : Group × Term} {rest : Group}
    (block : Block count (count + 1) (Sparql.groupAtoms (bound.1 ++ rest)))
    (backed : ∀ shown ∈ groupTemplateTriples bound.1, Backed loose (count + 1) bound shown)
    (steady : ∀ element ∈ rest, element.Steady)
    (asks : ∀ shown ∈ groupTemplateTriples rest, groupAsks False (shown.Shows loose) rest)
    (vouches : ∀ (sort : TriplePattern → Prop) (slot : Shape.Slot),
      bound.2 ≠ .var (slot.toVariable (stem (count + 1))) →
        groupVouches sort (slot.toVariable (stem (count + 1))) rest) :
    Upheld loose count (count + 1) (bound.1 ++ rest) where
  block := block
  upholds shown member := by
    rw [groupTemplateTriples_append] at member
    rcases List.mem_append.1 member with inBound | inRest
    · have owned (slot : Shape.Slot) :
          InBlock count (count + 1) (.var (slot.toVariable (stem (count + 1)))) :=
        ⟨count + 1, Nat.lt_succ_self _, Nat.le_refl _, .inl ⟨.slot slot, rfl⟩⟩
      rcases backed shown inBound with found | ⟨slot, named, other, backs⟩ |
        ⟨slot, inner, optional, inside, shows, known⟩
      · exact .inl (.inl (groupAsks_append.2 (.inl found)))
      · exact .inl (.inr ⟨_, named, owned slot, backs.append (vouches _ slot other)⟩)
      · rw [optional]
        refine (Group.backs_or_exposes inside shows known steady).imp_left fun backed => ?_
        exact .inr ⟨_, backed.1, owned slot, backed.2⟩
    · exact .inl (.inl (groupAsks_append.2 (.inr (asks shown inRest))))

/-- The group of a property before a condition on its value. -/
theorem of_filter {count : Nat} {bound : Group × Term} {condition : Sparql.Expression}
    (block : Block count (count + 1) (Sparql.groupAtoms (bound.1 ++ [.filter condition])))
    (backed : ∀ shown ∈ groupTemplateTriples bound.1, Backed loose (count + 1) bound shown) :
    Upheld loose count (count + 1) (bound.1 ++ [.filter condition]) :=
  .of_backed block backed (List.forall_mem_singleton.2 trivial)
    (fun _ none => absurd none List.not_mem_nil) fun _ _ _ => ⟨trivial, trivial⟩

/-- The group of a property before a list of its values. -/
theorem of_column {count : Nat} {first : Group} {name : Variable} {values : List Term}
    (block : Block count (count + 1) (Sparql.groupAtoms (first ++ [.column name values])))
    (backed : ∀ shown ∈ groupTemplateTriples first,
      Backed loose (count + 1) (first, .var name) shown) :
    Upheld loose count (count + 1) (first ++ [.column name values]) :=
  @of_backed loose count (first, .var name) _ block backed (List.forall_mem_singleton.2 trivial)
    (fun _ none => absurd none List.not_mem_nil) fun _ _ other =>
      ⟨fun member => other (congrArg _ (List.mem_singleton.1 member).symm), trivial⟩

end Upheld

section Followable

variable (followable : translator.Followable) (free : ∀ path, translator.Matches path → loose path)

include followable free

theorem backed_of_bind {operator : String} {property : Property} {number : Nat}
    {bound : Group × Term} (made : translator.bind operator property number = .ok bound) :
    ∀ shown ∈ groupTemplateTriples bound.1, Backed loose number bound shown :=
  fun _ shows => backed_bind followable.regular followable.filled free made shows

theorem upheld_compare {comparison : Sparql.Comparison} {property : Property} {value : Value}
    {count : Nat} {group : Group}
    (lowered : translator.compare comparison property value (count + 1) = .ok group)
    (block : Block count (count + 1) (Sparql.groupAtoms group)) :
    Upheld loose count (count + 1) group := by
  obtain ⟨⟨first, object⟩, bound, further⟩ := bind_ok.1 lowered
  have backed := backed_of_bind followable free bound
  dsimp only at further
  split at further
  · cases further
    exact .of_column block backed
  · obtain ⟨left, -, total⟩ := bind_ok.1 further
    cases total
    exact .of_filter block backed

theorem upheld_like {property : Property} {pattern : String} {count : Nat} {group : Group}
    (lowered : translator.like property pattern (count + 1) = .ok group)
    (block : Block count (count + 1) (Sparql.groupAtoms group)) :
    Upheld loose count (count + 1) group := by
  obtain ⟨⟨first, object⟩, bound, further⟩ := bind_ok.1 lowered
  obtain ⟨left, -, total⟩ := bind_ok.1 further
  cases total
  exact .of_filter block (backed_of_bind followable free bound)

theorem upheld_oneOf {property : Property} {values : List Value} {count : Nat} {group : Group}
    (lowered : translator.oneOf property values (count + 1) = .ok group)
    (block : Block count (count + 1) (Sparql.groupAtoms group)) :
    Upheld loose count (count + 1) group := by
  obtain ⟨⟨first, object⟩, bound, further⟩ := bind_ok.1 lowered
  have backed := backed_of_bind followable free bound
  dsimp only at further
  split at further
  · cases further
    exact .of_column block backed
  · obtain ⟨left, -, total⟩ := bind_ok.1 further
    cases total
    exact .of_filter block backed

theorem upheld_spatial {relation : SpatialRelation} {property : Property} {geometry : Geometry}
    {count : Nat} {group : Group}
    (lowered : translator.spatial relation property geometry (count + 1) = .ok group)
    (block : Block count (count + 1) (Sparql.groupAtoms group)) :
    Upheld loose count (count + 1) group := by
  rw [spatial_eq] at lowered
  obtain ⟨⟨first, subject⟩, bound, further⟩ := bind_ok.1 lowered
  obtain ⟨related, relatedLowered, total⟩ := bind_ok.1 further
  cases total
  refine @Upheld.of_backed loose count (first, subject) _ block ?_
    (SpatialFilter.steady_lower relatedLowered)
    (asks_of_tells (SpatialFilter.tells_lower relatedLowered)) fun _ slot other =>
      Sparql.groupVouches_of_free _ (SpatialFilter.free_of_lower rfl other relatedLowered)
  unfold bindGeometry at bound
  split at bound
  · cases bound
    exact fun _ none => absurd none List.not_mem_nil
  · exact backed_of_bind followable free bound

/-! ### Temporal relations -/

theorem upheld_timeValue {operator : String} {count final : Nat} {value : TimeValue}
    {group : Group} {expression : Sparql.Expression}
    (lowered : translator.timeValue operator count value = .ok (group, expression, final)) :
    Upheld loose count final group := by
  cases value with
  | literal literal =>
    cases lowered
    exact .nil count
  | property property =>
    obtain ⟨size, grown, moved⟩ := timeValue_renumbered followable.regular lowered
    obtain ⟨⟨first, object⟩, bound, further⟩ := bind_ok.1 lowered
    obtain ⟨made, -, total⟩ := bind_ok.1 further
    cases total
    cases (Nat.add_left_cancel grown : 1 = size)
    have block : Block count (count + 1) (Sparql.groupAtoms group) := .of_fixed fun _ shifts => by
      have again := moved shifts
      rw [lowered] at again
      exact (Prod.ext_iff.1 (Except.ok.inj again)).1.symm
    have upheld := @Upheld.of_backed loose count (group, object) [] (by rwa [List.append_nil])
      (backed_of_bind followable free bound) (fun _ none => absurd none List.not_mem_nil)
      (fun _ none => absurd none List.not_mem_nil) fun _ _ _ => trivial
    rwa [List.append_nil] at upheld

theorem upheld_bound {operator : String} {count final : Nat} {value : Option TimeValue}
    {group : Group} {side : Option Sparql.Expression}
    (lowered : translator.bound operator count value = .ok (group, side, final)) :
    Upheld loose count final group := by
  cases value with
  | none =>
    cases lowered
    exact .nil count
  | some value =>
    obtain ⟨⟨first, expression, next⟩, valueLowered, total⟩ := bind_ok.1 lowered
    cases total
    exact upheld_timeValue followable free valueLowered

theorem upheld_period {operator : String} {count final : Nat} {operand : TemporalOperand}
    {group : Group} {period : Period}
    (lowered : translator.period operator count operand = .ok (group, period, final)) :
    Upheld loose count final group := by
  cases operand with
  | instant value =>
    obtain ⟨⟨first, expression, next⟩, valueLowered, total⟩ := bind_ok.1 lowered
    cases total
    exact upheld_timeValue followable free valueLowered
  | interval start finish =>
    obtain ⟨⟨first, opening, middle⟩, startLowered, further⟩ := bind_ok.1 lowered
    obtain ⟨⟨second, closing, next⟩, finishLowered, total⟩ := bind_ok.1 further
    cases total
    exact (upheld_bound followable free startLowered).append
      (upheld_bound followable free finishLowered)

theorem upheld_temporal {relation : TemporalRelation} {left right : TemporalOperand}
    {count final : Nat} {group : Group}
    (lowered : translator.temporal relation left right count = .ok (group, final))
    (block : Block count final (Sparql.groupAtoms group)) :
    Upheld loose count final group := by
  obtain ⟨-, -, further⟩ := bind_ok.1 lowered
  obtain ⟨⟨first, before, middle⟩, leftLowered, further⟩ := bind_ok.1 further
  obtain ⟨⟨second, after, next⟩, rightLowered, total⟩ := bind_ok.1 further
  cases total
  have operands := (upheld_period followable free leftLowered).append
    (upheld_period followable free rightLowered)
  refine ⟨block, fun shown member => ?_⟩
  rw [groupTemplateTriples_append] at member
  refine (operands.upholds shown ((List.mem_append.1 member).resolve_right
    List.not_mem_nil)).imp (fun upholds => ?_) fun exposes =>
      exposes.mono (List.subset_append_left _ _)
  exact upholds.imp (fun asks => groupAsks_append.2 (.inl asks)) fun ⟨key, named, owned, backs⟩ =>
    ⟨key, named, owned, backs.append ⟨trivial, trivial⟩⟩

/-! ### Filters -/

/-- A condition upholds all that it shows, unless it is exposed. -/
theorem upheld_leaf {condition : Leaf} {count final : Nat} {group : Group}
    (lowered : translator.leaf count condition = .ok (group, final)) :
    Upheld loose count final group := by
  have block := leaf_block followable.functions followable.regular lowered
  cases condition with
  | temporal relation left right => exact upheld_temporal followable free lowered block
  | compare comparison property value =>
    obtain ⟨single, singleLowered, total⟩ := bind_ok.1 lowered
    cases total
    exact upheld_compare followable free singleLowered block
  | like property pattern =>
    obtain ⟨single, singleLowered, total⟩ := bind_ok.1 lowered
    cases total
    exact upheld_like followable free singleLowered block
  | oneOf property values =>
    obtain ⟨single, singleLowered, total⟩ := bind_ok.1 lowered
    cases total
    exact upheld_oneOf followable free singleLowered block
  | spatial relation property geometry =>
    obtain ⟨single, singleLowered, total⟩ := bind_ok.1 lowered
    cases total
    exact upheld_spatial followable free singleLowered block
  | function name arguments =>
    obtain ⟨single, singleLowered, total⟩ := bind_ok.1 lowered
    cases total
    unfold function at singleLowered
    split at singleLowered
    · cases singleLowered
    · rename_i function found
      split at singleLowered
      · have tells : function.Tells loose := Registry.standard_tells
          (fun places member => free _ (.inr ⟨places, member, rfl⟩)) function
            (followable.functions ▸ List.mem_of_find?_eq_some found)
        exact .of_asks block (asks_of_tells (tells singleLowered))
      · cases singleLowered

end Followable

/-- Whether what some branches show names a variable of their conditions with which every branch
vouches for it, unless it names the focus at most or its branch exposes it. -/
def Vouched (loose : Path → Prop) (low high : Nat) (branches : List Group) : Prop :=
  ∀ branch ∈ branches, ∀ shown ∈ groupTemplateTriples branch,
    (∃ key ∈ shown.names, InBlock low high (.var key) ∧
      ∀ other ∈ branches, other.Backs (shown.Shows loose) key) ∨
    (∀ name ∈ shown.names, name ∈ [Shape.focusNode]) ∨
    branch.Exposes [Shape.focusNode] shown

/-- A branch before branches with other conditions. -/
theorem Vouched.cons {low middle high : Nat} {first : Group} {rest : List Group}
    (upheld : Upheld loose low middle first)
    (others : Block middle high (Sparql.branchAtoms rest)) (vouched : Vouched loose middle high rest) :
    Vouched loose low high (first :: rest) := by
  have keyed {shown : TemplateTriple} {key : Variable} (named : key ∈ shown.names)
      (owned : InBlock low middle (.var key)) (backs : first.Backs (shown.Shows loose) key) :
      ∃ key ∈ shown.names, InBlock low high (.var key) ∧
        ∀ other ∈ first :: rest, other.Backs (shown.Shows loose) key := by
    refine ⟨key, named, owned.mono (Nat.le_refl _) others.ordered,
      List.forall_mem_cons.2 ⟨backs, fun other member => .inr ?_⟩⟩
    exact Sparql.groupVouches_of_free _ fun inside =>
      (Sparql.Atom.namedIn_branches.1 others.named other member key inside).elim
        (inBlock_ne_focus owned) owned.apart
  refine List.forall_mem_cons.2 ⟨fun shown shows => ?_, fun branch member shown shows => ?_⟩
  · rcases upheld.upholds shown shows with (asks | ⟨key, named, owned, backs⟩) | exposes
    · by_cases known : ∀ name ∈ shown.names, name ∈ [Shape.focusNode]
      · exact .inr (.inl known)
      · push Not at known
        obtain ⟨key, named, other⟩ := known
        have inside := Sparql.mem_unknowns_of_groupScope _
          (Sparql.scope_groupTemplateTriples _ shown shows key named)
        refine .inl (keyed named ((upheld.block.named key inside).resolve_left fun same => ?_)
          (.inl asks))
        exact other (List.mem_singleton.2 same)
    · exact .inl (keyed named owned backs)
    · exact .inr (.inr exposes)
  · refine (vouched branch member shown shows).imp_left ?_
    rintro ⟨key, named, owned, backs⟩
    refine ⟨key, named, owned.mono upheld.block.ordered (Nat.le_refl _),
      List.forall_mem_cons.2 ⟨.inr ?_, backs⟩⟩
    exact Sparql.groupVouches_of_free _ fun inside =>
      (upheld.block.named key inside).elim (inBlock_ne_focus owned) fun early => early.apart owned

mutual

/-- A filter upholds all that it shows, unless it is exposed. -/
theorem upheld_lower {translator : Translator} {loose : Path → Prop}
    (followable : translator.Followable) (free : ∀ path, translator.Matches path → loose path)
    (filter : Expression) {count final : Nat} {group : Group}
    (lowered : translator.lower count filter = .ok (group, final)) :
    Upheld loose count final group := by
  match filter with
  | .leaf condition => exact upheld_leaf followable free lowered
  | .all operands => exact upheld_lowerAll followable free operands lowered
  | .any operands =>
    have block := lower_block followable.functions followable.regular (.any operands) lowered
    obtain ⟨⟨branches, after⟩, branchesLowered, total⟩ := bind_ok.1 lowered
    cases total
    refine ⟨block, fun shown member => ?_⟩
    obtain ⟨branch, among, shows⟩ := mem_branchesTemplateTriples.1
      ((List.mem_append.1 member).resolve_right List.not_mem_nil)
    rcases vouched_lowerEach followable free operands branchesLowered branch among shown shows with
      ⟨key, named, owned, backs⟩ | known | exposes
    · exact .inl (.inr ⟨key, named, owned, .union backs⟩)
    · exact .inr (.inl ⟨branches, .here List.mem_cons_self, ⟨branch, among, shows⟩, known⟩)
    · exact .inr (exposes.union among)
  | .not operand =>
    have block := lower_block followable.functions followable.regular (.not operand) lowered
    obtain ⟨⟨forbidden, after⟩, operandLowered, total⟩ := bind_ok.1 lowered
    cases total
    exact ⟨block, fun _ member => absurd member List.not_mem_nil⟩

theorem upheld_lowerAll {translator : Translator} {loose : Path → Prop}
    (followable : translator.Followable) (free : ∀ path, translator.Matches path → loose path)
    (operands : List Expression) {count final : Nat} {group : Group}
    (lowered : translator.lowerAll count operands = .ok (group, final)) :
    Upheld loose count final group := by
  match operands with
  | [] =>
    cases lowered
    exact .nil count
  | operand :: rest =>
    obtain ⟨⟨first, middle⟩, firstLowered, further⟩ := bind_ok.1 lowered
    obtain ⟨⟨others, after⟩, othersLowered, total⟩ := bind_ok.1 further
    cases total
    exact (upheld_lower followable free operand firstLowered).append
      (upheld_lowerAll followable free rest othersLowered)

theorem vouched_lowerEach {translator : Translator} {loose : Path → Prop}
    (followable : translator.Followable) (free : ∀ path, translator.Matches path → loose path)
    (operands : List Expression) {count final : Nat} {branches : List Group}
    (lowered : translator.lowerEach count operands = .ok (branches, final)) :
    Vouched loose count final branches := by
  match operands with
  | [] =>
    cases lowered
    exact fun _ member => absurd member List.not_mem_nil
  | operand :: rest =>
    obtain ⟨⟨first, middle⟩, firstLowered, further⟩ := bind_ok.1 lowered
    obtain ⟨⟨others, after⟩, othersLowered, total⟩ := bind_ok.1 further
    cases total
    exact .cons (upheld_lower followable free operand firstLowered)
      (lowerEach_block followable.functions followable.regular rest othersLowered)
      (vouched_lowerEach followable free rest othersLowered)

end

/-- The query for the triples that a filter looks at upholds all that it shows, unless it is
exposed. -/
theorem supported_query (engine : Sparql.Engine) (graph : Rdf.Graph)
    (followable : translator.Followable) {filter : Expression} {query : Sparql.Query}
    (made : translator.query filter = .ok query) :
    query.Supported engine graph translator.Matches
      (query.pattern.Exposes [Shape.focusNode]) := by
  obtain ⟨group, translated, total⟩ := bind_ok.1 made
  cases total
  obtain ⟨⟨lowered, final⟩, succeeds, same⟩ := bind_ok.1 translated
  cases same
  have upheld := upheld_lower followable (fun _ matched => matched) filter succeeds
  refine Sparql.Query.supported_of_upholds engine fun shown member => upheld.upholds shown ?_
  exact List.mem_eraseDups.1 (List.mem_eraseDups.1 member)

end Translator

end ShapeQuery.Filter
