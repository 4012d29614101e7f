/-
This file proves that the conditions of a filter never share a variable. Each condition, and each
property that a temporal relation compares, is a site with a number of its own: the sites of a
filter are numbered one after another in the order of the document, however they are nested, and
whatever a site brings in carries its number.
-/
import ShapeQuery.Proofs.Filter.Blocks

namespace ShapeQuery.Filter

open Sparql (Term Group Atom Unknown groupAtoms branchAtoms)
open Success (bind_ok map_ok)

/-! ### Sites -/

/-- Whether a condition is a temporal relation. -/
def Leaf.isTemporal : Leaf → Bool
  | .temporal .. => true
  | _ => false

/-- A place of a filter with a number of its own. -/
inductive Site where
  /-- A condition other than a temporal relation. -/
  | condition (leaf : Leaf) (single : leaf.isTemporal = false)
  /-- A property that a temporal relation compares. -/
  | operand (operator : String) (property : Property)

/-- The properties of a bounded side. -/
def TimeValue.properties : TimeValue → List Property
  | .property compared => [compared]
  | .literal _ => []

/-- The properties of an operand, the start before the end. -/
def TemporalOperand.properties : TemporalOperand → List Property
  | .instant value => value.properties
  | .interval start finish =>
    start.toList.flatMap TimeValue.properties ++ finish.toList.flatMap TimeValue.properties

/-- The sites of a condition. A temporal relation has one for each of its properties. -/
def Leaf.sites : Leaf → List Site
  | .temporal relation left right =>
    (left.properties ++ right.properties).map (.operand relation.name)
  | .compare comparison property value => [.condition (.compare comparison property value) rfl]
  | .like property pattern => [.condition (.like property pattern) rfl]
  | .oneOf property values => [.condition (.oneOf property values) rfl]
  | .spatial relation property geometry => [.condition (.spatial relation property geometry) rfl]
  | .function name arguments => [.condition (.function name arguments) rfl]

mutual

/-- The sites of a filter in the order of the document. -/
def Expression.sites : Expression → List Site
  | .leaf leaf => leaf.sites
  | .all operands => listSites operands
  | .any operands => listSites operands
  | .not operand => operand.sites

/-- The sites of some filters. -/
def listSites : List Expression → List Site
  | [] => []
  | operand :: rest => operand.sites ++ listSites rest

end

/-! ### Numbers -/

/-- Whether an unknown carries a number: it is the variable of a part with that number, or the
label of its configuration. -/
def IsNumbered (number : Nat) (unknown : Unknown) : Prop :=
  (∃ part : Part, unknown = .var (part.name number)) ∨ unknown = .blank (configuration number)

namespace IsNumbered

variable {number other : Nat} {unknown : Unknown}

/-- An unknown carries one number only. -/
theorem unique (numbered : IsNumbered number unknown) (again : IsNumbered other unknown) :
    number = other := by
  rcases numbered with ⟨part, rfl⟩ | rfl
  · rcases again with ⟨otherPart, same⟩ | same
    · exact (Part.name_inj (Unknown.var.inj same)).2
    · cases same
  · rcases again with ⟨otherPart, same⟩ | same
    · cases same
    · exact configuration_injective (Unknown.blank.inj same)

theorem ne_focusNode (numbered : IsNumbered number unknown) :
    unknown ≠ .var Shape.focusNode := by
  rcases numbered with ⟨part, rfl⟩ | rfl
  · exact fun same => part.name_ne_focusNode number (Unknown.var.inj same)
  · exact nofun

end IsNumbered

/-- What a block of one condition owns carries the number of the condition. -/
theorem InBlock.isNumbered {count : Nat} {unknown : Unknown}
    (inBlock : InBlock count (count + 1) unknown) : IsNumbered (count + 1) unknown := by
  obtain ⟨number, above, below, named⟩ := inBlock
  obtain rfl : number = count + 1 := by omega
  exact named

theorem Block.unknowns {low high : Nat} {group : Group} (block : Block low high (groupAtoms group)) :
    ∀ unknown ∈ group.unknowns, unknown = .var Shape.focusNode ∨ InBlock low high unknown := by
  intro unknown member
  obtain ⟨atom, found, named⟩ := List.mem_filterMap.1 member
  rcases block.owned atom found with rfl | owned
  · exact .inl (Option.some.inj named).symm
  · exact .inr (owned unknown named)

namespace Translator

variable {translator : Translator}

/-! ### The groups of sites -/

/-- The group of a site after the given number of sites. -/
def site (translator : Translator) (count : Nat) : Site → Except Error Group
  | .condition leaf _ => (translator.leaf count leaf).map Prod.fst
  | .operand operator property =>
    (translator.bind operator property (count + 1)).map Prod.fst

/-- The groups of some sites, numbered one after another. -/
def parts (translator : Translator) (count : Nat) : List Site → Except Error (List Group)
  | [] => .ok []
  | site :: rest => do
    let first ← translator.site count site
    return first :: (← translator.parts (count + 1) rest)

theorem parts_append {count : Nat} {first second : List Site} {groups others : List Group}
    (firstMade : translator.parts count first = .ok groups)
    (secondMade : translator.parts (count + first.length) second = .ok others) :
    translator.parts count (first ++ second) = .ok (groups ++ others) := by
  induction first generalizing count groups with
  | nil =>
    cases firstMade
    exact secondMade
  | cons site rest inductionHypothesis =>
    obtain ⟨head, headMade, further⟩ := bind_ok.1 firstMade
    obtain ⟨tail, tailMade, total⟩ := bind_ok.1 further
    cases total
    rw [List.length_cons, Nat.add_comm rest.length, ← Nat.add_assoc] at secondMade
    exact bind_ok.2 ⟨head, headMade,
      bind_ok.2 ⟨tail ++ others, inductionHypothesis tailMade secondMade, rfl⟩⟩

/-- The site at an index is lowered after as many sites as its index says. -/
theorem site_of_parts {count : Nat} {sites : List Site} {groups : List Group}
    (made : translator.parts count sites = .ok groups) {index : Nat} {group : Group}
    (found : groups[index]? = some group) :
    ∃ site, sites[index]? = some site ∧ translator.site (count + index) site = .ok group := by
  induction sites generalizing count groups index with
  | nil =>
    cases made
    cases found
  | cons site rest inductionHypothesis =>
    obtain ⟨head, headMade, further⟩ := bind_ok.1 made
    obtain ⟨tail, tailMade, total⟩ := bind_ok.1 further
    cases total
    cases index with
    | zero =>
      cases found
      exact ⟨site, rfl, headMade⟩
    | succ index =>
      obtain ⟨later, located, lowered⟩ := inductionHypothesis tailMade found
      rw [Nat.add_assoc, Nat.add_comm 1] at lowered
      exact ⟨later, located, lowered⟩

theorem length_of_parts {count : Nat} {sites : List Site} {groups : List Group}
    (made : translator.parts count sites = .ok groups) : groups.length = sites.length := by
  induction sites generalizing count groups with
  | nil =>
    cases made
    rfl
  | cons site rest inductionHypothesis =>
    obtain ⟨head, -, further⟩ := bind_ok.1 made
    obtain ⟨tail, tailMade, total⟩ := bind_ok.1 further
    cases total
    exact congrArg (· + 1) (inductionHypothesis tailMade)

/-! ### What is made of sites -/

/-- Whether atoms are made of the groups of some sites, in their order, and the sites take the
numbers after `count` and up to `final`. -/
structure Made (translator : Translator) (count final : Nat) (sites : List Site)
    (atoms : List Atom) : Prop where
  final : final = count + sites.length
  parts : ∃ groups, translator.parts count sites = .ok groups ∧
    (groups.flatMap groupAtoms).Sublist atoms

namespace Made

variable {count middle final : Nat} {sites others : List Site} {atoms more : List Atom}

theorem nil (count : Nat) (atoms : List Atom) : translator.Made count count [] atoms :=
  ⟨rfl, [], rfl, List.nil_sublist atoms⟩

theorem single {site : Site} {group : Group} (lowered : translator.site count site = .ok group) :
    translator.Made count (count + 1) [site] (groupAtoms group) := by
  refine ⟨rfl, [group], bind_ok.2 ⟨group, lowered, rfl⟩, ?_⟩
  rw [List.flatMap_singleton]

theorem append (made : translator.Made count middle sites atoms)
    (later : translator.Made middle final others more) :
    translator.Made count final (sites ++ others) (atoms ++ more) := by
  obtain ⟨rfl, groups, groupsMade, within⟩ := made
  obtain ⟨rfl, rest, restMade, restWithin⟩ := later
  refine ⟨by rw [List.length_append, Nat.add_assoc], groups ++ rest,
    parts_append groupsMade restMade, ?_⟩
  rw [List.flatMap_append]
  exact within.append restWithin

theorem extended (made : translator.Made count final sites atoms) (more : List Atom) :
    translator.Made count final sites (atoms ++ more) := by
  obtain ⟨last, groups, groupsMade, within⟩ := made
  exact ⟨last, groups, groupsMade, within.trans (List.sublist_append_left atoms more)⟩

end Made

/-! ### Temporal relations -/

variable {operator : String} {count final : Nat} {group : Group}

theorem timeValue_made {value : TimeValue} {expression : Sparql.Expression}
    (lowered : translator.timeValue operator count value = .ok (group, expression, final)) :
    translator.Made count final (value.properties.map (.operand operator))
      (groupAtoms group) := by
  cases value with
  | literal literal =>
    cases lowered
    exact .nil count []
  | property property =>
    obtain ⟨⟨first, object⟩, bound, further⟩ := bind_ok.1 lowered
    obtain ⟨made, -, total⟩ := bind_ok.1 further
    cases total
    exact .single (map_ok.2 ⟨_, bound, rfl⟩)

theorem bound_made {value : Option TimeValue} {side : Option Sparql.Expression}
    (lowered : translator.bound operator count value = .ok (group, side, final)) :
    translator.Made count final
      ((value.toList.flatMap TimeValue.properties).map (.operand operator))
      (groupAtoms group) := by
  cases value with
  | none =>
    cases lowered
    exact .nil count []
  | some bounded =>
    obtain ⟨⟨first, expression, next⟩, valueLowered, total⟩ := bind_ok.1 lowered
    cases total
    rw [Option.toList_some, List.flatMap_singleton]
    exact timeValue_made valueLowered

theorem period_made {operand : TemporalOperand} {period : Period}
    (lowered : translator.period operator count operand = .ok (group, period, final)) :
    translator.Made count final (operand.properties.map (.operand operator))
      (groupAtoms group) := by
  cases operand with
  | instant value =>
    obtain ⟨⟨first, expression, next⟩, valueLowered, total⟩ := bind_ok.1 lowered
    cases total
    exact timeValue_made valueLowered
  | interval start finish =>
    obtain ⟨⟨first, opening, middle⟩, startLowered, further⟩ := bind_ok.1 lowered
    obtain ⟨⟨second, closing, next⟩, finishLowered, total⟩ := bind_ok.1 further
    cases total
    rw [TemporalOperand.properties, List.map_append, Sparql.groupAtoms_append]
    exact (bound_made startLowered).append (bound_made finishLowered)

theorem temporal_made {relation : TemporalRelation} {left right : TemporalOperand}
    (lowered : translator.temporal relation left right count = .ok (group, final)) :
    translator.Made count final (Leaf.temporal relation left right).sites
      (groupAtoms group) := by
  obtain ⟨-, -, further⟩ := bind_ok.1 lowered
  obtain ⟨⟨first, before, middle⟩, leftLowered, further⟩ := bind_ok.1 further
  obtain ⟨⟨second, after, next⟩, rightLowered, total⟩ := bind_ok.1 further
  cases total
  rw [Leaf.sites, List.map_append, Sparql.groupAtoms_append, Sparql.groupAtoms_append]
  exact ((period_made leftLowered).append (period_made rightLowered)).extended _

/-! ### Filters -/

/-- A condition other than a temporal relation takes one number. -/
theorem final_of_leaf {condition : Leaf} (single : condition.isTemporal = false)
    (lowered : translator.leaf count condition = .ok (group, final)) : final = count + 1 := by
  cases condition with
  | temporal relation left right => cases single
  | _ =>
    obtain ⟨_, -, total⟩ := bind_ok.1 lowered
    cases total
    rfl

theorem leaf_made {condition : Leaf}
    (lowered : translator.leaf count condition = .ok (group, final)) :
    translator.Made count final condition.sites (groupAtoms group) := by
  have alone (single : condition.isTemporal = false) :
      translator.Made count final [.condition condition single] (groupAtoms group) :=
    final_of_leaf single lowered ▸ .single (map_ok.2 ⟨_, lowered, rfl⟩)
  cases condition with
  | temporal relation left right => exact temporal_made lowered
  | _ => exact alone rfl

mutual

theorem lower_made (filter : Expression) {count final : Nat} {group : Group}
    (lowered : translator.lower count filter = .ok (group, final)) :
    translator.Made count final filter.sites (groupAtoms group) := by
  match filter with
  | .leaf condition => exact leaf_made lowered
  | .all operands => exact lowerAll_made operands lowered
  | .any operands =>
    obtain ⟨⟨branches, after⟩, branchesLowered, total⟩ := bind_ok.1 lowered
    cases total
    rw [groupAtoms, groupAtoms, List.append_nil]
    exact lowerEach_made operands branchesLowered
  | .not operand =>
    obtain ⟨⟨forbidden, after⟩, operandLowered, total⟩ := bind_ok.1 lowered
    cases total
    rw [groupAtoms, groupAtoms, List.append_nil]
    exact lower_made operand operandLowered

theorem lowerAll_made (operands : List Expression) {count final : Nat} {group : Group}
    (lowered : translator.lowerAll count operands = .ok (group, final)) :
    translator.Made count final (listSites operands) (groupAtoms group) := by
  match operands with
  | [] =>
    cases lowered
    exact .nil count []
  | operand :: rest =>
    obtain ⟨⟨first, middle⟩, firstLowered, further⟩ := bind_ok.1 lowered
    obtain ⟨⟨others, after⟩, othersLowered, total⟩ := bind_ok.1 further
    cases total
    rw [Sparql.groupAtoms_append]
    exact (lower_made operand firstLowered).append (lowerAll_made rest othersLowered)

theorem lowerEach_made (operands : List Expression) {count final : Nat} {branches : List Group}
    (lowered : translator.lowerEach count operands = .ok (branches, final)) :
    translator.Made count final (listSites operands) (branchAtoms branches) := by
  match operands with
  | [] =>
    cases lowered
    exact .nil count []
  | operand :: rest =>
    obtain ⟨⟨first, middle⟩, firstLowered, further⟩ := bind_ok.1 lowered
    obtain ⟨⟨others, after⟩, othersLowered, total⟩ := bind_ok.1 further
    cases total
    exact (lower_made operand firstLowered).append (lowerEach_made rest othersLowered)

end

/-! ### What sites name -/

theorem bind_block (regular : translator.Regular) {property : Property} {term : Term}
    (bound : translator.bind operator property (count + 1) = .ok (group, term)) :
    Block count (count + 1) (groupAtoms group) := by
  refine .of_fixed fun replacement shifts => ?_
  have again := (bind_renumbered regular shifts.next bound).1
  rw [bound] at again
  exact (Prod.ext_iff.1 (Except.ok.inj again)).1.symm

/-- A site names the focus node and the unknowns with its own number alone. -/
theorem site_block (standard : translator.functions = .standard) (regular : translator.Regular)
    {site : Site} (lowered : translator.site count site = .ok group) :
    Block count (count + 1) (groupAtoms group) := by
  cases site with
  | condition leaf single =>
    obtain ⟨⟨_, final⟩, leafLowered, rfl⟩ := map_ok.1 lowered
    have block := leaf_block standard regular leafLowered
    rwa [final_of_leaf single leafLowered] at block
  | operand operator property =>
    obtain ⟨⟨_, term⟩, bound, rfl⟩ := map_ok.1 lowered
    exact bind_block regular bound

/-! ### Apart -/

/-- What a group with a number introduces. -/
def introduced (number : Nat) (group : Group) : Set Unknown :=
  {unknown | unknown ∈ group.unknowns ∧ IsNumbered number unknown}

theorem focusNode_not_introduced (number : Nat) (group : Group) :
    .var Shape.focusNode ∉ introduced number group :=
  fun member => member.2.ne_focusNode rfl

/-- Whether the sites of a filter keep apart in a translation with the given parts. The number of a
site is one more than its index in the order of the document. -/
structure Apart (translator : Translator) (filter : Expression) (group : Group)
    (parts : List Group) : Prop where
  /-- Every site has a part. -/
  length : parts.length = filter.sites.length
  /-- A part is what its site is lowered to with its number. -/
  lowered : ∀ index part, parts[index]? = some part →
    ∃ site, filter.sites[index]? = some site ∧ translator.site index site = .ok part
  /-- The translation has the parts in their order. -/
  within : (parts.flatMap groupAtoms).Sublist (groupAtoms group)
  /-- A part names what the filter is about and what it introduces with its number. -/
  named : ∀ index part, parts[index]? = some part → ∀ unknown ∈ part.unknowns,
    unknown = .var Shape.focusNode ∨ unknown ∈ introduced (index + 1) part
  /-- No part introduces what the filter is about. -/
  focus : ∀ index part, parts[index]? = some part →
    .var Shape.focusNode ∉ introduced (index + 1) part
  /-- Different parts have nothing in common but what the filter is about. -/
  disjoint : ∀ (index other : Nat) (first second : Group), index ≠ other →
    parts[index]? = some first → parts[other]? = some second →
      ∀ unknown ∈ first.unknowns, unknown ∈ second.unknowns → unknown = .var Shape.focusNode
  /-- The translation names nothing that has not the number of a site. -/
  numbered : ∀ unknown ∈ group.unknowns, unknown = .var Shape.focusNode ∨
    ∃ index < filter.sites.length, IsNumbered (index + 1) unknown

/-- The sites of a filter are numbered in the order of the document, and no two of them introduce the
same variable or label, whatever the nesting of conjunctions, disjunctions and negations. -/
theorem sites_apart (standard : translator.functions = .standard)
    (read : ∀ entry ∈ translator.queryables,
      ∃ shapes node, Rdf.Graph.propertyShape shapes node = .ok entry.2)
    {filter : Expression} {group : Group} (translated : translator.translate filter = .ok group) :
    ∃ parts, translator.Apart filter group parts := by
  have regular : translator.Regular := by
    intro entry member
    obtain ⟨shapes, node, shape⟩ := read entry member
    exact Rdf.Graph.regular_of_propertyShape shape
  obtain ⟨⟨lowered, final⟩, succeeds, total⟩ := bind_ok.1 translated
  cases total
  obtain ⟨rfl, parts, partsMade, within⟩ := lower_made filter succeeds
  have lowered (index : Nat) (part : Group) (found : parts[index]? = some part) :
      ∃ site, filter.sites[index]? = some site ∧ translator.site index site = .ok part := by
    obtain ⟨site, located, siteLowered⟩ := site_of_parts partsMade found
    exact ⟨site, located, Nat.zero_add index ▸ siteLowered⟩
  have named (index : Nat) (part : Group) (found : parts[index]? = some part) :
      ∀ unknown ∈ part.unknowns,
        unknown = .var Shape.focusNode ∨ unknown ∈ introduced (index + 1) part := by
    intro unknown member
    obtain ⟨site, -, siteLowered⟩ := lowered index part found
    exact ((site_block standard regular siteLowered).unknowns unknown member).imp_right
      fun inBlock => ⟨member, inBlock.isNumbered⟩
  refine ⟨parts, length_of_parts partsMade, lowered, within, named,
    fun index part _ => focusNode_not_introduced (index + 1) part, ?_, ?_⟩
  · intro index other first second different found secondFound unknown inFirst inSecond
    rcases named index first found unknown inFirst with same | mine
    · exact same
    rcases named other second secondFound unknown inSecond with same | other
    · exact same
    · exact absurd (Nat.succ.inj (mine.2.unique other.2)) different
  · intro unknown member
    refine ((lower_block standard regular filter succeeds).unknowns unknown member).imp_right ?_
    rintro ⟨number, above, below, named⟩
    exact ⟨number - 1, by omega, (Nat.sub_add_cancel above).symm ▸ named⟩

/-- A name, a negated relation between two times, and a geometry: four sites. -/
theorem sites_apart_name :
    ∃ shape group,
      (Rdf.Graph.ofList
        [⟨.blank "name", Vocabulary.shPath, .iri Vocabulary.schemaName⟩]).propertyShape
          (.blank "name") = .ok shape ∧
      translate ⟨[("name", shape)], .standard, .qlever, ""⟩
        (.any [.leaf (.like ⟨"name", false⟩ "b%"),
          .not (.leaf (.temporal .before (.instant (.property ⟨"name", false⟩))
            (.instant (.property ⟨"http://example.org/opened", false⟩)))),
          .leaf (.spatial .within ⟨"geometry", false⟩ (.multiPoint []))]) = .ok group ∧
      ∃ parts, Apart ⟨[("name", shape)], .standard, .qlever, ""⟩
        (.any [.leaf (.like ⟨"name", false⟩ "b%"),
          .not (.leaf (.temporal .before (.instant (.property ⟨"name", false⟩))
            (.instant (.property ⟨"http://example.org/opened", false⟩)))),
          .leaf (.spatial .within ⟨"geometry", false⟩ (.multiPoint []))]) group parts := by
  have succeeds : (do
      let shape ← ((Rdf.Graph.ofList
        [⟨.blank "name", Vocabulary.shPath, .iri Vocabulary.schemaName⟩]).propertyShape
          (.blank "name")).mapError (Error.queryable "name")
      translate ⟨[("name", shape)], .standard, .qlever, ""⟩
        (.any [.leaf (.like ⟨"name", false⟩ "b%"),
          .not (.leaf (.temporal .before (.instant (.property ⟨"name", false⟩))
            (.instant (.property ⟨"http://example.org/opened", false⟩)))),
          .leaf (.spatial .within ⟨"geometry", false⟩ (.multiPoint []))])).isOk = true := by
    decide +kernel
  obtain ⟨group, translated⟩ := Success.exists_ok succeeds
  obtain ⟨shape, read, translated⟩ := bind_ok.1 translated
  have read := Success.mapError_ok.1 read
  refine ⟨shape, group, read, translated, sites_apart rfl ?_ translated⟩
  intro entry member
  rw [List.mem_singleton.1 member]
  exact ⟨_, _, read⟩

end Translator

end ShapeQuery.Filter
