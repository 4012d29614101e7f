/-
This file proves that a filter names the focus node and the unknowns of its own conditions alone. A
condition that is lowered alike under every number cannot name anything else: a replacement that
keeps what it may name keeps its group, so that it keeps every atom of the group.
-/
import ShapeQuery.Proofs.Filter.Functions
import ShapeQuery.Proofs.Sparql.Locality

namespace ShapeQuery.Filter

open Sparql (Term Variable Group Replacement Atom Unknown groupAtoms branchAtoms)
open Success (bind_ok)

/-! ### Conditions -/

/-- A condition is lowered alike after every number of conditions. -/
theorem Translator.leaf_renumbered {translator : Translator}
    (standard : translator.functions = .standard) (regular : translator.Regular)
    {condition : Leaf} {count final : Nat} {group : Group}
    (lowered : translator.leaf count condition = .ok (group, final)) :
    ∃ size, final = count + size ∧ ∀ {replacement base},
      Shifts replacement count size base →
        translator.leaf base condition = .ok (replacement.group group, base + size) := by
  cases condition with
  | compare comparison property value =>
    obtain ⟨_, compared, total⟩ := bind_ok.1 lowered
    cases total
    exact ⟨1, rfl, fun shifts =>
      bind_ok.2 ⟨_, compare_renumbered regular shifts.next compared, rfl⟩⟩
  | like property pattern =>
    obtain ⟨_, matched, total⟩ := bind_ok.1 lowered
    cases total
    exact ⟨1, rfl, fun shifts =>
      bind_ok.2 ⟨_, like_renumbered regular shifts.next matched, rfl⟩⟩
  | oneOf property values =>
    obtain ⟨_, listed, total⟩ := bind_ok.1 lowered
    cases total
    exact ⟨1, rfl, fun shifts =>
      bind_ok.2 ⟨_, oneOf_renumbered regular shifts.next listed, rfl⟩⟩
  | spatial relation property geometry =>
    obtain ⟨_, related, total⟩ := bind_ok.1 lowered
    cases total
    exact ⟨1, rfl, fun shifts =>
      bind_ok.2 ⟨_, spatial_renumbered regular shifts.next related, rfl⟩⟩
  | temporal relation left right => exact temporal_renumbered regular lowered
  | function name arguments =>
    obtain ⟨_, used, total⟩ := bind_ok.1 lowered
    cases total
    exact ⟨1, rfl, fun shifts =>
      bind_ok.2 ⟨_, function_renumbered standard shifts.next used, rfl⟩⟩

/-! ### Owned atoms -/

/-- Whether an atom is the focus node as a term, or names at most an unknown of the conditions
after `low` and up to `high`. -/
def Owned (low high : Nat) (atom : Atom) : Prop :=
  atom = .term Translator.focus ∨
    ∀ unknown, atom.unknown? = some unknown → InBlock low high unknown

theorem Owned.mono {low high less more : Nat} {atom : Atom} (owned : Owned low high atom)
    (lower : less ≤ low) (higher : high ≤ more) : Owned less more atom :=
  owned.imp_right fun named unknown found => (named unknown found).mono lower higher

theorem shifts_of_fixed {replacement : Replacement} {low size : Nat}
    (focus : replacement.substitute Shape.focusNode = .var Shape.focusNode)
    (names : ∀ name, InBlock low (low + size) (.var name) →
      replacement.substitute name = .var name ∧ replacement.target name = name)
    (labels : ∀ label, InBlock low (low + size) (.blank label) →
      replacement.label label = label) : Shifts replacement low size low where
  focus := focus
  carries offset positive bounded := by
    have inBlock {unknown : Unknown} (named : (∃ part : Part,
        unknown = .var (part.name (low + offset))) ∨
          unknown = .blank (configuration (low + offset))) :
        InBlock low (low + size) unknown :=
      ⟨low + offset, Nat.lt_add_of_pos_right positive, Nat.add_le_add_left bounded _, named⟩
    exact {
      focus
      substitute := fun part => (names _ (inBlock (.inl ⟨part, rfl⟩))).1
      target := fun part => (names _ (inBlock (.inl ⟨part, rfl⟩))).2
      label := labels _ (inBlock (.inr rfl)) }

theorem exists_ne_text (text : String) : ∃ other : String, other ≠ text := by
  by_cases empty : text = ""
  · exact ⟨"other", by rw [empty]; decide⟩
  · exact ⟨"", fun equal => empty equal.symm⟩

/-- An atom that stays wherever the owned unknowns stay is owned. -/
theorem owned_of_fixed {low size : Nat} {atom : Atom}
    (fixed : ∀ replacement, Shifts replacement low size low → replacement.atom atom = atom) :
    Owned low (low + size) atom := by
  match atom with
  | .term (.iri name) => exact .inr nofun
  | .term (.literal value) => exact .inr nofun
  | .term (.var name) =>
    by_cases focused : name = Shape.focusNode
    · exact .inl (by rw [focused]; rfl)
    refine .inr fun unknown named => ?_
    cases named
    by_contra outside
    have moved := fixed ⟨Function.update .var name (.var Shape.focusNode), id, id⟩
      (shifts_of_fixed (Function.update_of_ne (Ne.symm focused) _ _)
        (fun other owned => ⟨Function.update_of_ne (by
          rintro rfl
          exact outside owned) _ _, rfl⟩) fun _ _ => rfl)
    simp only [Replacement.atom, Replacement.term, Function.update_self] at moved
    exact focused (Term.var.inj (Atom.term.inj moved)).symm
  | .term (.blank label) =>
    obtain ⟨other, different⟩ := exists_ne_text label
    refine .inr fun unknown named => ?_
    cases named
    by_contra outside
    have moved := fixed ⟨.var, id, Function.update id label other⟩
      (shifts_of_fixed rfl (fun _ _ => ⟨rfl, rfl⟩)
        fun other owned => Function.update_of_ne (by
          rintro rfl
          exact outside owned) _ _)
    simp only [Replacement.atom, Replacement.term, Function.update_self] at moved
    exact different (Term.blank.inj (Atom.term.inj moved))
  | .target name =>
    obtain ⟨other, different⟩ := exists_ne_text name.name
    refine .inr fun unknown named => ?_
    cases named
    by_contra outside
    have moved := fixed ⟨.var, Function.update id name ⟨other⟩, id⟩
      (shifts_of_fixed rfl (fun other owned => ⟨rfl, Function.update_of_ne (by
        rintro rfl
        exact outside owned) _ _⟩) fun _ _ => rfl)
    simp only [Replacement.atom, Function.update_self] at moved
    exact different (congrArg Variable.name (Atom.target.inj moved))

/-- Whether some atoms are owned by the conditions after `low` and up to `high`. -/
structure Block (low high : Nat) (atoms : List Atom) : Prop where
  ordered : low ≤ high
  owned : ∀ atom ∈ atoms, Owned low high atom

namespace Block

theorem nil (count : Nat) : Block count count [] := ⟨Nat.le_refl _, nofun⟩

theorem append {low middle high : Nat} {first second : List Atom}
    (firstBlock : Block low middle first) (secondBlock : Block middle high second) :
    Block low high (first ++ second) where
  ordered := Nat.le_trans firstBlock.ordered secondBlock.ordered
  owned atom member := by
    rcases List.mem_append.1 member with inFirst | inSecond
    · exact (firstBlock.owned atom inFirst).mono (Nat.le_refl _) secondBlock.ordered
    · exact (secondBlock.owned atom inSecond).mono firstBlock.ordered (Nat.le_refl _)

/-- A group that every replacement of its conditions by themselves keeps is owned by them. -/
theorem of_fixed {low size : Nat} {group : Group}
    (fixed : ∀ replacement, Shifts replacement low size low →
      replacement.group group = group) : Block low (low + size) (groupAtoms group) := by
  refine ⟨Nat.le_add_right _ _, fun atom member => owned_of_fixed fun replacement shifts => ?_⟩
  have atoms := replacement.atoms_group group
  rw [fixed replacement shifts] at atoms
  exact List.map_eq_map_iff.1 (atoms.symm.trans (List.map_id _).symm) atom member

/-- The variables that owned atoms name are the focus node and those of the conditions. -/
theorem named {low high : Nat} {atoms : List Atom} (block : Block low high atoms) :
    ∀ name, .var name ∈ Atom.unknowns atoms →
      name = Shape.focusNode ∨ InBlock low high (.var name) := by
  intro name member
  obtain ⟨atom, found, named⟩ := List.mem_filterMap.1 member
  rcases block.owned atom found with rfl | owned
  · cases named
    exact .inl rfl
  · exact .inr (owned _ named)

end Block

/-! ### Filters -/

namespace Translator

variable {translator : Translator}

/-- A condition names the focus node and its own unknowns alone. -/
theorem leaf_block (standard : translator.functions = .standard)
    (regular : translator.Regular) {condition : Leaf} {count final : Nat} {group : Group}
    (lowered : translator.leaf count condition = .ok (group, final)) :
    Block count final (groupAtoms group) := by
  obtain ⟨size, rfl, moved⟩ := leaf_renumbered standard regular lowered
  refine .of_fixed fun replacement shifts => ?_
  have again := moved shifts
  rw [lowered] at again
  exact (Prod.ext_iff.1 (Except.ok.inj again)).1.symm

mutual

/-- A filter names the focus node and the unknowns of its own conditions alone. -/
theorem lower_block (standard : translator.functions = .standard)
    (regular : translator.Regular) (filter : Expression) {count final : Nat} {group : Group}
    (lowered : translator.lower count filter = .ok (group, final)) :
    Block count final (groupAtoms group) := by
  match filter with
  | .leaf condition => exact leaf_block standard regular lowered
  | .all operands => exact lowerAll_block standard regular operands lowered
  | .any operands =>
    obtain ⟨⟨branches, after⟩, branchesLowered, total⟩ := bind_ok.1 lowered
    cases total
    have block := lowerEach_block standard regular operands branchesLowered
    rw [groupAtoms, groupAtoms, List.append_nil]
    exact block
  | .not operand =>
    obtain ⟨⟨forbidden, after⟩, operandLowered, total⟩ := bind_ok.1 lowered
    cases total
    have block := lower_block standard regular operand operandLowered
    rw [groupAtoms, groupAtoms, List.append_nil]
    exact block

theorem lowerAll_block (standard : translator.functions = .standard)
    (regular : translator.Regular) (operands : List Expression) {count final : Nat} {group : Group}
    (lowered : translator.lowerAll count operands = .ok (group, final)) :
    Block count final (groupAtoms group) := by
  match operands with
  | [] =>
    cases lowered
    exact Block.nil count
  | operand :: rest =>
    obtain ⟨⟨first, middle⟩, firstLowered, further⟩ := bind_ok.1 lowered
    obtain ⟨⟨others, after⟩, othersLowered, total⟩ := bind_ok.1 further
    cases total
    rw [Sparql.groupAtoms_append]
    exact (lower_block standard regular operand firstLowered).append
      (lowerAll_block standard regular rest othersLowered)

theorem lowerEach_block (standard : translator.functions = .standard)
    (regular : translator.Regular) (operands : List Expression) {count final : Nat}
    {branches : List Group}
    (lowered : translator.lowerEach count operands = .ok (branches, final)) :
    Block count final (branchAtoms branches) := by
  match operands with
  | [] =>
    cases lowered
    exact Block.nil count
  | operand :: rest =>
    obtain ⟨⟨first, middle⟩, firstLowered, further⟩ := bind_ok.1 lowered
    obtain ⟨⟨others, after⟩, othersLowered, total⟩ := bind_ok.1 further
    cases total
    exact (lower_block standard regular operand firstLowered).append
      (lowerEach_block standard regular rest othersLowered)

end

end Translator

/-! ### A given focus -/

/-- A group about a given resource in the place of the focus node. -/
def about (resource : Iri) (group : Group) : Group :=
  (Replacement.single Shape.focusNode resource).group group

/-- About a given resource, a group names the unknowns of its own conditions alone. -/
theorem unknowns_about {resource : Iri} {low high : Nat} {group : Group}
    (block : Block low high (groupAtoms group)) :
    ∀ unknown ∈ (about resource group).unknowns, InBlock low high unknown := by
  intro unknown member
  unfold Group.unknowns Atom.unknowns about at member
  rw [Replacement.atoms_group, List.filterMap_map] at member
  obtain ⟨atom, found, named⟩ := List.mem_filterMap.1 member
  rw [Function.comp_apply] at named
  rcases block.owned atom found with rfl | owned
  · rw [Replacement.atom, show (Replacement.single Shape.focusNode resource).term
      Translator.focus = .iri resource from rfl] at named
    cases named
  · cases atom with
    | target name => exact owned unknown named
    | term written =>
      cases written with
      | blank label => exact owned unknown named
      | iri name => cases named
      | literal value => cases named
      | var name =>
        by_cases focused : name = Shape.focusNode
        · rw [focused, Replacement.atom, show (Replacement.single Shape.focusNode resource).term
            (.var Shape.focusNode) = .iri resource from rfl] at named
          cases named
        · have kept :
              (Replacement.single Shape.focusNode resource).substitute name = .var name :=
            if_neg focused
          rw [Replacement.atom, Replacement.term, kept] at named
          exact owned unknown named

end ShapeQuery.Filter
