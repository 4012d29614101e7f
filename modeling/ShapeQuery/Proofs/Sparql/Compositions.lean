/-
This file proves that groups which are built in place are in normal form. However a group is put
together, from triples, from blocks that may be empty runs, and from groups that are built apart, no
run in it is empty and no two runs are adjacent. The elements that were added decide its blocks and
its text, so that joining two groups is adding the elements of the one behind those of the other.
-/
import Mathlib.Data.List.Chain
import ShapeQuery.Proofs.Sparql.Harmless
import ShapeQuery.Proofs.Sparql.Runs

namespace ShapeQuery.Sparql

open Lexeme (separated)

/-! ### Normal form -/

namespace Block

/-- Whether a block is a run of triples. -/
def isRun : Block → Bool
  | .run _ => true
  | .single _ => false

/-- Whether a block can be part of a normal form: a run has triples, and no other block is one. -/
def Filled : Block → Prop
  | .run triples => triples ≠ []
  | .single element => ∀ triple, element ≠ .triple triple

end Block

namespace Blocks

/-- Whether blocks are in normal form: every triple is in a run, no run is empty, and no two runs
are adjacent. -/
structure IsNormal (blocks : Blocks) : Prop where
  filled : ∀ block ∈ blocks, block.Filled
  apart : blocks.IsChain fun first second => ¬ (first.isRun ∧ second.isRun)

theorem isNormal_nil : IsNormal [] :=
  ⟨List.forall_mem_nil _, .nil⟩

variable {blocks : Blocks}

theorem isNormal_single_cons {element : Element} (other : ∀ triple, element ≠ .triple triple)
    (normal : blocks.IsNormal) : IsNormal (.single element :: blocks) :=
  ⟨List.forall_mem_cons.2 ⟨other, normal.filled⟩, normal.apart.cons fun _ _ both => nomatch both.1⟩

theorem IsNormal.prepend (normal : blocks.IsNormal) (triple : TriplePattern) :
    IsNormal (Block.prepend triple blocks) := by
  match blocks with
  | [] => exact ⟨List.forall_mem_singleton.2 (List.cons_ne_nil _ _), .singleton _⟩
  | .run triples :: rest =>
    have filled := (List.forall_mem_cons.1 normal.filled).2
    -- A run keeps its neighbours when it grows.
    have apart := List.isChain_cons.1 normal.apart
    exact ⟨List.forall_mem_cons.2 ⟨List.cons_ne_nil _ _, filled⟩, apart.2.cons apart.1⟩
  | .single element :: rest =>
    refine ⟨List.forall_mem_cons.2 ⟨List.cons_ne_nil _ _, normal.filled⟩, ?_⟩
    exact .cons_cons (fun both => nomatch both.2) normal.apart

end Blocks

namespace Group

theorem isNormal_blocks (group : Group) : Blocks.IsNormal group.blocks := by
  induction group with
  | nil => exact Blocks.isNormal_nil
  | cons element rest inductionHypothesis =>
    cases element with
    | triple triple => exact inductionHypothesis.prepend triple
    | _ => exact Blocks.isNormal_single_cons (fun _ => nofun) inductionHypothesis

/-- Triples in front of a group are a run of their own unless the group begins with a run. -/
theorem blocks_triples_append {triples : List TriplePattern} (filled : triples ≠ [])
    {group : Group} (apart : ∀ block ∈ group.blocks.head?, ¬ block.isRun) :
    blocks (triples.map .triple ++ group) = .run triples :: group.blocks := by
  induction triples with
  | nil => exact absurd rfl filled
  | cons triple rest inductionHypothesis =>
    rw [List.map_cons, List.cons_append, blocks]
    cases rest with
    | cons next more => rw [inductionHypothesis (List.cons_ne_nil _ _), Block.prepend]
    | nil =>
      rw [List.map_nil, List.nil_append]
      cases following : group.blocks with
      | nil => rfl
      | cons block others =>
        cases block with
        | single element => rfl
        | run triples => exact absurd rfl (apart (.run triples) (by rw [following]; rfl))

end Group

/-- Blocks in normal form are those of their elements. -/
theorem Blocks.IsNormal.blocks_content {blocks : Blocks} (normal : blocks.IsNormal) :
    Group.blocks blocks.content = blocks := by
  induction blocks with
  | nil => rfl
  | cons block rest inductionHypothesis =>
    obtain ⟨filled, others⟩ := List.forall_mem_cons.1 normal.filled
    obtain ⟨apart, chain⟩ := List.isChain_cons.1 normal.apart
    have later := inductionHypothesis ⟨others, chain⟩
    rw [content, List.flatMap_cons, ← content]
    cases block with
    | single element =>
      rw [Block.elements, List.singleton_append, Group.blocks, later]
      exact filled
    | run triples =>
      rw [Block.elements, Group.blocks_triples_append filled, later]
      rw [later]
      exact fun next first run => apart next first ⟨rfl, run⟩

/-! ### Texts -/

theorem groupDefects_eq (group : Group) : groupDefects group = group.flatMap Element.defects := by
  induction group with
  | nil => rfl
  | cons element rest inductionHypothesis =>
    rw [groupDefects, inductionHypothesis, List.flatMap_cons]

/-- What is written in two parts has the first defect of the first part that has one. -/
theorem rendered_append (defects others : List Defect) (lexemes behind : List Lexeme) :
    rendered (defects ++ others) (lexemes ++ behind) = do
      let text ← rendered defects lexemes
      let rest ← rendered others behind
      return text ++ rest := by
  cases defects with
  | cons defect more => rfl
  | nil =>
    cases others with
    | cons defect more => rfl
    | nil => simp [rendered, Lexeme.written]; rfl

theorem separated_newLine {lines : List (List Lexeme)} (filled : lines ≠ []) :
    separated [.newLine] lines ++ [.newLine] = lines.flatMap (· ++ [.newLine]) := by
  induction lines with
  | nil => exact absurd rfl filled
  | cons line rest inductionHypothesis =>
    cases rest with
    | nil => simp [separated]
    | cons next more =>
      rw [separated, List.append_assoc, inductionHypothesis (List.cons_ne_nil _ _)]
      · rfl
      · exact List.cons_ne_nil _ _

theorem Lexeme.written_block (lines : List (List Lexeme)) :
    written (block lines) =
      "\x7b\n" ++ written (lines.flatMap (· ++ [.newLine])) ++ "\x7d" := by
  simp [written, block, text, ← String.append_assoc]

theorem Block.Filled.render {block : Block} (filled : block.Filled) :
    block.render = rendered (block.elements.flatMap Element.defects)
      (separated [.newLine] (block.elements.map Element.lexemes)) := by
  cases block with
  | single element => simp [Block.render, Block.elements, separated]
  | run triples =>
    rw [Block.elements, List.flatMap_map, List.map_map]
    cases triples with
    | nil => exact absurd rfl filled
    | cons triple rest => simp [Block.render, Element.defects, Element.lexemes, Function.comp_def]

theorem Block.Filled.elements_ne_nil {block : Block} (filled : block.Filled) :
    block.elements ≠ [] := by
  cases block with
  | single element => exact List.cons_ne_nil _ _
  | run triples => exact fun nothing => filled (List.map_eq_nil_iff.1 nothing)

namespace Blocks

/-- The text of a block and of the end of its line. -/
def renderLine (block : Block) : Except Defect String := do
  let text ← block.render
  return text ++ "\n"

/-- The text of a group that consists of some blocks. -/
def render (blocks : Blocks) : Except Defect String := do
  let lines ← blocks.mapM renderLine
  return "\x7b\n" ++ String.join lines ++ "\x7d"

theorem renderLine_of_filled {block : Block} (filled : block.Filled) :
    renderLine block = rendered (block.elements.flatMap Element.defects)
      ((block.elements.map Element.lexemes).flatMap (· ++ [.newLine])) := by
  have something : block.elements.map Element.lexemes ≠ [] := by
    simpa using filled.elements_ne_nil
  rw [← separated_newLine something, ← List.append_nil (List.flatMap _ _), rendered_append,
    renderLine, filled.render]
  rfl

theorem renderLines_of_filled {blocks : Blocks} (filled : ∀ block ∈ blocks, block.Filled) :
    (blocks.mapM renderLine).map String.join = rendered (blocks.content.flatMap Element.defects)
      ((blocks.content.map Element.lexemes).flatMap (· ++ [.newLine])) := by
  induction blocks with
  | nil => rfl
  | cons block rest inductionHypothesis =>
    obtain ⟨first, others⟩ := List.forall_mem_cons.1 filled
    rw [content, List.flatMap_cons, ← content, List.flatMap_append, List.map_append,
      List.flatMap_append, rendered_append, ← inductionHypothesis others,
      ← renderLine_of_filled first, List.mapM_cons]
    cases renderLine block with
    | error defect => rfl
    | ok line =>
      cases rest.mapM renderLine with
      | error defect => rfl
      | ok lines => exact congrArg Except.ok String.join_cons

/-- Blocks without an empty run are written like their elements. -/
theorem render_of_filled {blocks : Blocks} (filled : ∀ block ∈ blocks, block.Filled) :
    blocks.render = Group.render blocks.content := by
  have whole : Group.render blocks.content = do
      let text ← rendered (blocks.content.flatMap Element.defects)
        ((blocks.content.map Element.lexemes).flatMap (· ++ [.newLine]))
      return "\x7b\n" ++ text ++ "\x7d" := by
    rw [Group.render, Group.lexemes, groupDefects_eq, lineLexemes_eq]
    cases blocks.content.flatMap Element.defects with
    | nil => exact congrArg Except.ok (Lexeme.written_block _)
    | cons defect rest => rfl
  rw [whole, ← renderLines_of_filled filled, render]
  cases blocks.mapM renderLine with
  | error defect => rfl
  | ok lines => rfl

/-! ### Joining -/

/-- Adds a block at the end, the triples of a run one by one. -/
def addBlock (blocks : Blocks) : Block → Blocks
  | .run triples => triples.foldl addTriple blocks
  | .single element => blocks.addElement element

theorem foldl_addTriple (blocks : Blocks) (triples : List TriplePattern) :
    triples.foldl addTriple blocks = blocks.extend (triples.map .triple) := by
  rw [extend, List.foldl_map]
  rfl

theorem addBlock_eq_extend (blocks : Blocks) (block : Block) :
    blocks.addBlock block = blocks.extend block.elements := by
  cases block with
  | run triples => exact foldl_addTriple blocks triples
  | single element => rfl

end Blocks

/-! ### Compositions -/

/-- A way to put a group together in place: from nothing or from some triples, by triples and
blocks that are added one after another, and by other groups that are moved to its end. -/
inductive Composition where
  | empty
  | ofTriples (triples : List TriplePattern)
  | addTriple (before : Composition) (triple : TriplePattern)
  | addBlock (before : Composition) (block : Block)
  | append (before after : Composition)

namespace Composition

/-- The blocks that a composition builds. -/
def built : Composition → Blocks
  | .empty => []
  | .ofTriples triples => triples.foldl Blocks.addTriple []
  | .addTriple before triple => before.built.addTriple triple
  | .addBlock before block => before.built.addBlock block
  | .append before after => before.built.append after.built

/-- The elements that a composition adds, one behind the other. -/
def added : Composition → Group
  | .empty => []
  | .ofTriples triples => Group.ofTriples triples
  | .addTriple before triple => before.added ++ [.triple triple]
  | .addBlock before block => before.added ++ block.elements
  | .append before after => before.added ++ after.added

/-- What is built are the blocks of what was added. -/
theorem built_eq_blocks (composition : Composition) :
    composition.built = composition.added.blocks := by
  rw [Group.blocks_eq_extend]
  induction composition with
  | empty => rfl
  | ofTriples triples => exact Blocks.foldl_addTriple [] triples
  | addTriple before triple inductionHypothesis =>
    rw [built, added, Blocks.extend_concat, ← inductionHypothesis]
    rfl
  | addBlock before block inductionHypothesis =>
    rw [built, added, Blocks.extend_append, ← inductionHypothesis, Blocks.addBlock_eq_extend]
  | append before after first second =>
    rw [built, added, Blocks.extend_append, ← first, second, ← Group.blocks_eq_extend,
      Group.append_blocks]

theorem content_built (composition : Composition) :
    composition.built.content = composition.added := by
  rw [built_eq_blocks, Group.content_blocks]

theorem isNormal_built (composition : Composition) : composition.built.IsNormal := by
  rw [built_eq_blocks]
  exact Group.isNormal_blocks _

/-- However a group is built in place, its blocks are those of what was added: the only ones in
normal form that hold these elements in this order, and they are written in this order. So it does
not matter which of two joints is made first, and an empty group changes nothing. -/
theorem built_normal_form (first : Composition) :
    first.added.blocks = first.built ∧
    (∀ blocks : Blocks, blocks = first.built ↔ blocks.IsNormal ∧ blocks.content = first.added) ∧
    first.built.render = first.added.render ∧
    (∀ second third : Composition,
      (first.built.append second.built).append third.built =
        first.built.append (second.built.append third.built)) ∧
    empty.built.append first.built = first.built ∧
    first.built.append empty.built = first.built := by
  refine ⟨first.built_eq_blocks.symm, fun blocks => ⟨?_, ?_⟩, ?_, fun second third => ?_, ?_, rfl⟩
  · rintro rfl
    exact ⟨first.isNormal_built, first.content_built⟩
  · rintro ⟨normal, same⟩
    rw [first.built_eq_blocks, ← same, normal.blocks_content]
  · rw [Blocks.render_of_filled first.isNormal_built.filled, first.content_built]
  · show ((first.append second).append third).built = (first.append (second.append third)).built
    rw [built_eq_blocks, built_eq_blocks, added, added, added, added, List.append_assoc]
  · show (empty.append first).built = first.built
    rw [built_eq_blocks, built_eq_blocks, added, added, List.nil_append]

example (first second third : TriplePattern) :
    built (.append (.addTriple .empty first)
      (.addBlock (.addBlock (.ofTriples [second]) (.run [])) (.run [third]))) =
      [.run [first, second, third]] := rfl

end Composition

end ShapeQuery.Sparql
