/-
This file builds the blocks of a group from the front: a triple joins the run at the end of what is
built, every other element stands for itself. A group has the blocks that are built from nothing by
adding its elements, and appending the blocks of a group is adding its elements to what is there.
-/
import Mathlib.Data.List.Induction
import ShapeQuery.Sparql.Group

namespace ShapeQuery.Sparql

/-- What is built of a group. -/
abbrev Blocks := List Block

namespace Blocks

/-! ### Building -/

/-- Adds a triple at the end, to the run there if there is one. -/
def addTriple (blocks : Blocks) (triple : TriplePattern) : Blocks :=
  match blocks with
  | [] => [.run [triple]]
  | [.run triples] => [.run (triples ++ [triple])]
  | block :: rest => block :: addTriple rest triple

/-- Adds an element at the end. -/
def addElement (blocks : Blocks) : Element → Blocks
  | .triple triple => blocks.addTriple triple
  | element => blocks ++ [.single element]

/-- Adds elements at the end, one by one. -/
def extend (blocks : Blocks) (group : Group) : Blocks :=
  group.foldl addElement blocks

/-- Adds the content of other blocks at the end, block by block. -/
def append (blocks others : Blocks) : Blocks :=
  others.foldl (fun built block => built.extend block.elements) blocks

/-- The elements of some blocks. -/
def content (blocks : Blocks) : Group :=
  blocks.flatMap Block.elements

/-! ### Elements -/

theorem extend_concat (blocks : Blocks) (group : Group) (element : Element) :
    blocks.extend (group ++ [element]) = (blocks.extend group).addElement element := by
  simp [extend]

theorem extend_append (blocks : Blocks) (group others : Group) :
    blocks.extend (group ++ others) = (blocks.extend group).extend others :=
  List.foldl_append

theorem append_eq_extend (blocks others : Blocks) :
    blocks.append others = blocks.extend others.content := by
  induction others generalizing blocks with
  | nil => rfl
  | cons block rest inductionHypothesis =>
    rw [content, List.flatMap_cons, extend_append]
    exact inductionHypothesis _

/-! ### The blocks of a group -/

/-- A run at the head of what is built takes a triple before it at once or afterwards. -/
theorem prepend_addTriple (first last : TriplePattern) (blocks : Blocks) :
    Block.prepend first (blocks.addTriple last) =
      addTriple (Block.prepend first blocks) last := by
  match blocks with
  | [] => rfl
  | [.run triples] => rfl
  | [.single element] => rfl
  | .run triples :: block :: rest => rfl
  | .single element :: block :: rest => rfl

theorem prepend_addElement (triple : TriplePattern) (blocks : Blocks) (element : Element) :
    Block.prepend triple (blocks.addElement element) =
      addElement (Block.prepend triple blocks) element := by
  cases element with
  | triple last => exact prepend_addTriple triple last blocks
  | _ =>
    match blocks with
    | [] => rfl
    | .run triples :: rest => rfl
    | .single other :: rest => rfl

theorem single_addElement (first : Element) (blocks : Blocks) (element : Element) :
    .single first :: blocks.addElement element = addElement (.single first :: blocks) element := by
  cases element with
  | triple last => rfl
  | _ => rfl

end Blocks

namespace Group

theorem blocks_concat (group : Group) (element : Element) :
    blocks (group ++ [element]) = Blocks.addElement group.blocks element := by
  induction group with
  | nil => cases element <;> rfl
  | cons first rest inductionHypothesis =>
    cases first with
    | triple triple =>
      rw [List.cons_append, blocks, inductionHypothesis, blocks, Blocks.prepend_addElement]
    | _ =>
      rw [List.cons_append, blocks, inductionHypothesis, blocks, Blocks.single_addElement] <;>
        · intro triple same
          cases same

/-- The blocks of a group are built from nothing by adding its elements. -/
theorem blocks_eq_extend (group : Group) : group.blocks = Blocks.extend [] group := by
  induction group using List.reverseRecOn with
  | nil => rfl
  | append_singleton rest element inductionHypothesis =>
    rw [blocks_concat, inductionHypothesis, Blocks.extend_concat]

theorem content_blocks (group : Group) : Blocks.content group.blocks = group :=
  flatMap_elements_blocks group

/-- Appending the blocks of a group is adding its elements. -/
theorem append_blocks (built : Blocks) (group : Group) :
    built.append group.blocks = built.extend group := by
  rw [Blocks.append_eq_extend, content_blocks]

example (first second third : TriplePattern) :
    Blocks.append [.run [first]] (Group.blocks [.triple second, .union [], .triple third]) =
      [.run [first, second], .single (.union []), .run [third]] := rfl

end Group

end ShapeQuery.Sparql
