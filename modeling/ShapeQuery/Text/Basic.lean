/-
This file holds what texts are made of and how they are cut: sets of characters, written as ranges of
code points in the form in which the Unicode character database publishes its properties, white
space among them, and the pieces between separators.
-/

namespace ShapeQuery.Text

/-! ### Characters -/

/-- A set of characters as inclusive ranges of code points. -/
structure CodePoints where
  ranges : List (Nat × Nat)

/-- A character belongs to the set when its code point lies in one of the ranges. -/
def CodePoints.contains (points : CodePoints) (character : Char) : Bool :=
  points.ranges.any fun range => range.1 ≤ character.toNat && character.toNat ≤ range.2

/-- The characters with the property `White_Space`. -/
def whiteSpace : CodePoints := ⟨
  [(0x9, 0xD), (0x20, 0x20), (0x85, 0x85), (0xA0, 0xA0), (0x1680, 0x1680), (0x2000, 0x200A),
   (0x2028, 0x2029), (0x202F, 0x202F), (0x205F, 0x205F), (0x3000, 0x3000)]⟩

/-- A text is blank when nothing is left after trimming white space from both ends. -/
def isBlank (text : String) : Bool :=
  text.toList.all whiteSpace.contains

/-! ### Pieces -/

/-- The pieces between the occurrences of a character; there is always one more piece than there
are occurrences. -/
def splitOn (separator : Char) : List Char → List (List Char)
  | [] => [[]]
  | character :: rest =>
    match splitOn separator rest with
    | [] => [[character]]
    | piece :: pieces =>
      if character = separator then [] :: piece :: pieces else (character :: piece) :: pieces

/-- The texts before and after the first occurrence of a character. -/
def splitOnce (separator : Char) (text : String) : Option (String × String) :=
  match text.toList.dropWhile (· ≠ separator) with
  | [] => none
  | _ :: after =>
    some (String.ofList (text.toList.takeWhile (· ≠ separator)), String.ofList after)

/-- Lines or other texts with a separator between each two. -/
def joined (separator : String) : List String → String
  | [] => ""
  | [text] => text
  | text :: rest => text ++ separator ++ joined separator rest

end ShapeQuery.Text
