/-
This file maps a text to lower case by the full Unicode rules. Two characters need more than
the table: the capital dotted I becomes two characters, and the capital sigma becomes the final
sigma at the end of a word.
-/
import ShapeQuery.Text.Case

namespace ShapeQuery.Text

/-- The lower case form of a character outside any context. -/
def lowerCaseOf (character : Char) : List Char :=
  if character = 'İ' then ['i', '\u0307']
  else
    let code := character.toNat
    match lowerCaseRuns.find? fun run =>
        run.first ≤ code && code ≤ run.last && (code - run.first) % run.step == 0 with
    | some run => [Char.ofNat (code + run.offset).toNat]
    | none => [character]

/-- Whether the first character that case rules do not look past is a cased one. -/
def startsCased (characters : List Char) : Bool :=
  match characters.dropWhile caseIgnorable.contains with
  | [] => false
  | character :: _ => cased.contains character

/-- Lower cases what follows a position; `afterCased` tells whether the nearest character before
it that case rules do not look past is cased. -/
def lowerCaseFrom (afterCased : Bool) : List Char → List Char
  | [] => []
  | character :: rest =>
    let lower :=
      if character = 'Σ' then [if afterCased && !startsCased rest then 'ς' else 'σ']
      else lowerCaseOf character
    let afterCased :=
      if caseIgnorable.contains character then afterCased else cased.contains character
    lower ++ lowerCaseFrom afterCased rest

/-- The text in lower case. -/
def lowercase (text : String) : String :=
  String.ofList (lowerCaseFrom false text.toList)

end ShapeQuery.Text
