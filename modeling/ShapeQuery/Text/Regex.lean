/-
This file writes regular expressions in the dialect of XPath: of texts that stand for themselves,
and of patterns with wildcards.
-/

namespace ShapeQuery.Text

/-- Whether a character has a meaning of its own in a regular expression. -/
def isRegexOperator (character : Char) : Bool :=
  "\\|.?*+()\x7b\x7d[]^$-".toList.contains character

/-- A character that stands for itself in a regular expression. -/
def escapeRegexCharacter (character : Char) : List Char :=
  if isRegexOperator character then ['\\', character] else [character]

/-- The regular expression of a text. -/
def escapeRegex (text : String) : String :=
  String.ofList (text.toList.flatMap escapeRegexCharacter)

/-- The parts of the regular expression of a pattern. A percent sign stands for any characters, a
low line for a single one; after a backslash a character stands for itself. -/
def wildcardParts : List Char → List Char
  | [] => []
  | ['\\'] => escapeRegexCharacter '\\'
  | '\\' :: character :: rest => escapeRegexCharacter character ++ wildcardParts rest
  | '%' :: rest => '.' :: '*' :: wildcardParts rest
  | '_' :: rest => '.' :: wildcardParts rest
  | character :: rest => escapeRegexCharacter character ++ wildcardParts rest

/-- The regular expression of a pattern, which matches whole texts. -/
def wildcardRegex (pattern : String) : String :=
  String.ofList ('^' :: wildcardParts pattern.toList ++ ['$'])

end ShapeQuery.Text
