/-
This file sorts the words of a command line into options and operands. An option takes a value,
which is the next word or follows an equals sign. A word that starts with a dash is no value,
unless the option takes numbers and the word is one.
-/
import ShapeQuery.Text.Basic

namespace ShapeQuery.CommandLine

/-- The values that an option takes. -/
inductive OptionKind where
  /-- One text. -/
  | text
  /-- One path of a file. -/
  | path
  /-- A text each time it is given. -/
  | texts
  /-- Some numbers each time it is given. -/
  | numbers
deriving DecidableEq

namespace OptionKind

/-- Whether an option may be given several times. -/
def isRepeatable : OptionKind → Bool
  | .text => false
  | .path => false
  | .texts => true
  | .numbers => true

/-- Whether a text may be the value of an option. -/
def accepts (kind : OptionKind) (value : String) : Bool :=
  kind ≠ .path || !value.isEmpty

end OptionKind

/-! ### Words -/

/-- Whether characters are digits with a point at most, which is not the first of them. -/
def isDecimal (characters : List Char) : Bool :=
  let whole := characters.takeWhile Char.isDigit
  match characters.dropWhile Char.isDigit with
  | [] => true
  | '.' :: fraction => !whole.isEmpty && fraction.all Char.isDigit
  | _ => false

/-- Whether the characters after a minus sign look like a number: a decimal, and an exponent of
digits if there is one. -/
def isNumber (characters : List Char) : Bool :=
  let isMark := fun character => character = 'e' || character = 'E'
  let mantissa := characters.takeWhile fun character => !isMark character
  match characters.dropWhile fun character => !isMark character with
  | [] => isDecimal mantissa
  | _ :: digits =>
    !mantissa.isEmpty && isDecimal mantissa && !digits.isEmpty && digits.all Char.isDigit

/-- Whether a word is the value of the option before it. -/
def isValueOf (kind : OptionKind) (word : String) : Bool :=
  match word.toList with
  | '-' :: rest => rest.isEmpty || (kind = .numbers && isNumber rest)
  | _ => true

/-- Whether a word is neither an option nor the end of the options. -/
def isOperand (word : String) : Bool :=
  match word.toList with
  | '-' :: rest => rest.isEmpty
  | _ => true

/-- Whether a word holds nothing but flags. -/
def isFlags (word : String) : Bool :=
  match word.toList with
  | ['-', '-', 'v', 'e', 'r', 'b', 'o', 's', 'e'] => true
  | '-' :: flags => !flags.isEmpty && flags.all (· = 'v')
  | _ => false

/-! ### Sorting -/

/-- The words that were sorted so far. -/
structure Words where
  /-- The known options. -/
  kinds : List (String × OptionKind)
  options : List (String × String)
  operands : List String
  /-- An option that waits for its value. -/
  pending : Option String
  /-- Whether only operands follow. -/
  ended : Bool

namespace Words

/-- No words. -/
def empty (kinds : List (String × OptionKind)) : Words :=
  ⟨kinds, [], [], none, false⟩

/-- Adds an option with its value. -/
def record (words : Words) (name value : String) : Option Words := do
  let kind ← words.kinds.lookup name
  let repeated := words.options.any fun option => option.1 = name
  if kind.accepts value && (kind.isRepeatable || !repeated) then
    some { words with options := words.options ++ [(name, value)], pending := none }
  else none

/-- Adds an operand. -/
def recordOperand (words : Words) (word : String) : Words :=
  { words with operands := words.operands ++ [word] }

/-- Takes an option, with or without its value. -/
def takeOption (words : Words) (word : String) : Option Words :=
  match Text.splitOnce '=' word with
  | some (name, value) => words.record name value
  | none => (words.kinds.lookup word).map fun _ => { words with pending := some word }

/-- Takes the next word. -/
def take (words : Words) (word : String) : Option Words :=
  match words.pending with
  | some name => do
    let kind ← words.kinds.lookup name
    if isValueOf kind word then words.record name word else none
  | none =>
    if words.ended || isOperand word then some (words.recordOperand word)
    else if word = "--" then some { words with ended := true }
    else if isFlags word then some words
    else words.takeOption word

/-- Whether the next word, if it is an operand, is the first one. -/
def isLeading (words : Words) : Bool :=
  words.pending.isNone && !words.ended

/-- Takes options up to the first operand; returns that operand and the words after it. -/
def leading (words : Words) : List String → Option (Words × String × List String)
  | [] => none
  | word :: rest =>
    if words.isLeading && isOperand word then some (words, word, rest)
    else do (← words.take word).leading rest

/-- Sorts some words. -/
def ofList (kinds : List (String × OptionKind)) (words : List String) : Option Words := do
  let words ← words.foldlM take (empty kinds)
  if words.pending.isNone then some words else none

/-- The value of an option. -/
def value? (words : Words) (name : String) : Option String :=
  words.options.lookup name

/-- The values of an option. -/
def values (words : Words) (name : String) : List String :=
  (words.options.filter fun option => option.1 = name).map Prod.snd

end Words

end ShapeQuery.CommandLine
