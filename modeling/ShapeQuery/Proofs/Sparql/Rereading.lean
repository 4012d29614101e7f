/-
This file reads arrangements of lexemes back. What is written next to each other must not be read as
one; so lexemes are told apart in front of whatever may follow them, and two lots of them are put
together if the second begins with what the first ends before. What the lexemes name does not matter
until they are read.
-/
import ShapeQuery.Proofs.Sparql.Lexing

namespace ShapeQuery.Sparql

open Lexer (Begins isDelimiter token? tokens?)

/-! ### Tokens of a text -/

namespace Lexer

open Rdf.Turtle (skip isSpace)

/-- No token begins with white space or with the mark of a comment. -/
theorem token?_space {first : Char} (space : first ∈ [' ', '\t', '\n', '\r', '#'])
    (rest : List Char) : token? (first :: rest) = none := by
  simp only [List.mem_cons, List.not_mem_nil, or_false] at space
  rcases space with rfl | rfl | rfl | rfl | rfl
  all_goals
    rw [token?_eq_mark? (by decide)]
    simp [mark?, marks, List.isPrefixOf]

theorem skip_of_token? {first : Char} {rest : List Char} {found : Token × List Char}
    (read : token? (first :: rest) = some found) : skip false (first :: rest) = first :: rest := by
  have visible : first ∉ [' ', '\t', '\n', '\r', '#'] := by
    intro space
    rw [token?_space space] at read
    cases read
  simp only [List.mem_cons, List.not_mem_nil, or_false, not_or] at visible
  simp [skip, isSpace, visible]

theorem tokens?_of_nil {characters : List Char} (skipped : skip false characters = []) :
    tokens? characters = some [] := by
  rw [tokens?]
  split
  · rfl
  · next found => rw [skipped] at found; cases found

theorem tokens?_of_cons {characters : List Char} {first : Char} {rest : List Char}
    (skipped : skip false characters = first :: rest) :
    tokens? characters = (token? (first :: rest)).bind fun found =>
      if found.2.length ≤ rest.length then (tokens? found.2).map (found.1 :: ·) else none := by
  rw [tokens?]
  split
  · next none => rw [skipped] at none; cases none
  · next found =>
    rw [skipped, List.cons.injEq] at found
    obtain ⟨rfl, rfl⟩ := found
    cases token? (first :: rest) <;> rfl

theorem tokens?_space {first : Char} (space : isSpace first = true) (rest : List Char) :
    tokens? (first :: rest) = tokens? rest := by
  have skipped : skip false (first :: rest) = skip false rest := by
    rw [skip, if_neg (by decide), if_pos space]
  cases remaining : skip false rest with
  | nil => rw [tokens?_of_nil (skipped.trans remaining), tokens?_of_nil remaining]
  | cons head tail => rw [tokens?_of_cons (skipped.trans remaining), tokens?_of_cons remaining]

theorem tokens?_of_token? {characters after : List Char} {token : Token}
    (read : token? characters = some (token, after)) (shorter : after.length < characters.length) :
    tokens? characters = (tokens? after).map (token :: ·) := by
  cases characters with
  | nil => cases shorter
  | cons first rest =>
    rw [tokens?_of_cons (skip_of_token? read), read, Option.bind_some,
      if_pos (Nat.le_of_lt_succ shorter)]

end Lexer

namespace Lexeme

/-! ### Telling lexemes apart -/

/-- The characters of some lexemes. -/
def characters (lexemes : List Lexeme) : List Char :=
  lexemes.flatMap fun lexeme => lexeme.text.toList

theorem toList_written (lexemes : List Lexeme) :
    (written lexemes).toList = characters lexemes := by
  rw [written, characters, String.toList_join, List.flatMap_map]

theorem characters_cons (lexeme : Lexeme) (rest : List Lexeme) :
    characters (lexeme :: rest) = lexeme.text.toList ++ characters rest :=
  List.flatMap_cons

@[simp] theorem characters_append (first second : List Lexeme) :
    characters (first ++ second) = characters first ++ characters second :=
  List.flatMap_append

/-- The tokens of some lexemes. -/
def visible (lexemes : List Lexeme) : List Token :=
  lexemes.filterMap Lexeme.token?

@[simp] theorem visible_append (first second : List Lexeme) :
    visible (first ++ second) = visible first ++ visible second :=
  List.filterMap_append

/-- Whether a lexeme is one of the grammar, whatever it names. -/
def IsRegular : Lexeme → Prop
  | .number text => Lexer.IsNumeral text
  | .word text => text ∈ Lexer.keywords
  | .mark text => text ∈ Lexer.marks
  | _ => True

/-- Whether some lexemes are regular, and each of them ends before what comes next. -/
def Divided : List Lexeme → List Char → Prop
  | [], _ => True
  | lexeme :: lexemes, rest =>
    lexeme.IsRegular ∧ Begins lexeme.ends (characters lexemes ++ rest) ∧ Divided lexemes rest

/-- Lexemes that can be told apart in front of every text that begins in a certain way. -/
def ReadsBefore (test : Char → Bool) (lexemes : List Lexeme) : Prop :=
  ∀ rest, Begins test rest → Divided lexemes rest

/-- Lexemes that can be told apart in front of every text that begins with a delimiter. -/
abbrev Apart (lexemes : List Lexeme) : Prop :=
  ReadsBefore isDelimiter lexemes

/-- Lexemes that can be told apart whatever follows them. -/
abbrev Opens (lexemes : List Lexeme) : Prop :=
  ReadsBefore (fun _ => true) lexemes

/-- Lexemes whose text begins with a certain character. -/
def Leads (test : Char → Bool) (lexemes : List Lexeme) : Prop :=
  ∃ first rest, characters lexemes = first :: rest ∧ test first = true

variable {test middle : Char → Bool} {first second lexemes : List Lexeme}

theorem ReadsBefore.mono {weaker : Char → Bool} (reads : ReadsBefore weaker lexemes)
    (implies : ∀ character, test character = true → weaker character = true) :
    ReadsBefore test lexemes :=
  fun rest begins => reads rest (begins.mono implies)

theorem Opens.reads (opens : Opens lexemes) : ReadsBefore test lexemes :=
  opens.mono fun _ _ => rfl

theorem begins_any (rest : List Char) : Begins (fun _ => true) rest :=
  fun _ _ => rfl

theorem readsBefore_nil : ReadsBefore test [] :=
  fun _ _ => trivial

theorem divided_append (rest : List Char) :
    Divided (first ++ second) rest ↔
      Divided first (characters second ++ rest) ∧ Divided second rest := by
  induction first with
  | nil => simp [Divided]
  | cons lexeme others inductionHypothesis =>
    simp only [List.cons_append, Divided, inductionHypothesis, characters_append,
      List.append_assoc, and_assoc]

/-- Two lots of lexemes can be told apart if the first one can in front of the second. -/
theorem ReadsBefore.append (reads : ReadsBefore middle first) (others : ReadsBefore test second)
    (starts : ∀ rest, Begins test rest → Begins middle (characters second ++ rest)) :
    ReadsBefore test (first ++ second) :=
  fun rest begins => (divided_append rest).2 ⟨reads _ (starts rest begins), others rest begins⟩

theorem Opens.append (opens : Opens first) (reads : ReadsBefore test second) :
    ReadsBefore test (first ++ second) :=
  ReadsBefore.append opens reads fun _ _ => begins_any _

theorem Leads.begins (leads : Leads test lexemes) (rest : List Char) :
    Begins test (characters lexemes ++ rest) := by
  obtain ⟨first, others, written, passes⟩ := leads
  rw [written]
  rintro _ ⟨⟩
  exact passes

theorem ReadsBefore.append_leads (reads : ReadsBefore middle first)
    (others : ReadsBefore test second) (leads : Leads middle second) :
    ReadsBefore test (first ++ second) :=
  reads.append others fun rest _ => leads.begins rest

/-- A regular lexeme ends before everything that ends it. -/
theorem readsBefore_singleton {lexeme : Lexeme} (regular : lexeme.IsRegular) :
    ReadsBefore lexeme.ends [lexeme] :=
  fun _ begins => ⟨regular, begins, trivial⟩

theorem text_ne_nil {lexeme : Lexeme} (regular : lexeme.IsRegular) : lexeme.text.toList ≠ [] := by
  have noBegin : Begins isDelimiter [] := fun _ member => absurd member (by simp)
  cases lexeme with
  | number text => exact (Lexer.unsigned?_numeral regular noBegin).1
  | word text =>
    have nonempty : ∀ keyword ∈ Lexer.keywords, keyword.toList ≠ [] := by decide
    exact nonempty text regular
  | mark text =>
    have nonempty : ∀ mark ∈ Lexer.marks, mark.toList ≠ [] := by decide
    exact nonempty text regular
  | _ => simp [text, Iri.bracketed, Text.quoted]

/-! ### Reading -/

theorem tokens?_text {lexeme : Lexeme} (regular : lexeme.IsRegular)
    (harmless : lexeme.IsHarmless .readable) {rest : List Char} (begins : Begins lexeme.ends rest) :
    tokens? (lexeme.text.toList ++ rest) = (tokens? rest).map (lexeme.token?.toList ++ ·) := by
  cases token : lexeme.token? with
  | some token =>
    have shorter : rest.length < (lexeme.text.toList ++ rest).length := by
      rw [List.length_append]
      exact Nat.lt_add_of_pos_left (List.length_pos_iff.2 (text_ne_nil regular))
    exact Lexer.tokens?_of_token? (token?_text harmless token begins) shorter
  | none =>
    have space : tokens? (lexeme.text.toList ++ rest) = tokens? rest := by
      cases lexeme with
      | space => exact Lexer.tokens?_space rfl rest
      | newLine => exact Lexer.tokens?_space rfl rest
      | _ => cases token
    simp [space]

theorem visible_cons (lexeme : Lexeme) (rest : List Lexeme) :
    visible (lexeme :: rest) = lexeme.token?.toList ++ visible rest := by
  cases token : lexeme.token? <;> simp [visible, token]

/-- Harmless lexemes that can be told apart are read back. -/
theorem tokens?_of_divided {rest : List Char} (divided : Divided lexemes rest)
    (harmless : ∀ lexeme ∈ lexemes, lexeme.IsHarmless .readable) :
    tokens? (characters lexemes ++ rest) = (tokens? rest).map (visible lexemes ++ ·) := by
  induction lexemes with
  | nil => simp [characters, visible]
  | cons lexeme others inductionHypothesis =>
    rw [List.forall_mem_cons] at harmless
    have read := inductionHypothesis divided.2.2 harmless.2
    rw [characters_cons, List.append_assoc, tokens?_text divided.1 harmless.1 divided.2.1, read,
      Option.map_map, visible_cons]
    exact congrArg (Option.map · _) (funext fun tokens => (List.append_assoc ..).symm)

/-! ### Single lexemes -/

theorem Leads.append (leads : Leads test first) (second : List Lexeme) :
    Leads test (first ++ second) := by
  obtain ⟨opening, others, written, passes⟩ := leads
  refine ⟨opening, others ++ characters second, ?_, passes⟩
  rw [characters_append, written, List.cons_append]

theorem leads_space (passes : test ' ' = true) (rest : List Lexeme) :
    Leads test (.space :: rest) :=
  @Leads.append _ [.space] ⟨' ', [], rfl, passes⟩ rest

theorem leads_newLine (passes : test '\n' = true) (rest : List Lexeme) :
    Leads test (.newLine :: rest) :=
  @Leads.append _ [.newLine] ⟨'\n', [], rfl, passes⟩ rest

theorem ReadsBefore.space (reads : ReadsBefore test lexemes) :
    ReadsBefore test (.space :: lexemes) :=
  Opens.append (@readsBefore_singleton .space trivial) reads

theorem ReadsBefore.newLine (reads : ReadsBefore test lexemes) :
    ReadsBefore test (.newLine :: lexemes) :=
  Opens.append (@readsBefore_singleton .newLine trivial) reads

theorem ReadsBefore.cons {lexeme : Lexeme} (regular : lexeme.IsRegular)
    (reads : ReadsBefore test lexemes) (leads : Leads lexeme.ends lexemes) :
    ReadsBefore test (lexeme :: lexemes) :=
  (readsBefore_singleton regular).append_leads reads leads

theorem ReadsBefore.word {keyword : String} (known : keyword ∈ Lexer.keywords)
    (reads : ReadsBefore test lexemes) :
    ReadsBefore test (.word keyword :: .space :: lexemes) :=
  @ReadsBefore.cons _ _ (.word keyword) known reads.space (leads_space rfl _)

/-- The marks that end in front of everything. -/
def freeMarks : List String :=
  ["||", "&&", "!=", ">=", "^^", "(", ")", "\x7b", "\x7d", ",", "=", "*", "/"]

theorem mem_marks_of_mem_freeMarks : ∀ mark ∈ freeMarks, mark ∈ Lexer.marks := by
  decide

theorem endsMark_of_mem_freeMarks {mark : String} (free : mark ∈ freeMarks) (next : Char) :
    Lexer.endsMark mark next = true := by
  simp only [freeMarks, List.mem_cons, List.not_mem_nil, or_false] at free
  rcases free with rfl | rfl | rfl | rfl | rfl | rfl | rfl | rfl | rfl | rfl | rfl | rfl | rfl <;>
    rfl

theorem opens_mark {mark : String} (free : mark ∈ freeMarks) : Opens [.mark mark] :=
  (@readsBefore_singleton (.mark mark) (mem_marks_of_mem_freeMarks mark free)).mono
    fun next _ => endsMark_of_mem_freeMarks free next

theorem ReadsBefore.mark {mark : String} (free : mark ∈ freeMarks)
    (reads : ReadsBefore test lexemes) : ReadsBefore test (.mark mark :: lexemes) :=
  Opens.append (opens_mark free) reads

/-! ### Arrangements -/

theorem opens_parenthesised (reads : Apart lexemes) : Opens (parenthesised lexemes) :=
  (reads.append_leads (@opens_mark ")" (by decide)) ⟨')', [], rfl, by decide⟩).mark
    (by decide)

theorem reads_grouped (reads : Apart lexemes) (needed : Bool) :
    Apart (grouped needed lexemes) := by
  cases needed with
  | true => exact (opens_parenthesised reads).reads
  | false => exact reads

theorem separated_cons (separator part : List Lexeme) (parts : List (List Lexeme)) :
    ∃ others, separated separator (part :: parts) = part ++ others := by
  cases parts with
  | nil => exact ⟨[], (List.append_nil _).symm⟩
  | cons next rest =>
    rw [separated, List.append_assoc]
    · exact ⟨_, rfl⟩
    · exact List.cons_ne_nil _ _

/-- Separated parts can be told apart if the separator ends before each of them. -/
theorem reads_separated {separator : List Lexeme} (separates : ReadsBefore middle separator)
    (delimits : Leads isDelimiter separator) {parts : List (List Lexeme)}
    (reads : ∀ part ∈ parts, Apart part)
    (starts : ∀ part ∈ parts, ∀ rest, Begins middle (characters part ++ rest)) :
    Apart (separated separator parts) := by
  induction parts with
  | nil => exact readsBefore_nil
  | cons part rest inductionHypothesis =>
    rw [List.forall_mem_cons] at reads starts
    cases rest with
    | nil => exact reads.1
    | cons next others =>
      obtain ⟨further, written⟩ := separated_cons separator next others
      have more : Apart (separator ++ separated separator (next :: others)) :=
        separates.append (inductionHypothesis reads.2 starts.2) fun tail _ => by
          rw [written, characters_append, List.append_assoc]
          exact starts.2 next List.mem_cons_self _
      rw [separated, List.append_assoc]
      · exact reads.1.append_leads more (delimits.append _)
      · exact List.cons_ne_nil _ _

/-- Parts with a separator that ends in front of everything. -/
theorem reads_separated_opens {separator : List Lexeme} (opens : Opens separator)
    (delimits : Leads isDelimiter separator) {parts : List (List Lexeme)}
    (reads : ∀ part ∈ parts, Apart part) : Apart (separated separator parts) :=
  reads_separated opens delimits reads fun _ _ _ => begins_any _

theorem leads_separated {separator part : List Lexeme} {parts : List (List Lexeme)}
    (leads : Leads test part) : Leads test (separated separator (part :: parts)) := by
  obtain ⟨others, written⟩ := separated_cons separator part parts
  rw [written]
  exact leads.append others

theorem opens_lines {lines : List (List Lexeme)} (reads : ∀ line ∈ lines, Apart line) :
    Opens (lines.flatMap (· ++ [.newLine])) := by
  induction lines with
  | nil => exact readsBefore_nil
  | cons line rest inductionHypothesis =>
    rw [List.forall_mem_cons] at reads
    rw [List.flatMap_cons]
    have ended : Opens (line ++ [.newLine]) :=
      reads.1.append_leads readsBefore_nil.newLine (leads_newLine rfl [])
    exact ended.append (inductionHypothesis reads.2)

theorem opens_block {lines : List (List Lexeme)} (reads : ∀ line ∈ lines, Apart line) :
    Opens (block lines) :=
  Opens.append ((opens_lines reads).newLine.mark (by decide)) (opens_mark (by decide))

theorem leads_parenthesised (passes : test '(' = true) (lexemes : List Lexeme) :
    Leads test (parenthesised lexemes) :=
  @Leads.append _ [.mark "("] ⟨'(', [], rfl, passes⟩ _

end Lexeme

end ShapeQuery.Sparql
