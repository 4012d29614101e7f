/-
This file tells the lexemes of whole queries apart: the text of a tree with harmless lexemes has the
tokens of the tree and no others. The induction is on the tree; every expression and element can be
told apart in front of a delimiter, and every block in front of anything.
-/
import ShapeQuery.Proofs.Sparql.Harmless
import ShapeQuery.Proofs.Sparql.Rereading

namespace ShapeQuery.Sparql

open Lexeme (Apart Opens Opens.reads ReadsBefore Leads separated parenthesised grouped block)
open Lexer (isDelimiter endsMark)

/-! ### Leaves -/

theorem Lexeme.reads_delimited {lexeme : Lexeme} (regular : lexeme.IsRegular)
    (ends : lexeme.ends = isDelimiter) : Apart [lexeme] := by
  have reads := Lexeme.readsBefore_singleton regular
  rw [ends] at reads
  exact reads

theorem reads_var (name : Variable) : Apart [.var name] :=
  @Lexeme.reads_delimited (.var name) trivial rfl

theorem opens_iri (name : Iri) : Opens [.iri name] :=
  @Lexeme.readsBefore_singleton (.iri name) trivial

/-- Whether a lexeme is a mark or white space. -/
def Lexeme.isPunctuation : Lexeme → Bool
  | .mark _ => true
  | .space => true
  | .newLine => true
  | _ => false

/-- What spells a literal without quotes ends before a delimiter. -/
theorem isRegular_of_bareAs {value : Literal} {lexeme : Lexeme} (bare : value.BareAs lexeme) :
    lexeme.IsRegular ∧ lexeme.ends = isDelimiter ∧ lexeme.isPunctuation = false := by
  cases bare with
  | integer spelled => exact ⟨.inl (Literal.isIntegerForm_iff.2 spelled), rfl, rfl⟩
  | decimal spelled => exact ⟨.inr (Literal.isDecimalForm_iff.2 spelled), rfl, rfl⟩
  | truth spelled =>
    have known : ∀ word ∈ ["true", "false"], word ∈ Lexer.keywords := by decide
    exact ⟨known _ (by simpa using spelled), rfl, rfl⟩

theorem leads_language (tag : String) : Leads isDelimiter [.language tag] := by
  refine ⟨'@', tag.toList, ?_, rfl⟩
  simp [Lexeme.characters, Lexeme.text]

theorem reads_literal (value : Literal) : Apart value.lexemes := by
  rcases value.lexemes_cases with ⟨lexeme, bare, written⟩ | ⟨-, written⟩
  · obtain ⟨regular, ends, -⟩ := isRegular_of_bareAs bare
    rw [written]
    exact Lexeme.reads_delimited regular ends
  · rw [written]
    cases value with
    | plain content => exact @Lexeme.reads_delimited (.string content) trivial rfl
    | tagged content tag =>
      have tagReads : Apart [.language tag] := @Lexeme.reads_delimited (.language tag) trivial rfl
      exact @ReadsBefore.cons _ _ (.string content) trivial tagReads (leads_language tag)
    | typed content datatype =>
      have datatypeReads : Apart [.mark "^^", .iri datatype] :=
        (opens_iri datatype).reads.mark (by decide)
      exact @ReadsBefore.cons _ _ (.string content) trivial datatypeReads
        (@Leads.append _ [.mark "^^"] ⟨'^', ['^'], rfl, rfl⟩ [.iri datatype])

theorem reads_term (term : Term) : Apart term.lexemes := by
  cases term with
  | literal value => exact reads_literal value
  | var name => exact reads_var name
  | iri name => exact (opens_iri name).reads
  | blank label => exact @Lexeme.reads_delimited (.blank label) trivial rfl

/-! ### Paths -/

/-- The characters that a path begins with. -/
def isPathStart (character : Char) : Bool :=
  character = '<' || character = '^' || character = '('

theorem Lexeme.Leads.mono {test weaker : Char → Bool} {lexemes : List Lexeme}
    (leads : Leads test lexemes)
    (implies : ∀ character, test character = true → weaker character = true) :
    Leads weaker lexemes := by
  obtain ⟨first, others, written, passes⟩ := leads
  exact ⟨first, others, written, implies first passes⟩

theorem leads_iri {test : Char → Bool} (passes : test '<' = true) (name : Iri) :
    Leads test [.iri name] := by
  refine ⟨'<', name.text.toList ++ ['>'], ?_, passes⟩
  simp [Lexeme.characters, Lexeme.text, Iri.bracketed]

/-- A path in parentheses where these are needed begins like a path. -/
theorem leads_grouped {test : Char → Bool} {needed : Bool} {lexemes : List Lexeme}
    (passes : test '(' = true) (leads : needed = false → Leads test lexemes) :
    Leads test (grouped needed lexemes) := by
  cases needed with
  | true => exact Lexeme.leads_parenthesised passes lexemes
  | false => exact leads rfl

theorem Path.leads_of_strength {test : Char → Bool} (bracket : test '<' = true)
    (parenthesis : test '(' = true) (path : Path) (strong : ¬ path.strength < 3) :
    Lexeme.Leads test path.lexemes := by
  have repetition : ∀ inner : Path,
      Lexeme.Leads test (grouped (inner.strength < 4) inner.lexemes) := by
    intro inner
    refine leads_grouped parenthesis fun stronger => ?_
    cases inner with
    | predicate name => exact leads_iri bracket name
    | _ => simp [Path.strength] at stronger
  cases path with
  | predicate name => exact leads_iri bracket name
  | zeroOrMore inner => exact (repetition inner).append _
  | oneOrMore inner => exact (repetition inner).append _
  | zeroOrOne inner => exact (repetition inner).append _
  | _ => exact absurd (by simp [Path.strength]) strong

theorem reads_repetition {inner : Path} {sign : String} (signReads : Apart [.mark sign])
    (signLeads : Leads isDelimiter [.mark sign])
    (reads : Apart inner.lexemes ∧ Leads isPathStart inner.lexemes) :
    Apart (grouped (inner.strength < 4) inner.lexemes ++ [.mark sign]) ∧
      Leads isPathStart (grouped (inner.strength < 4) inner.lexemes ++ [.mark sign]) :=
  ⟨(Lexeme.reads_grouped reads.1 _).append_leads signReads signLeads,
    (leads_grouped rfl fun _ => reads.2).append _⟩

theorem leads_operands {required : Nat} {paths : List Path} (nonempty : paths ≠ [])
    {separator : List Lexeme}
    (leads : ∀ part ∈ Path.operands required paths, Leads isPathStart part) :
    Leads isPathStart (separated separator (Path.operands required paths)) := by
  obtain ⟨path, rest, rfl⟩ := List.exists_cons_of_ne_nil nonempty
  exact Lexeme.leads_separated (leads _ List.mem_cons_self)

theorem of_written {Item : Type} {items : List Item} {defect : Defect} {defects : List Defect}
    (written : (if items.isEmpty then [defect] else defects) = []) :
    items ≠ [] ∧ defects = [] := by
  cases items with
  | nil => cases written
  | cons item rest => exact ⟨List.cons_ne_nil _ _, written⟩

mutual

/-- The lexemes of a path can be told apart, and begin in a way that no mark before them can be
joined with. -/
theorem reads_path (path : Path) (written : path.defects = []) :
    Apart path.lexemes ∧ Leads isPathStart path.lexemes := by
  match path with
  | .predicate name => exact ⟨(opens_iri name).reads, leads_iri rfl name⟩
  | .inverse inner =>
    have known : "^" ∈ Lexer.marks := by decide
    refine ⟨?_, @Leads.append _ [.mark "^"] ⟨'^', [], rfl, rfl⟩ _⟩
    refine @ReadsBefore.cons _ _ (.mark "^") known
      (Lexeme.reads_grouped (reads_path inner written).1 _) (leads_grouped rfl fun strong => ?_)
    exact inner.leads_of_strength rfl rfl (by simpa using strong)
  | .sequence paths =>
    obtain ⟨nonempty, members⟩ := of_written written
    have parts := reads_operands 2 paths members
    exact ⟨Lexeme.reads_separated_opens (Lexeme.opens_mark (by decide)) ⟨'/', [], rfl, rfl⟩
        fun part member => (parts part member).1,
      leads_operands nonempty fun part member => (parts part member).2⟩
  | .alternative paths =>
    obtain ⟨nonempty, members⟩ := of_written written
    have parts := reads_operands 1 paths members
    have known : "|" ∈ Lexer.marks := by decide
    have separates : ReadsBefore (endsMark "|") [.mark "|"] :=
      @Lexeme.readsBefore_singleton (.mark "|") known
    refine ⟨Lexeme.reads_separated separates ⟨'|', [], rfl, rfl⟩
        (fun part member => (parts part member).1) fun part member rest => ?_,
      leads_operands nonempty fun part member => (parts part member).2⟩
    refine ((parts part member).2.mono fun character start => ?_).begins rest
    simp only [isPathStart, Bool.or_eq_true, decide_eq_true_eq] at start
    rcases start with (rfl | rfl) | rfl <;> rfl
  | .zeroOrMore inner =>
    exact reads_repetition (Lexeme.opens_mark (by decide)).reads ⟨'*', [], rfl, rfl⟩
      (reads_path inner written)
  | .oneOrMore inner =>
    have known : "+" ∈ Lexer.marks := by decide
    exact reads_repetition (@Lexeme.reads_delimited (.mark "+") known rfl) ⟨'+', [], rfl, rfl⟩
      (reads_path inner written)
  | .zeroOrOne inner =>
    have known : "?" ∈ Lexer.marks := by decide
    exact reads_repetition (@Lexeme.reads_delimited (.mark "?") known rfl) ⟨'?', [], rfl, rfl⟩
      (reads_path inner written)

theorem reads_operands (required : Nat) (paths : List Path)
    (written : Path.listDefects paths = []) :
    ∀ part ∈ Path.operands required paths, Apart part ∧ Leads isPathStart part := by
  match paths with
  | [] => exact fun _ member => absurd member List.not_mem_nil
  | path :: rest =>
    rw [Path.listDefects, List.append_eq_nil_iff] at written
    rw [Path.operands, List.forall_mem_cons]
    have first := reads_path path written.1
    exact ⟨⟨Lexeme.reads_grouped first.1 _, leads_grouped rfl fun _ => first.2⟩,
      reads_operands required rest written.2⟩

end

/-! ### Triples -/

variable {test : Char → Bool} {first second lexemes : List Lexeme}

theorem reads_spaced (reads : Apart first) (others : ReadsBefore test second) :
    ReadsBefore test (first ++ .space :: second) :=
  reads.append_leads others.space (Lexeme.leads_space rfl _)

theorem reads_tripleLexemes {subject predicate object : List Lexeme} (subjectReads : Apart subject)
    (predicateReads : Apart predicate) (objectReads : Apart object) :
    Apart (tripleLexemes subject predicate object) := by
  have known : "." ∈ Lexer.marks := by decide
  have point : Apart [.mark "."] := @Lexeme.reads_delimited (.mark ".") known rfl
  have whole := reads_spaced subjectReads (reads_spaced predicateReads
    (reads_spaced objectReads point))
  simpa [tripleLexemes] using whole

theorem reads_verb {verb : Verb} (written : verb.defects = []) : Apart verb.lexemes := by
  cases verb with
  | var name => exact reads_var name
  | path route => exact (reads_path route written).1

theorem reads_triplePattern {triple : TriplePattern} (written : triple.defects = []) :
    Apart triple.lexemes :=
  reads_tripleLexemes (reads_term _) (reads_verb written) (reads_term _)

theorem reads_templateTriple (triple : TemplateTriple) : Apart triple.lexemes :=
  reads_tripleLexemes (reads_term _) (reads_term _) (reads_term _)

/-! ### Tables -/

theorem reads_cell (cell : Option Term) : Apart (cellLexemes cell) := by
  cases cell with
  | some term => exact reads_term term
  | none =>
    have known : "UNDEF" ∈ Lexer.keywords := by decide
    exact @Lexeme.reads_delimited (.word "UNDEF") known rfl

theorem opens_spaces : Opens [.space] :=
  Lexeme.readsBefore_nil.space

theorem reads_variables (names : List Variable) : Apart (variableLexemes names) := by
  refine Lexeme.reads_separated_opens opens_spaces (Lexeme.leads_space rfl []) fun part member => ?_
  obtain ⟨name, _, rfl⟩ := List.mem_map.1 member
  exact reads_var name

/-- A table with a single column has a single cell in every row. -/
theorem opens_cells {rows : List (List (Option Term))} (single : ∀ row ∈ rows, row.length = 1) :
    Opens (rows.flatMap fun row => row.flatMap cellLexemes ++ [.space]) := by
  induction rows with
  | nil => exact Lexeme.readsBefore_nil
  | cons row rest inductionHypothesis =>
    rw [List.forall_mem_cons] at single
    obtain ⟨cell, rfl⟩ := List.length_eq_one_iff.1 single.1
    rw [List.flatMap_cons, List.flatMap_singleton, List.append_assoc]
    exact reads_spaced (reads_cell cell) (inductionHypothesis single.2)

theorem reads_data {data : Data} (written : data.defects = []) : Apart data.lexemes := by
  obtain ⟨columns, rows⟩ := data
  match columns with
  | [] => cases written
  | [name] =>
    have single : ∀ row ∈ rows, row.length = 1 := by
      simpa [Data.defects] using written
    have closing : Opens [.mark "\x7d"] := Lexeme.opens_mark (by decide)
    have cells := ((opens_cells single).append closing).space.mark
      (by decide : "\x7b" ∈ Lexeme.freeMarks)
    have table := (reads_spaced (reads_var name) cells).word
      (by decide : "VALUES" ∈ Lexer.keywords)
    simpa [Data.lexemes] using Opens.reads table
  | name :: other :: others =>
    have rowsRead : ∀ line ∈ rows.map fun row =>
        parenthesised (separated [.space] (row.map cellLexemes)), Apart line := by
      intro line member
      obtain ⟨row, _, rfl⟩ := List.mem_map.1 member
      refine (Lexeme.opens_parenthesised (Lexeme.reads_separated_opens opens_spaces
        (Lexeme.leads_space rfl []) fun part inside => ?_)).reads
      obtain ⟨cell, _, rfl⟩ := List.mem_map.1 inside
      exact reads_cell cell
    have head := Lexeme.opens_parenthesised (reads_variables (name :: other :: others))
    have table := (reads_spaced head.reads (Lexeme.opens_block rowsRead)).word
      (by decide : "VALUES" ∈ Lexer.keywords)
    simpa [Data.lexemes] using Opens.reads table

/-! ### Expressions -/

theorem reads_infix {operator : List Lexeme} (opens : Opens operator)
    (delimits : Leads isDelimiter operator) (left : Apart first) (right : Apart second) :
    Apart (first ++ operator ++ second) :=
  Opens.append (left.append_leads opens delimits) right

/-- A mark or a word between spaces. -/
theorem opens_between {lexeme : Lexeme} (regular : lexeme.IsRegular)
    (ends : lexeme.ends ' ' = true) : Opens [.space, lexeme, .space] :=
  (opens_spaces.cons regular (Lexeme.leads_space ends [])).space

theorem isRegular_comparison (comparison : Comparison) : comparison.lexeme.IsRegular := by
  have known : ∀ comparison : Comparison, comparison.symbol ∈ Lexer.marks := by
    intro comparison
    cases comparison <;> decide
  exact known comparison

theorem ends_comparison (comparison : Comparison) : comparison.lexeme.ends ' ' = true := by
  cases comparison <;> rfl

theorem reads_commas {parts : List (List Lexeme)} (reads : ∀ part ∈ parts, Apart part) :
    Apart (separated [.mark ",", .space] parts) :=
  Lexeme.reads_separated_opens (opens_spaces.mark (by decide))
    (@Leads.append _ [.mark ","] ⟨',', [], rfl, rfl⟩ _) reads

theorem opens_call {function : Lexeme} (named : Apart [function]) (arguments : Apart lexemes) :
    Opens (callLexemes function lexemes) :=
  named.append_leads (Lexeme.opens_parenthesised arguments)
    (Lexeme.leads_parenthesised rfl lexemes)

theorem isRegular_function (function : Function) : function.lexeme.IsRegular := by
  have known : ∀ keyword ∈ ["STR", "LCASE", "REGEX", "isBLANK", "SHA256", "CONCAT", "URI", "BOUND"],
      keyword ∈ Lexer.keywords := by decide
  cases function with
  | custom name => trivial
  | _ => exact known _ (by decide)

theorem reads_function (function : Function) : Apart [function.lexeme] := by
  cases function with
  | custom name => exact (opens_iri name).reads
  | _ => exact Lexeme.reads_delimited (isRegular_function _) rfl

theorem reads_keyword {keyword : String} (known : keyword ∈ Lexer.keywords) :
    Apart [.word keyword] :=
  @Lexeme.reads_delimited (.word keyword) known rfl

theorem reads_distinct (reads : Apart lexemes) (distinct : Bool) :
    Apart (distinctLexemes distinct lexemes) := by
  cases distinct with
  | true => exact reads.word (by decide : "DISTINCT" ∈ Lexer.keywords)
  | false => exact reads

/-- A number or a keyword does not begin like an equation. -/
theorem leads_of_token {lexeme : Lexeme} (harmless : lexeme.IsHarmless .readable)
    (nonempty : lexeme.text.toList ≠ []) {token : Token} (read : lexeme.token? = some token)
    (noMark : ∀ mark, token ≠ .mark mark) : Leads (endsMark "!") [lexeme] := by
  obtain ⟨opening, others, written⟩ := List.exists_cons_of_ne_nil nonempty
  refine ⟨opening, others, (List.flatMap_singleton ..).trans written, ?_⟩
  have found := @Lexeme.token?_text _ harmless _ read [] (by rintro _ ⟨⟩)
  rw [List.append_nil, written] at found
  by_cases same : opening = '='
  · subst same
    rw [Lexer.token?_eq_mark? (by decide)] at found
    obtain ⟨mark, _, equal⟩ := Option.map_eq_some_iff.1 found
    exact absurd (Prod.mk.inj equal).1.symm (noMark mark)
  · simpa [endsMark] using Ne.symm same

/-- Nothing but a mark can be joined with a negation before it. -/
theorem Lexeme.leads_of_regular {lexeme : Lexeme} (regular : lexeme.IsRegular)
    (visible : lexeme.isPunctuation = false) : Leads (endsMark "!") [lexeme] := by
  cases lexeme with
  | var name => exact ⟨'?', name.name.toList, by simp [characters, text], rfl⟩
  | iri name => exact leads_iri rfl name
  | blank label => exact ⟨'_', ':' :: label.toList, by simp [characters, text], rfl⟩
  | string value => exact ⟨'"', _, by simp [characters, text, Text.quoted]; rfl, rfl⟩
  | language tag => exact ⟨'@', tag.toList, by simp [characters, text], rfl⟩
  | number text => exact leads_of_token regular (text_ne_nil regular) rfl (by intro _ same; cases same)
  | word text => exact leads_of_token regular (text_ne_nil regular) rfl (by intro _ same; cases same)
  | _ => cases visible

theorem isPunctuation_function (function : Function) :
    function.lexeme.isPunctuation = false := by
  cases function <;> rfl

theorem leads_primary {expression : Expression} (primary : expression.isPrimary = true) :
    Leads (endsMark "!") expression.lexemes := by
  have first : ∀ lexeme rest, expression.lexemes = lexeme :: rest → lexeme.IsRegular →
      lexeme.isPunctuation = false → Leads (endsMark "!") expression.lexemes := by
    intro lexeme rest written regular visible
    rw [written]
    exact (Lexeme.leads_of_regular regular visible).append rest
  have aggregate : ∀ keyword ∈ ["COUNT", "SUM"], (Lexeme.word keyword).IsRegular := by
    intro keyword member
    have known : ∀ keyword ∈ ["COUNT", "SUM"], keyword ∈ Lexer.keywords := by decide
    exact known keyword member
  cases expression with
  | var name => exact first _ _ rfl trivial rfl
  | iri name => exact first _ _ rfl trivial rfl
  | literal value =>
    rcases value.lexemes_cases with ⟨lexeme, bare, written⟩ | ⟨-, written⟩
    · obtain ⟨regular, -, visible⟩ := isRegular_of_bareAs bare
      exact first lexeme [] written regular visible
    · exact first _ _ written trivial rfl
  | call function arguments =>
    exact first _ _ rfl (isRegular_function function) (isPunctuation_function function)
  | count distinct counted =>
    cases counted with
    | none => exact first _ _ rfl (aggregate _ (by decide)) rfl
    | some counted => exact first _ _ rfl (aggregate _ (by decide)) rfl
  | sum distinct summed => exact first _ _ rfl (aggregate _ (by decide)) rfl
  | _ => cases primary

/-! ### Modifiers -/

/-- What may stand at the end of a query: nothing, or clauses that start lines. -/
def Trails (lexemes : List Lexeme) : Prop :=
  Apart lexemes ∧ (lexemes = [] ∨ Leads isDelimiter lexemes)

theorem Trails.append (trails : Trails first) (others : Trails second) :
    Trails (first ++ second) := by
  obtain ⟨reads, start⟩ := trails
  obtain ⟨othersReads, othersStart⟩ := others
  rcases othersStart with rfl | leads
  · rw [List.append_nil]
    exact ⟨reads, start⟩
  · refine ⟨reads.append_leads othersReads leads, .inr ?_⟩
    rcases start with rfl | firstLeads
    · exact leads
    · exact firstLeads.append second

theorem trails_clause {words content : List Lexeme} (opens : Opens words) (reads : Apart content) :
    Trails (clauseLexemes words content) := by
  unfold clauseLexemes
  split
  · exact ⟨Lexeme.readsBefore_nil, .inl rfl⟩
  · exact ⟨(opens.append reads).newLine, .inr (Lexeme.leads_newLine rfl _)⟩

theorem trails_slice {word : String} (known : word ∈ Lexer.keywords) (count : Option Nat) :
    Trails (sliceLexemes word count) := by
  cases count with
  | none => exact ⟨Lexeme.readsBefore_nil, .inl rfl⟩
  | some count =>
    have numeral : Lexer.IsNumeral (toString count) := isNumeral_numeral count
    exact trails_clause (Lexeme.readsBefore_nil.word known)
      (@Lexeme.reads_delimited (.number (toString count)) numeral rfl)

/-! ### Trees -/

/-- A filter is written like its condition, in parentheses or without. -/
theorem lexemes_filter (condition : Expression) :
    (Element.filter condition).lexemes = [.word "FILTER", .space] ++ condition.lexemes ∨
      (Element.filter condition).lexemes = .word "FILTER" :: parenthesised condition.lexemes := by
  cases condition with
  | «exists» pattern => exact .inl rfl
  | notExists pattern => exact .inl rfl
  | _ => exact .inr rfl

theorem reads_logical {mark : String} (free : mark ∈ Lexeme.freeMarks) {parts : List (List Lexeme)}
    (reads : ∀ part ∈ parts, Apart part) :
    Apart (separated [.space, .mark mark, .space] parts) :=
  Lexeme.reads_separated_opens (opens_spaces.mark free).space (Lexeme.leads_space rfl _) reads

theorem reads_union {parts : List (List Lexeme)} (reads : ∀ part ∈ parts, Apart part) :
    Apart (separated [.newLine, .word "UNION", .newLine] parts) := by
  have opens : Opens [.newLine, .word "UNION", .newLine] :=
    ((reads_keyword (by decide)).append_leads Lexeme.readsBefore_nil.newLine
      (Lexeme.leads_newLine rfl [])).newLine
  exact Lexeme.reads_separated_opens opens (Lexeme.leads_newLine rfl _) reads

/-- A value with a name, in parentheses. -/
theorem opens_named (target : Variable) (reads : Apart lexemes) :
    Opens (parenthesised (lexemes ++ [.space, .word "AS", .space, .var target])) := by
  have name := (reads_var target).word (by decide : "AS" ∈ Lexer.keywords)
  exact Lexeme.opens_parenthesised (reads_spaced reads name)

/-- The WHERE clause and the modifier of a query. -/
theorem reads_where {lines : List (List Lexeme)} (reads : ∀ line ∈ lines, Apart line)
    (trails : Trails lexemes) :
    Apart ([.newLine, .word "WHERE", .space] ++ block lines ++ lexemes) := by
  have whole := (Lexeme.opens_block reads).append trails.1
  rw [List.append_assoc]
  exact (whole.word (by decide)).newLine

/-- The parts of a nested selection; without columns every variable is selected. -/
theorem reads_selection {columns : List Lexeme} (columnsRead : Apart columns) (distinct : Bool)
    {lines : List (List Lexeme)} (reads : ∀ line ∈ lines, Apart line) (trails : Trails lexemes) :
    Apart ([.word "SELECT", .space] ++ distinctLexemes distinct columns
      ++ [.newLine, .word "WHERE", .space] ++ block lines ++ lexemes) := by
  have whole := (reads_distinct columnsRead distinct).append_leads (reads_where reads trails)
    (Lexeme.leads_newLine rfl _)
  have selection := whole.word (by decide : "SELECT" ∈ Lexer.keywords)
  simpa using selection

mutual

theorem reads_expression (expression : Expression) (written : expression.defects = []) :
    Apart expression.lexemes := by
  match expression with
  | .var name => exact reads_var name
  | .iri name => exact (opens_iri name).reads
  | .literal value => exact reads_literal value
  | .or operands =>
    exact reads_logical (by decide) (reads_operandList operands (of_written written).2)
  | .and operands =>
    exact reads_logical (by decide) (reads_operandList operands (of_written written).2)
  | .compare left comparison right =>
    rw [Expression.defects, List.append_eq_nil_iff] at written
    have opens := opens_between (isRegular_comparison comparison) (ends_comparison comparison)
    exact reads_infix opens (Lexeme.leads_space rfl _)
      (Lexeme.reads_grouped (reads_expression left written.1) _)
      (Lexeme.reads_grouped (reads_expression right written.2) _)
  | .oneOf value choices =>
    rw [Expression.defects, List.append_eq_nil_iff] at written
    have listed := reads_commas (reads_list choices written.2)
    exact reads_infix (Lexeme.readsBefore_nil.word (by decide)).space (Lexeme.leads_space rfl _)
      (Lexeme.reads_grouped (reads_expression value written.1) _)
      (Lexeme.opens_parenthesised listed).reads
  | .noneOf value choices =>
    rw [Expression.defects, List.append_eq_nil_iff] at written
    have listed := reads_commas (reads_list choices written.2)
    exact reads_infix ((Lexeme.readsBefore_nil.word (by decide)).word (by decide)).space
      (Lexeme.leads_space rfl _)
      (Lexeme.reads_grouped (reads_expression value written.1) _)
      (Lexeme.opens_parenthesised listed).reads
  | .not operand =>
    have known : "!" ∈ Lexer.marks := by decide
    exact @ReadsBefore.cons _ _ (.mark "!") known
      (Lexeme.reads_grouped (reads_expression operand written) _)
      (leads_grouped rfl fun primary => leads_primary (by simpa using primary))
  | .call function arguments =>
    rw [Expression.defects, List.append_eq_nil_iff] at written
    exact (opens_call (reads_function function) (reads_commas (reads_list arguments written.2))).reads
  | .exists pattern =>
    have block := Lexeme.opens_block (reads_lines pattern written)
    exact Opens.reads (block.word (by decide))
  | .notExists pattern =>
    have block := Lexeme.opens_block (reads_lines pattern written)
    exact Opens.reads ((block.word (by decide)).word (by decide))
  | .count distinct none =>
    have star : Apart [.mark "*"] := (Lexeme.opens_mark (by decide)).reads
    exact (opens_call (reads_keyword (by decide)) (reads_distinct star distinct)).reads
  | .count distinct (some counted) =>
    have reads := reads_expression counted written
    exact (opens_call (reads_keyword (by decide)) (reads_distinct reads distinct)).reads
  | .sum distinct summed =>
    have reads := reads_expression summed written
    exact (opens_call (reads_keyword (by decide)) (reads_distinct reads distinct)).reads

theorem reads_list (expressions : List Expression) (written : listDefects expressions = []) :
    ∀ part ∈ listLexemes expressions, Apart part := by
  match expressions with
  | [] => exact fun _ member => absurd member List.not_mem_nil
  | expression :: rest =>
    rw [listLexemes, List.forall_mem_cons]
    rw [listDefects, List.append_eq_nil_iff] at written
    exact ⟨reads_expression expression written.1, reads_list rest written.2⟩

theorem reads_operandList (expressions : List Expression)
    (written : listDefects expressions = []) :
    ∀ part ∈ operandLexemes expressions, Apart part := by
  match expressions with
  | [] => exact fun _ member => absurd member List.not_mem_nil
  | expression :: rest =>
    rw [operandLexemes, List.forall_mem_cons]
    rw [listDefects, List.append_eq_nil_iff] at written
    exact ⟨Lexeme.reads_grouped (reads_expression expression written.1) _,
      reads_operandList rest written.2⟩

theorem reads_element (element : Element) (written : element.defects = []) :
    Apart element.lexemes := by
  match element with
  | .triple triple => exact reads_triplePattern written
  | .optional pattern =>
    have block := Lexeme.opens_block (reads_lines pattern written)
    exact Opens.reads (block.word (by decide))
  | .union branches => exact reads_union (reads_branches branches (of_written written).2)
  | .group pattern => exact (Lexeme.opens_block (reads_lines pattern written)).reads
  | .filter condition =>
    rcases lexemes_filter condition with plain | bracketed
    · rw [plain]
      exact (reads_expression condition written).word (by decide)
    · rw [bracketed]
      exact (opens_call (reads_keyword (by decide)) (reads_expression condition written)).reads
  | .values data => exact reads_data written
  | .bind value target =>
    have whole := (reads_keyword (by decide : "BIND" ∈ Lexer.keywords)).append_leads
      (opens_named target (reads_expression value written)) (Lexeme.leads_parenthesised rfl _)
    exact Opens.reads whole
  | .service name silent pattern =>
    have block := Lexeme.opens_block (reads_lines pattern written)
    have named := (opens_iri name).append block.space
    cases silent with
    | true => exact Opens.reads ((named.word (by decide)).word (by decide))
    | false => exact Opens.reads (named.word (by decide))
  | .select query =>
    exact (Lexeme.opens_block (List.forall_mem_singleton.2 (reads_select query written))).reads

theorem reads_lines (group : Group) (written : groupDefects group = []) :
    ∀ line ∈ lineLexemes group, Apart line := by
  match group with
  | [] => exact fun _ member => absurd member List.not_mem_nil
  | element :: rest =>
    rw [lineLexemes, List.forall_mem_cons]
    rw [groupDefects, List.append_eq_nil_iff] at written
    exact ⟨reads_element element written.1, reads_lines rest written.2⟩

theorem reads_branches (branches : List Group) (written : branchDefects branches = []) :
    ∀ part ∈ branchLexemes branches, Apart part := by
  match branches with
  | [] => exact fun _ member => absurd member List.not_mem_nil
  | branch :: rest =>
    rw [branchLexemes, List.forall_mem_cons]
    rw [branchDefects, List.append_eq_nil_iff] at written
    exact ⟨(Lexeme.opens_block (reads_lines branch written.1)).reads,
      reads_branches rest written.2⟩

theorem reads_column (column : Projection) (written : column.defects = []) :
    Apart column.lexemes := by
  match column with
  | .var name => exact reads_var name
  | .expression value target =>
    exact (opens_named target (reads_expression value written)).reads

theorem reads_columns (columns : List Projection) (written : columnDefects columns = []) :
    ∀ part ∈ columnLexemes columns, Apart part := by
  match columns with
  | [] => exact fun _ member => absurd member List.not_mem_nil
  | column :: rest =>
    rw [columnLexemes, List.forall_mem_cons]
    rw [columnDefects, List.append_eq_nil_iff] at written
    exact ⟨reads_column column written.1, reads_columns rest written.2⟩

theorem reads_criterion (criterion : OrderCondition) (written : criterion.defects = []) :
    Apart criterion.lexemes := by
  match criterion with
  | .ascending key =>
    exact (opens_call (reads_keyword (by decide)) (reads_expression key written)).reads
  | .descending key =>
    exact (opens_call (reads_keyword (by decide)) (reads_expression key written)).reads

theorem reads_criteria (criteria : List OrderCondition) (written : criterionDefects criteria = []) :
    ∀ part ∈ criterionLexemes criteria, Apart part := by
  match criteria with
  | [] => exact fun _ member => absurd member List.not_mem_nil
  | criterion :: rest =>
    rw [criterionLexemes, List.forall_mem_cons]
    rw [criterionDefects, List.append_eq_nil_iff] at written
    exact ⟨reads_criterion criterion written.1, reads_criteria rest written.2⟩

theorem trails_modifier (modifier : Modifier) (written : modifier.defects = []) :
    Trails modifier.lexemes := by
  match modifier with
  | ⟨groupBy, orderBy, limit, offset⟩ =>
    have grouping : Trails (clauseLexemes [.word "GROUP", .space, .word "BY", .space] _) :=
      trails_clause ((Lexeme.readsBefore_nil.word (by decide)).word (by decide))
        (reads_variables groupBy)
    have ordering : Trails (clauseLexemes [.word "ORDER", .space, .word "BY", .space] _) :=
      trails_clause ((Lexeme.readsBefore_nil.word (by decide)).word (by decide))
        (Lexeme.reads_separated_opens opens_spaces (Lexeme.leads_space rfl [])
          (reads_criteria orderBy written))
    exact ((grouping.append ordering).append (trails_slice (by decide) limit)).append
      (trails_slice (by decide) offset)

theorem reads_select (query : Select) (written : query.defects = []) : Apart query.lexemes := by
  match query with
  | ⟨distinct, none, pattern, modifier⟩ =>
    rw [Select.defects, List.append_eq_nil_iff, List.append_eq_nil_iff] at written
    have star : Apart [.mark "*"] := (Lexeme.opens_mark (by decide)).reads
    exact reads_selection star distinct (reads_lines pattern written.1.2)
      (trails_modifier modifier written.2)
  | ⟨distinct, some columns, pattern, modifier⟩ =>
    rw [Select.defects, List.append_eq_nil_iff, List.append_eq_nil_iff] at written
    have projected := Lexeme.reads_separated_opens opens_spaces (Lexeme.leads_space rfl [])
      (reads_columns columns (of_written written.1.1).2)
    exact reads_selection projected distinct (reads_lines pattern written.1.2)
      (trails_modifier modifier written.2)

end

/-! ### Queries -/

/-- The tokens of a query. -/
def Query.tokens (query : Query) : List Token :=
  Lexeme.visible query.lexemes

theorem written_of_rendered {defects : List Defect} {text : String}
    (rendered : rendered defects lexemes = .ok text) :
    defects = [] ∧ text = Lexeme.written lexemes := by
  cases defects with
  | nil => exact ⟨rfl, (Except.ok.inj rendered).symm⟩
  | cons defect rest => cases rendered

/-- The lexemes of every query that can be written can be told apart. -/
theorem Query.divided {query : Query} (written : query.defects = []) :
    Lexeme.Divided query.lexemes [] := by
  rw [Query.defects, List.append_eq_nil_iff, List.append_eq_nil_iff] at written
  have template : ∀ line ∈ query.template.map TemplateTriple.lexemes, Apart line := by
    intro line member
    obtain ⟨triple, _, rfl⟩ := List.mem_map.1 member
    exact reads_templateTriple triple
  have clauses := reads_where (reads_lines query.pattern written.1.2)
    (trails_modifier query.modifier written.2)
  have whole := ((Lexeme.opens_block template).append clauses).word
    (by decide : "CONSTRUCT" ∈ Lexer.keywords)
  have reads : Apart query.lexemes := by simpa [Query.lexemes, Group.lexemes] using whole
  exact reads [] (by rintro _ ⟨⟩)

/-- The text of a query with harmless lexemes has the tokens of the query. -/
theorem Query.tokens?_text {query : Query} (harmless : query.Harmless .readable) {text : String}
    (made : query.render = .ok text) : Lexer.tokens? text.toList = some query.tokens := by
  obtain ⟨written, rfl⟩ := written_of_rendered made
  have read := Lexeme.tokens?_of_divided (Query.divided written) harmless
  have nothing : Lexer.tokens? [] = some [] := Lexer.tokens?_of_nil rfl
  rw [List.append_nil, nothing, Option.map_some, List.append_nil] at read
  rw [Lexeme.toList_written, read, Query.tokens]

end ShapeQuery.Sparql
