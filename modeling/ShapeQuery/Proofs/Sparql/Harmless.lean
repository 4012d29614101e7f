/-
This file says when the lexemes of a tree are harmless: when those of its parts are. An IRI has to
be one that can stand between angle brackets; variables, labels and language tags have to come from
a lexicon; the content of strings is free.
-/
import ShapeQuery.Proofs.Sparql.Lexing
import ShapeQuery.Sparql.Query

namespace ShapeQuery.Sparql

open Lexeme (separated parenthesised grouped block)

variable {lexicon : Lexer.Lexicon}

/-! ### Lexemes -/

namespace Lexeme

/-- Lexemes with harmless content. -/
def Harmless (lexicon : Lexer.Lexicon) (lexemes : List Lexeme) : Prop :=
  ∀ lexeme ∈ lexemes, lexeme.IsHarmless lexicon

theorem IsHarmless.mono {other : Lexer.Lexicon} (within : lexicon.Within other) {lexeme : Lexeme}
    (harmless : lexeme.IsHarmless lexicon) : lexeme.IsHarmless other := by
  cases lexeme with
  | var name => exact within.names _ harmless
  | blank label => exact within.labels _ harmless
  | language tag => exact within.tags _ harmless
  | _ => exact harmless

@[simp] theorem isHarmless_space : space.IsHarmless lexicon :=
  trivial

@[simp] theorem harmless_nil : Harmless lexicon [] :=
  fun _ member => absurd member List.not_mem_nil

@[simp] theorem harmless_cons (lexeme : Lexeme) (rest : List Lexeme) :
    Harmless lexicon (lexeme :: rest) ↔ lexeme.IsHarmless lexicon ∧ Harmless lexicon rest :=
  List.forall_mem_cons

@[simp] theorem harmless_append (first second : List Lexeme) :
    Harmless lexicon (first ++ second) ↔ Harmless lexicon first ∧ Harmless lexicon second :=
  List.forall_mem_append

@[simp] theorem harmless_parenthesised (lexemes : List Lexeme) :
    Harmless lexicon (parenthesised lexemes) ↔ Harmless lexicon lexemes := by
  have marks : "(" ∈ Lexer.marks ∧ ")" ∈ Lexer.marks := by decide
  simp [parenthesised, IsHarmless, marks]

@[simp] theorem harmless_grouped (needed : Bool) (lexemes : List Lexeme) :
    Harmless lexicon (grouped needed lexemes) ↔ Harmless lexicon lexemes := by
  cases needed with
  | true => exact harmless_parenthesised lexemes
  | false => exact Iff.rfl

/-- What holds of the parentheses and of some lexemes holds of the lexemes between parentheses. -/
theorem forall_grouped {test : Lexeme → Prop} (marks : ∀ mark ∈ Lexer.marks, test (.mark mark))
    {needed : Bool} {lexemes : List Lexeme} (each : ∀ lexeme ∈ lexemes, test lexeme) :
    ∀ lexeme ∈ grouped needed lexemes, test lexeme := by
  cases needed with
  | true =>
    exact List.forall_mem_append.2 ⟨List.forall_mem_cons.2 ⟨marks "(" (by decide), each⟩,
      List.forall_mem_singleton.2 (marks ")" (by decide))⟩
  | false => exact each

@[simp] theorem harmless_block (lines : List (List Lexeme)) :
    Harmless lexicon (block lines) ↔ ∀ line ∈ lines, Harmless lexicon line := by
  have marks : "\x7b" ∈ Lexer.marks ∧ "\x7d" ∈ Lexer.marks := by decide
  have ended : Harmless lexicon (lines.flatMap (· ++ [.newLine])) ↔
      ∀ line ∈ lines, Harmless lexicon line := by
    induction lines with
    | nil => simp
    | cons line rest inductionHypothesis => simp [IsHarmless, inductionHypothesis]
  simp [block, IsHarmless, marks, ended]

theorem forall_separated {test : Lexeme → Prop} {separator : List Lexeme}
    (between : ∀ lexeme ∈ separator, test lexeme) {parts : List (List Lexeme)}
    (each : ∀ part ∈ parts, ∀ lexeme ∈ part, test lexeme) :
    ∀ lexeme ∈ separated separator parts, test lexeme := by
  induction parts with
  | nil => exact fun _ member => absurd member List.not_mem_nil
  | cons part rest inductionHypothesis =>
    rw [List.forall_mem_cons] at each
    cases rest with
    | nil => exact each.1
    | cons next others =>
      exact List.forall_mem_append.2
        ⟨List.forall_mem_append.2 ⟨each.1, between⟩, inductionHypothesis each.2⟩

theorem harmless_separated {separator : List Lexeme} (clean : Harmless lexicon separator)
    (parts : List (List Lexeme)) :
    Harmless lexicon (separated separator parts) ↔ ∀ part ∈ parts, Harmless lexicon part := by
  induction parts with
  | nil => simp [separated]
  | cons part rest inductionHypothesis =>
    cases rest with
    | nil => simp [separated]
    | cons next others => simp_all [separated]

end Lexeme

open Lexeme (Harmless)

/-! ### Arrangements -/

theorem harmless_tripleLexemes (subject predicate object : List Lexeme) :
    Harmless lexicon (tripleLexemes subject predicate object) ↔
      Harmless lexicon subject ∧ Harmless lexicon predicate ∧ Harmless lexicon object := by
  simp [tripleLexemes, Lexeme.IsHarmless, Lexer.marks]

theorem harmless_comparison (comparison : Comparison) :
    comparison.lexeme.IsHarmless lexicon := by
  have known : ∀ comparison : Comparison, comparison.symbol ∈ Lexer.marks := by
    intro comparison
    cases comparison <;> decide
  exact known comparison

theorem harmless_spaces : Harmless lexicon [.space] := by
  simp [Lexeme.IsHarmless]

theorem harmless_commas : Harmless lexicon [.mark ",", .space] := by
  simp [Lexeme.IsHarmless, Lexer.marks]

theorem harmless_between {mark : String} (known : mark ∈ Lexer.marks) :
    Harmless lexicon [.space, .mark mark, .space] := by
  simp [Lexeme.IsHarmless, known]

theorem harmless_union : Harmless lexicon [.newLine, .word "UNION", .newLine] := by
  simp [Lexeme.IsHarmless, Lexer.keywords]

theorem harmless_distinct (lexemes : List Lexeme) (distinct : Bool) :
    Harmless lexicon (distinctLexemes distinct lexemes) ↔ Harmless lexicon lexemes := by
  cases distinct with
  | true => simp [distinctLexemes, Lexeme.IsHarmless, Lexer.keywords]
  | false => exact Iff.rfl

theorem harmless_clause {words content : List Lexeme} (clean : Harmless lexicon words)
    (harmless : Harmless lexicon content) : Harmless lexicon (clauseLexemes words content) := by
  unfold clauseLexemes
  split
  · exact Lexeme.harmless_nil
  · simp [Lexeme.IsHarmless, clean, harmless]

/-! ### Terms -/

namespace Term

/-- A term with harmless lexemes. -/
def Harmless (lexicon : Lexer.Lexicon) (term : Term) : Prop :=
  Lexeme.Harmless lexicon term.lexemes

@[simp] theorem harmless_var (name : Variable) :
    (Term.var name).Harmless lexicon ↔ lexicon.names name.name := by
  simp [Harmless, lexemes, Lexeme.IsHarmless]

@[simp] theorem harmless_iri (name : Iri) :
    (Term.iri name).Harmless lexicon ↔ Lexer.IsReference name.text := by
  simp [Harmless, lexemes, Lexeme.IsHarmless]

@[simp] theorem harmless_blank (label : String) :
    (Term.blank label).Harmless lexicon ↔ lexicon.labels label := by
  simp [Harmless, lexemes, Lexeme.IsHarmless]

end Term

end ShapeQuery.Sparql

namespace ShapeQuery.Literal

open Sparql (Lexer.Lexicon Lexeme)

variable {lexicon : Lexer.Lexicon}

/-- Whether the language or the datatype of a literal can be read back. -/
def Harmless (lexicon : Lexer.Lexicon) : Literal → Prop
  | .plain _ => True
  | .tagged _ tag => lexicon.tags tag
  | .typed _ datatype => Sparql.Lexer.IsReference datatype.text

/-- Whatever a literal says, only its language and its datatype matter: what is written without
quotes is a number or a truth value. -/
theorem harmless_lexemes {literal : Literal} (harmless : literal.Harmless lexicon) :
    Lexeme.Harmless lexicon literal.lexemes := by
  rcases literal.lexemes_cases with ⟨lexeme, bare, written⟩ | ⟨-, written⟩
  · rw [written]
    refine List.forall_mem_singleton.2 ?_
    cases bare with
    | integer spelled => exact .inl (isIntegerForm_iff.2 spelled)
    | decimal spelled => exact .inr (isDecimalForm_iff.2 spelled)
    | truth spelled =>
      have known : ∀ word ∈ ["true", "false"], word ∈ Sparql.Lexer.keywords := by decide
      exact known _ (by simpa using spelled)
  · rw [written, Lexeme.harmless_cons]
    refine ⟨trivial, ?_⟩
    cases literal with
    | plain value => exact Lexeme.harmless_nil
    | tagged value tag => exact List.forall_mem_singleton.2 harmless
    | typed value datatype =>
      have known : "^^" ∈ Sparql.Lexer.marks := by decide
      exact List.forall_mem_cons.2 ⟨known, List.forall_mem_singleton.2 harmless⟩

end ShapeQuery.Literal

namespace ShapeQuery.Sparql

open Lexeme (separated parenthesised grouped block)

variable {lexicon : Lexer.Lexicon}

@[simp] theorem Term.harmless_literal {literal : Literal} (harmless : literal.Harmless lexicon) :
    (Term.literal literal).Harmless lexicon :=
  literal.harmless_lexemes harmless

/-! ### Paths -/

namespace Path

mutual

/-- The predicates of a path. -/
def predicates : Path → List Iri
  | .predicate iri => [iri]
  | .inverse path => path.predicates
  | .sequence paths => listPredicates paths
  | .alternative paths => listPredicates paths
  | .zeroOrMore path => path.predicates
  | .oneOrMore path => path.predicates
  | .zeroOrOne path => path.predicates

/-- The predicates of some paths. -/
def listPredicates : List Path → List Iri
  | [] => []
  | path :: rest => path.predicates ++ listPredicates rest

end

/-- A path along references. -/
def Harmless (path : Path) : Prop :=
  ∀ iri ∈ path.predicates, Lexer.IsReference iri.text

theorem mem_listPredicates {paths : List Path} {iri : Iri} :
    iri ∈ listPredicates paths ↔ ∃ path ∈ paths, iri ∈ path.predicates := by
  induction paths with
  | nil => simp [listPredicates]
  | cons path rest inductionHypothesis => simp [listPredicates, inductionHypothesis]

@[simp] theorem harmless_predicate (iri : Iri) :
    (predicate iri).Harmless ↔ Lexer.IsReference iri.text := by
  simp [Harmless, predicates]

@[simp] theorem harmless_inverse (path : Path) : (inverse path).Harmless ↔ path.Harmless :=
  Iff.rfl

@[simp] theorem harmless_sequence (paths : List Path) :
    (sequence paths).Harmless ↔ ∀ path ∈ paths, path.Harmless := by
  simp only [Harmless, predicates, mem_listPredicates]
  exact ⟨fun clean path member iri inside => clean iri ⟨path, member, inside⟩,
    fun clean iri ⟨path, member, inside⟩ => clean path member iri inside⟩

@[simp] theorem harmless_alternative (paths : List Path) :
    (alternative paths).Harmless ↔ ∀ path ∈ paths, path.Harmless :=
  harmless_sequence paths

@[simp] theorem harmless_zeroOrMore (path : Path) : (zeroOrMore path).Harmless ↔ path.Harmless :=
  Iff.rfl

@[simp] theorem harmless_oneOrMore (path : Path) : (oneOrMore path).Harmless ↔ path.Harmless :=
  Iff.rfl

@[simp] theorem harmless_zeroOrOne (path : Path) : (zeroOrOne path).Harmless ↔ path.Harmless :=
  Iff.rfl

section

variable {test : Lexeme → Prop} (marks : ∀ mark ∈ Lexer.marks, test (.mark mark))

include marks

mutual

/-- A path is written from its predicates and from marks. -/
theorem forall_lexemes (path : Path) (iris : ∀ iri ∈ path.predicates, test (.iri iri)) :
    ∀ lexeme ∈ path.lexemes, test lexeme := by
  have repeated {inner : Path} {sign : String} (known : sign ∈ Lexer.marks)
      (each : ∀ lexeme ∈ inner.lexemes, test lexeme) :
      ∀ lexeme ∈ grouped (inner.strength < 4) inner.lexemes ++ [.mark sign], test lexeme :=
    List.forall_mem_append.2 ⟨Lexeme.forall_grouped marks each,
      List.forall_mem_singleton.2 (marks sign known)⟩
  match path with
  | .predicate iri => exact List.forall_mem_singleton.2 (iris iri (List.mem_singleton.2 rfl))
  | .inverse inner =>
    exact List.forall_mem_cons.2
      ⟨marks "^" (by decide), Lexeme.forall_grouped marks (inner.forall_lexemes iris)⟩
  | .sequence paths =>
    exact Lexeme.forall_separated (List.forall_mem_singleton.2 (marks "/" (by decide)))
      (forall_operands 2 paths iris)
  | .alternative paths =>
    exact Lexeme.forall_separated (List.forall_mem_singleton.2 (marks "|" (by decide)))
      (forall_operands 1 paths iris)
  | .zeroOrMore inner => exact repeated (by decide) (inner.forall_lexemes iris)
  | .oneOrMore inner => exact repeated (by decide) (inner.forall_lexemes iris)
  | .zeroOrOne inner => exact repeated (by decide) (inner.forall_lexemes iris)

theorem forall_operands (required : Nat) (paths : List Path)
    (iris : ∀ iri ∈ listPredicates paths, test (.iri iri)) :
    ∀ part ∈ operands required paths, ∀ lexeme ∈ part, test lexeme := by
  match paths with
  | [] => exact fun _ member => absurd member List.not_mem_nil
  | path :: rest =>
    rw [listPredicates, List.forall_mem_append] at iris
    rw [operands, List.forall_mem_cons]
    exact ⟨Lexeme.forall_grouped marks (path.forall_lexemes iris.1),
      forall_operands required rest iris.2⟩

end

end

theorem harmless_lexemes (path : Path) (harmless : path.Harmless) :
    Lexeme.Harmless lexicon path.lexemes :=
  path.forall_lexemes (fun _ known => known) harmless

end Path

/-! ### Triples -/

namespace Verb

/-- A verb with harmless lexemes. -/
def Harmless (lexicon : Lexer.Lexicon) : Verb → Prop
  | .var name => lexicon.names name.name
  | .path route => route.Harmless

@[simp] theorem harmless_predicate (iri : Iri) :
    (predicate iri).Harmless lexicon ↔ Lexer.IsReference iri.text :=
  Path.harmless_predicate iri

theorem harmless_lexemes {verb : Verb} (harmless : verb.Harmless lexicon) :
    Lexeme.Harmless lexicon verb.lexemes := by
  cases verb with
  | var name => exact (Term.harmless_var name).2 harmless
  | path route => exact route.harmless_lexemes harmless

end Verb

/-- A pattern with harmless parts. -/
structure TriplePattern.Harmless (lexicon : Lexer.Lexicon) (triple : TriplePattern) : Prop where
  subject : triple.subject.Harmless lexicon
  verb : triple.verb.Harmless lexicon
  object : triple.object.Harmless lexicon

/-- A triple of a template with harmless parts. -/
structure TemplateTriple.Harmless (lexicon : Lexer.Lexicon) (triple : TemplateTriple) : Prop where
  subject : triple.subject.Harmless lexicon
  predicate : triple.predicate.Harmless lexicon
  object : triple.object.Harmless lexicon

theorem TriplePattern.harmless_lexemes {triple : TriplePattern}
    (harmless : triple.Harmless lexicon) : Lexeme.Harmless lexicon triple.lexemes :=
  (harmless_tripleLexemes ..).2
    ⟨harmless.subject, Verb.harmless_lexemes harmless.verb, harmless.object⟩

theorem TemplateTriple.harmless_lexemes {triple : TemplateTriple}
    (harmless : triple.Harmless lexicon) : Lexeme.Harmless lexicon triple.lexemes :=
  (harmless_tripleLexemes ..).2 ⟨harmless.subject, harmless.predicate, harmless.object⟩

/-- The triple of a template has the same lexemes as the pattern that it stands for. -/
theorem TriplePattern.harmless_template? {triple : TriplePattern}
    (harmless : Lexeme.Harmless lexicon triple.lexemes) {shown : TemplateTriple}
    (found : triple.template? = some shown) : shown.Harmless lexicon := by
  obtain ⟨predicate, named, rfl⟩ := Option.map_eq_some_iff.1 found
  obtain ⟨subject, verb, object⟩ := (harmless_tripleLexemes ..).1 harmless
  refine ⟨subject, ?_, object⟩
  cases written : triple.verb with
  | var name =>
    rw [written] at named verb
    cases named
    exact verb
  | path route =>
    rw [written] at named verb
    obtain ⟨iri, single, rfl⟩ := Option.map_eq_some_iff.1 named
    cases route with
    | predicate name =>
      cases single
      exact verb
    | _ => cases single

theorem TriplePattern.Harmless.template {triple : TriplePattern}
    (harmless : triple.Harmless lexicon) {shown : TemplateTriple}
    (found : triple.template? = some shown) : shown.Harmless lexicon :=
  TriplePattern.harmless_template? (TriplePattern.harmless_lexemes harmless) found

/-! ### Expressions and groups -/

/-- An expression with harmless lexemes. -/
def Expression.Harmless (lexicon : Lexer.Lexicon) (expression : Expression) : Prop :=
  Lexeme.Harmless lexicon expression.lexemes

/-- An element with harmless lexemes. -/
def Element.Harmless (lexicon : Lexer.Lexicon) (element : Element) : Prop :=
  Lexeme.Harmless lexicon element.lexemes

/-- A group of harmless elements. -/
def Group.Harmless (lexicon : Lexer.Lexicon) (group : Group) : Prop :=
  ∀ element ∈ group, element.Harmless lexicon

theorem listLexemes_eq (expressions : List Expression) :
    listLexemes expressions = expressions.map Expression.lexemes := by
  induction expressions with
  | nil => rfl
  | cons expression rest inductionHypothesis =>
    rw [listLexemes, inductionHypothesis, List.map_cons]

theorem lineLexemes_eq (group : Group) : lineLexemes group = group.map Element.lexemes := by
  induction group with
  | nil => rfl
  | cons element rest inductionHypothesis =>
    rw [lineLexemes, inductionHypothesis, List.map_cons]

theorem branchLexemes_eq (branches : List Group) :
    branchLexemes branches = branches.map Group.lexemes := by
  induction branches with
  | nil => rfl
  | cons branch rest inductionHypothesis =>
    rw [branchLexemes, inductionHypothesis, List.map_cons, Group.lexemes]

theorem operandLexemes_eq (operands : List Expression) :
    operandLexemes operands =
      operands.map fun operand => grouped (!operand.isPrimary) operand.lexemes := by
  induction operands with
  | nil => rfl
  | cons operand rest inductionHypothesis =>
    rw [operandLexemes, inductionHypothesis, List.map_cons]

theorem Group.harmless_lexemes (group : Group) :
    Lexeme.Harmless lexicon group.lexemes ↔ Group.Harmless lexicon group := by
  rw [Group.lexemes, Lexeme.harmless_block, lineLexemes_eq, List.forall_mem_map]
  rfl

namespace Expression

@[simp] theorem harmless_var (name : Variable) :
    (var name).Harmless lexicon ↔ lexicon.names name.name :=
  Term.harmless_var name

@[simp] theorem harmless_iri (name : Iri) :
    (iri name).Harmless lexicon ↔ Lexer.IsReference name.text :=
  Term.harmless_iri name

theorem harmless_literal {value : Literal} (harmless : value.Harmless lexicon) :
    (literal value).Harmless lexicon :=
  value.harmless_lexemes harmless

theorem harmless_operandLexemes (operands : List Expression) :
    (∀ part ∈ operandLexemes operands, Lexeme.Harmless lexicon part) ↔
      ∀ operand ∈ operands, operand.Harmless lexicon := by
  simp [operandLexemes_eq, Harmless]

theorem harmless_listLexemes (expressions : List Expression) :
    Lexeme.Harmless lexicon (separated [.mark ",", .space] (listLexemes expressions)) ↔
      ∀ expression ∈ expressions, expression.Harmless lexicon := by
  rw [Lexeme.harmless_separated harmless_commas, listLexemes_eq, List.forall_mem_map]
  rfl

@[simp] theorem harmless_or (operands : List Expression) :
    (or operands).Harmless lexicon ↔ ∀ operand ∈ operands, operand.Harmless lexicon := by
  rw [Harmless, lexemes, Lexeme.harmless_separated (harmless_between (by decide)),
    harmless_operandLexemes]

@[simp] theorem harmless_and (operands : List Expression) :
    (and operands).Harmless lexicon ↔ ∀ operand ∈ operands, operand.Harmless lexicon := by
  rw [Harmless, lexemes, Lexeme.harmless_separated (harmless_between (by decide)),
    harmless_operandLexemes]

@[simp] theorem harmless_compare (left : Expression) (comparison : Comparison)
    (right : Expression) :
    (compare left comparison right).Harmless lexicon ↔
      left.Harmless lexicon ∧ right.Harmless lexicon := by
  have mark : comparison.lexeme.IsHarmless lexicon := harmless_comparison comparison
  simp [Harmless, lexemes, mark]

@[simp] theorem harmless_oneOf (value : Expression) (choices : List Expression) :
    (oneOf value choices).Harmless lexicon ↔
      value.Harmless lexicon ∧ ∀ choice ∈ choices, choice.Harmless lexicon := by
  simp [Harmless, lexemes, harmless_listLexemes, Lexeme.IsHarmless, Lexer.keywords]

@[simp] theorem harmless_noneOf (value : Expression) (choices : List Expression) :
    (noneOf value choices).Harmless lexicon ↔
      value.Harmless lexicon ∧ ∀ choice ∈ choices, choice.Harmless lexicon := by
  simp [Harmless, lexemes, harmless_listLexemes, Lexeme.IsHarmless, Lexer.keywords]

@[simp] theorem harmless_call (function : Function) (arguments : List Expression) :
    (call function arguments).Harmless lexicon ↔
      function.lexeme.IsHarmless lexicon ∧ ∀ argument ∈ arguments, argument.Harmless lexicon := by
  simp [Harmless, lexemes, callLexemes, harmless_listLexemes]

@[simp] theorem harmless_exists (pattern : Group) :
    («exists» pattern).Harmless lexicon ↔ Group.Harmless lexicon pattern := by
  rw [← Group.harmless_lexemes, Group.lexemes]
  simp [Harmless, lexemes, Lexeme.IsHarmless, Lexer.keywords]

@[simp] theorem harmless_notExists (pattern : Group) :
    (notExists pattern).Harmless lexicon ↔ Group.Harmless lexicon pattern := by
  rw [← Group.harmless_lexemes, Group.lexemes]
  simp [Harmless, lexemes, Lexeme.IsHarmless, Lexer.keywords]

@[simp] theorem harmless_count (distinct : Bool) (counted : Expression) :
    (count distinct (some counted)).Harmless lexicon ↔ counted.Harmless lexicon := by
  simp [Harmless, lexemes, callLexemes, harmless_distinct, Lexeme.IsHarmless, Lexer.keywords]

@[simp] theorem harmless_sum (distinct : Bool) (summed : Expression) :
    (sum distinct summed).Harmless lexicon ↔ summed.Harmless lexicon := by
  simp [Harmless, lexemes, callLexemes, harmless_distinct, Lexeme.IsHarmless, Lexer.keywords]

end Expression

namespace Group

@[simp] theorem harmless_nil : Harmless lexicon [] :=
  fun _ member => absurd member List.not_mem_nil

@[simp] theorem harmless_cons (element : Element) (rest : Group) :
    Harmless lexicon (element :: rest) ↔ element.Harmless lexicon ∧ Harmless lexicon rest :=
  List.forall_mem_cons

@[simp] theorem harmless_append (first second : Group) :
    Harmless lexicon (first ++ second) ↔ Harmless lexicon first ∧ Harmless lexicon second :=
  List.forall_mem_append

end Group

namespace Element

theorem harmless_triple {triple : TriplePattern} (harmless : triple.Harmless lexicon) :
    (Element.triple triple).Harmless lexicon :=
  triple.harmless_lexemes harmless

theorem harmless_ofTriples {triples : List TriplePattern}
    (harmless : ∀ triple ∈ triples, triple.Harmless lexicon) :
    Group.Harmless lexicon (Group.ofTriples triples) :=
  List.forall_mem_map.2 fun triple member => harmless_triple (harmless triple member)

theorem harmless_ofTriple {subject : Term} {verb : Verb} {object : Term}
    (subjectHarmless : subject.Harmless lexicon) (verbHarmless : verb.Harmless lexicon)
    (objectHarmless : object.Harmless lexicon) :
    (ofTriple subject verb object).Harmless lexicon :=
  harmless_triple ⟨subjectHarmless, verbHarmless, objectHarmless⟩

@[simp] theorem harmless_optional (pattern : Group) :
    (optional pattern).Harmless lexicon ↔ Group.Harmless lexicon pattern := by
  rw [← Group.harmless_lexemes, Group.lexemes]
  simp [Harmless, lexemes, Lexeme.IsHarmless, Lexer.keywords]

@[simp] theorem harmless_group (pattern : Group) :
    (group pattern).Harmless lexicon ↔ Group.Harmless lexicon pattern :=
  Group.harmless_lexemes pattern

@[simp] theorem harmless_union (branches : List Group) :
    (union branches).Harmless lexicon ↔
      ∀ branch ∈ branches, Group.Harmless lexicon branch := by
  rw [Harmless, lexemes, Lexeme.harmless_separated Sparql.harmless_union, branchLexemes_eq,
    List.forall_mem_map]
  simp only [Group.harmless_lexemes]

@[simp] theorem harmless_filter (condition : Expression) :
    (filter condition).Harmless lexicon ↔ condition.Harmless lexicon := by
  cases condition with
  | _ => simp [Harmless, Expression.Harmless, lexemes, Expression.lexemes, Lexeme.IsHarmless,
      Lexer.keywords]

@[simp] theorem harmless_column (target : Variable) (values : List Term) :
    (column target values).Harmless lexicon ↔
      lexicon.names target.name ∧ ∀ value ∈ values, value.Harmless lexicon := by
  have rows : Lexeme.Harmless lexicon ((values.map fun value => [some value]).flatMap
      fun row => row.flatMap cellLexemes ++ [.space]) ↔
        ∀ value ∈ values, value.Harmless lexicon := by
    induction values with
    | nil => simp
    | cons value rest inductionHypothesis =>
      simp [inductionHypothesis, cellLexemes, Term.Harmless]
  simp [column, Harmless, lexemes, Data.lexemes, Data.column, Lexeme.IsHarmless, Lexer.keywords,
    Lexer.marks, rows]

@[simp] theorem harmless_bind (value : Expression) (target : Variable) :
    (bind value target).Harmless lexicon ↔
      value.Harmless lexicon ∧ lexicon.names target.name := by
  simp [Harmless, Expression.Harmless, lexemes, Lexeme.IsHarmless, Lexer.keywords]

@[simp] theorem harmless_service (name : Iri) (silent : Bool) (pattern : Group) :
    (service name silent pattern).Harmless lexicon ↔
      Lexer.IsReference name.text ∧ Group.Harmless lexicon pattern := by
  rw [← Group.harmless_lexemes, Group.lexemes]
  cases silent with
  | _ => simp [Harmless, lexemes, Lexeme.IsHarmless, Lexer.keywords]

end Element

/-! ### Templates of groups -/

mutual

theorem Element.harmless_templateTriples (element : Element)
    (harmless : element.Harmless lexicon) :
    ∀ triple ∈ element.templateTriples, triple.Harmless lexicon := by
  match element with
  | .triple triple =>
    exact fun shown member => triple.harmless_template? harmless (Option.mem_toList.1 member)
  | .optional pattern =>
    exact harmless_groupTemplateTriples pattern ((Element.harmless_optional _).1 harmless)
  | .group pattern =>
    exact harmless_groupTemplateTriples pattern ((Element.harmless_group _).1 harmless)
  | .union branches =>
    exact harmless_branchesTemplateTriples branches ((Element.harmless_union _).1 harmless)
  | .filter _ | .values _ | .bind _ _ | .service _ _ _ | .select _ =>
    exact fun _ member => absurd member List.not_mem_nil

theorem harmless_groupTemplateTriples (group : List Element)
    (harmless : ∀ element ∈ group, element.Harmless lexicon) :
    ∀ triple ∈ groupTemplateTriples group, triple.Harmless lexicon := by
  match group with
  | [] => exact fun _ member => absurd member List.not_mem_nil
  | element :: rest =>
    rw [List.forall_mem_cons] at harmless
    exact List.forall_mem_append.2 ⟨element.harmless_templateTriples harmless.1,
      harmless_groupTemplateTriples rest harmless.2⟩

theorem harmless_branchesTemplateTriples (branches : List (List Element))
    (harmless : ∀ branch ∈ branches, ∀ element ∈ branch, element.Harmless lexicon) :
    ∀ triple ∈ branchesTemplateTriples branches, triple.Harmless lexicon := by
  match branches with
  | [] => exact fun _ member => absurd member List.not_mem_nil
  | branch :: rest =>
    rw [List.forall_mem_cons] at harmless
    exact List.forall_mem_append.2 ⟨harmless_groupTemplateTriples branch harmless.1,
      harmless_branchesTemplateTriples rest harmless.2⟩

end

/-- The template of a harmless group is harmless. -/
theorem Group.harmless_template {group : Group} (harmless : Group.Harmless lexicon group) :
    ∀ triple ∈ Group.template group, triple.Harmless lexicon :=
  fun triple member => harmless_groupTemplateTriples group harmless triple
    (List.mem_eraseDups.1 member)

/-! ### Selections and queries -/

/-- A column with harmless lexemes. -/
def Projection.Harmless (lexicon : Lexer.Lexicon) (column : Projection) : Prop :=
  Lexeme.Harmless lexicon column.lexemes

@[simp] theorem Projection.harmless_var (name : Variable) :
    (Projection.var name).Harmless lexicon ↔ lexicon.names name.name :=
  Term.harmless_var name

@[simp] theorem Projection.harmless_expression (value : Expression) (target : Variable) :
    (Projection.expression value target).Harmless lexicon ↔
      value.Harmless lexicon ∧ lexicon.names target.name := by
  simp [Harmless, Expression.Harmless, lexemes, Lexeme.IsHarmless, Lexer.keywords]

/-- The key of a criterion. -/
def OrderCondition.key : OrderCondition → Expression
  | .ascending key => key
  | .descending key => key

theorem OrderCondition.harmless_lexemes {criterion : OrderCondition}
    (harmless : criterion.key.Harmless lexicon) : Lexeme.Harmless lexicon criterion.lexemes := by
  cases criterion with
  | _ key =>
    have clean : Lexeme.Harmless lexicon key.lexemes := harmless
    simpa [lexemes, callLexemes, Lexeme.IsHarmless, Lexer.keywords] using clean

theorem columnLexemes_eq (columns : List Projection) :
    columnLexemes columns = columns.map Projection.lexemes := by
  induction columns with
  | nil => rfl
  | cons column rest inductionHypothesis =>
    rw [columnLexemes, inductionHypothesis, List.map_cons]

theorem criterionLexemes_eq (criteria : List OrderCondition) :
    criterionLexemes criteria = criteria.map OrderCondition.lexemes := by
  induction criteria with
  | nil => rfl
  | cons criterion rest inductionHypothesis =>
    rw [criterionLexemes, inductionHypothesis, List.map_cons]

/-- A modifier whose groups and criteria are harmless. -/
structure Modifier.Harmless (lexicon : Lexer.Lexicon) (modifier : Modifier) : Prop where
  groups : ∀ name ∈ modifier.groupBy, lexicon.names name.name
  criteria : ∀ criterion ∈ modifier.orderBy, criterion.key.Harmless lexicon

theorem isNumeral_numeral (count : Nat) : Lexer.IsNumeral (toString count) := by
  refine .inl (Literal.isIntegerForm_iff.2 ⟨[], by decide, Nat.toDigits 10 count, ?_,
    Nat.toDigits_ne_nil, ?_⟩)
  · rw [Nat.toString_eq_repr, Nat.toList_repr, List.nil_append]
  · exact fun _ member => Nat.isDigit_of_mem_toDigits (by decide) (by decide) member

theorem harmless_slice {word : String} (known : word ∈ Lexer.keywords) (count : Option Nat) :
    Lexeme.Harmless lexicon (sliceLexemes word count) := by
  cases count with
  | none => exact Lexeme.harmless_nil
  | some count =>
    have words : Lexeme.Harmless lexicon [.word word, .space] := by
      simp [Lexeme.IsHarmless, known]
    exact harmless_clause words (List.forall_mem_singleton.2 (isNumeral_numeral count))

theorem Modifier.harmless_lexemes {modifier : Modifier} (harmless : modifier.Harmless lexicon) :
    Lexeme.Harmless lexicon modifier.lexemes := by
  obtain ⟨groupBy, orderBy, limit, offset⟩ := modifier
  have groups : Lexeme.Harmless lexicon (variableLexemes groupBy) := by
    rw [variableLexemes, Lexeme.harmless_separated harmless_spaces, List.forall_mem_map]
    exact fun name member => (Term.harmless_var name).2 (harmless.groups name member)
  have criteria :
      Lexeme.Harmless lexicon (separated [.space] (criterionLexemes orderBy)) := by
    rw [Lexeme.harmless_separated harmless_spaces, criterionLexemes_eq, List.forall_mem_map]
    exact fun criterion member => criterion.harmless_lexemes (harmless.criteria criterion member)
  rw [lexemes]
  simp only [Lexeme.harmless_append]
  exact ⟨⟨⟨harmless_clause (by simp [Lexeme.IsHarmless, Lexer.keywords]) groups,
    harmless_clause (by simp [Lexeme.IsHarmless, Lexer.keywords]) criteria⟩,
    harmless_slice (by decide) limit⟩, harmless_slice (by decide) offset⟩

theorem Modifier.harmless_empty : Modifier.empty.Harmless lexicon :=
  ⟨fun _ member => absurd member List.not_mem_nil, fun _ member => absurd member List.not_mem_nil⟩

theorem Element.harmless_select {distinct : Bool} {columns : List Projection} {pattern : Group}
    {modifier : Modifier} (columnsHarmless : ∀ column ∈ columns, column.Harmless lexicon)
    (patternHarmless : Group.Harmless lexicon pattern) (harmless : modifier.Harmless lexicon) :
    (Element.select ⟨distinct, some columns, pattern, modifier⟩).Harmless lexicon := by
  rw [← Group.harmless_lexemes, Group.lexemes] at patternHarmless
  have selected :
      Lexeme.Harmless lexicon (separated [.space] (columnLexemes columns)) := by
    rw [Lexeme.harmless_separated harmless_spaces, columnLexemes_eq, List.forall_mem_map]
    exact columnsHarmless
  simp [Harmless, lexemes, Select.lexemes, harmless_distinct, selected, patternHarmless,
    modifier.harmless_lexemes harmless, Lexeme.IsHarmless, Lexer.keywords]

/-- A query with harmless lexemes. -/
def Query.Harmless (lexicon : Lexer.Lexicon) (query : Query) : Prop :=
  Lexeme.Harmless lexicon query.lexemes

theorem Query.harmless_ofTemplate {template : List TemplateTriple} {pattern : Group}
    (templateHarmless : ∀ triple ∈ template, triple.Harmless lexicon)
    (harmless : Group.Harmless lexicon pattern) :
    (ofTemplate template pattern .empty).Harmless lexicon := by
  have triples : ∀ triple ∈ template, Lexeme.Harmless lexicon triple.lexemes :=
    fun triple member => triple.harmless_lexemes (templateHarmless triple member)
  have clean : Lexeme.Harmless lexicon pattern.lexemes :=
    (Group.harmless_lexemes pattern).2 harmless
  have modifier : Lexeme.Harmless lexicon Modifier.empty.lexemes :=
    Modifier.harmless_lexemes Modifier.harmless_empty
  simpa [Harmless, lexemes, ofTemplate, clean, modifier, Lexeme.IsHarmless, Lexer.keywords]
    using triples

end ShapeQuery.Sparql
