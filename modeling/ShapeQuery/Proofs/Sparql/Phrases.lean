/-
This file proves that terms, paths and expressions are read back from what they are written as, up
to their normal forms. Each rule of the grammar takes what binds strongly enough for it, and passes
everything else on to the rule below; what stands in parentheses is left to the rules for what may
contain itself, which have to know it only up to a size.
-/
import ShapeQuery.Proofs.Sparql.Normal
import ShapeQuery.Proofs.Sparql.Showing
import ShapeQuery.Proofs.Sparql.Tokens

namespace ShapeQuery.Sparql

open Lexeme (visible)
open Reader

variable {more : List Token}

/-! ### Visible lexemes -/

namespace Lexeme

@[simp] theorem visible_nil : visible [] = [] :=
  rfl

@[simp] theorem visible_space (rest : List Lexeme) : visible (.space :: rest) = visible rest :=
  rfl

@[simp] theorem visible_newLine (rest : List Lexeme) : visible (.newLine :: rest) = visible rest :=
  rfl

@[simp] theorem visible_mark (text : String) (rest : List Lexeme) :
    visible (.mark text :: rest) = .mark text :: visible rest :=
  rfl

@[simp] theorem visible_word (text : String) (rest : List Lexeme) :
    visible (.word text :: rest) = .word text :: visible rest :=
  rfl

@[simp] theorem visible_var (name : Variable) (rest : List Lexeme) :
    visible (.var name :: rest) = .var name :: visible rest :=
  rfl

@[simp] theorem visible_iri (name : Iri) (rest : List Lexeme) :
    visible (.iri name :: rest) = .iri name :: visible rest :=
  rfl

@[simp] theorem visible_parenthesised (lexemes : List Lexeme) :
    visible (parenthesised lexemes) = .mark "(" :: (visible lexemes ++ [.mark ")"]) := by
  simp [parenthesised]

theorem visible_flatMap {Item : Type} (lexemes : Item → List Lexeme) (items : List Item) :
    visible (items.flatMap lexemes) = items.flatMap fun item => visible (lexemes item) := by
  induction items with
  | nil => rfl
  | cons item rest inductionHypothesis =>
    rw [List.flatMap_cons, List.flatMap_cons, visible_append, inductionHypothesis]

/-- White space between parts does not show. -/
theorem visible_separated_space (parts : List (List Lexeme)) :
    visible (separated [.space] parts) = parts.flatMap visible := by
  cases parts with
  | nil => rfl
  | cons part rest => exact visible_separated [.space] part rest

@[simp] theorem visible_block (lines : List (List Lexeme)) :
    visible (block lines) = .mark "\x7b" :: (lines.flatMap visible ++ [.mark "\x7d"]) := by
  simp [block, visible_flatMap]

end Lexeme

/-! ### Terms -/

/-- Whether a token can follow a term: it is no part of a literal. -/
abbrev EndsTerm (token : Token) : Prop :=
  token.language? = none ∧ token ≠ .mark "^^"

/-- Whether a literal can begin with a token. -/
def Token.opensLiteral : Token → Bool
  | .string _ => true
  | .number _ => true
  | .word text => text = "true" || text = "false"
  | _ => false

theorem opensLiteral_word {text : String} (opens : (Token.word text).opensLiteral = true) :
    text = "true" ∨ text = "false" := by
  rwa [Token.opensLiteral, Bool.or_eq_true, decide_eq_true_eq, decide_eq_true_eq] at opens

/-- The mark of an exponent. -/
def isExponentMark (character : Char) : Bool :=
  character = 'e' || character = 'E'

theorem numeral_eq {value : String}
    (plain : ∀ character ∈ value.toList, isExponentMark character = false) :
    numeral value = .typed value
      (if value.toList.contains '.' then Vocabulary.xsdDecimal else Vocabulary.xsdInteger) := by
  have noExponent :
      (value.toList.any fun character => character = 'e' || character = 'E') = false :=
    List.any_eq_false.2 fun character member =>
      (Bool.eq_false_iff.1 (plain character member) : ¬ isExponentMark character = true)
  rw [numeral, noExponent, if_neg (by decide)]
  split <;> rfl

/-- The characters of a number without an exponent. -/
def IsPlainNumber (character : Char) : Prop :=
  character ∈ ['+', '-', '.'] ∨ character.isDigit = true

theorem isPlainNumber_sign : ∀ sign ∈ Literal.signs, ∀ character ∈ sign,
    IsPlainNumber character ∧ character ≠ '.' := by
  simp only [Literal.signs, IsPlainNumber]
  decide

theorem IsPlainNumber.not_exponentMark {character : Char} (plain : IsPlainNumber character) :
    isExponentMark character = false := by
  by_contra mark
  rw [Bool.not_eq_false, isExponentMark, Bool.or_eq_true, decide_eq_true_eq,
    decide_eq_true_eq] at mark
  rcases mark with rfl | rfl <;> exact absurd plain (by simp [IsPlainNumber])

theorem numeral_of_isInteger {value : String} (integer : Literal.IsInteger value) :
    numeral value = .typed value Vocabulary.xsdInteger := by
  obtain ⟨sign, known, digits, written, -, inside⟩ := integer
  have plain : ∀ character ∈ value.toList, IsPlainNumber character ∧ character ≠ '.' := by
    rw [written, List.forall_mem_append]
    refine ⟨isPlainNumber_sign sign known, fun character member => ⟨.inr (inside _ member), ?_⟩⟩
    rintro rfl
    exact absurd (inside _ member) (by decide)
  have noPoint : value.toList.contains '.' = false :=
    Bool.eq_false_iff.2 fun point => (plain '.' (List.contains_iff_mem.1 point)).2 rfl
  rw [numeral_eq fun character member => (plain character member).1.not_exponentMark, noPoint]
  rfl

theorem numeral_of_isDecimal {value : String} (decimal : Literal.IsDecimal value) :
    numeral value = .typed value Vocabulary.xsdDecimal := by
  obtain ⟨sign, known, whole, fraction, written, digits, -, inside⟩ := decimal
  have plain : ∀ character ∈ value.toList, IsPlainNumber character := by
    rw [written, List.forall_mem_append, List.forall_mem_append, List.forall_mem_cons]
    exact ⟨fun character member => (isPlainNumber_sign sign known character member).1,
      fun character member => .inr (digits character member), .inl (by decide),
      fun character member => .inr (inside character member)⟩
  have point : value.toList.contains '.' = true := by
    rw [written]
    simp
  rw [numeral_eq fun character member => (plain character member).not_exponentMark, point]
  rfl

/-- What is read of a literal after its first token. -/
theorem takes_literal (value : Literal) : ∃ first rest, visible value.lexemes = first :: rest ∧
    first.opensLiteral = true ∧
      ∀ more, Ahead EndsTerm more → Takes (literalFrom first) rest value more := by
  have string {text : String} {rest : List Token} {value : Literal}
      (takes : ∀ more, Ahead EndsTerm more → Takes (stringLiteral text) rest value more) :
      ∃ first after, .string text :: rest = first :: after ∧ first.opensLiteral = true ∧
        ∀ more, Ahead EndsTerm more → Takes (literalFrom first) after value more :=
    ⟨_, _, rfl, rfl, takes⟩
  have single {first : Token} {value : Literal} (opens : first.opensLiteral = true)
      (made : literalFrom first = pure value) :
      ∃ first' after, [first] = first' :: after ∧ first'.opensLiteral = true ∧
        ∀ more, Ahead EndsTerm more → Takes (literalFrom first') after value more :=
    ⟨first, [], rfl, opens, fun more _ => made ▸ takes_pure value⟩
  rcases value.lexemes_cases with ⟨lexeme, bare, written⟩ | ⟨-, written⟩
  · rw [written]
    cases bare with
    | integer spelled => exact single rfl (congrArg pure (numeral_of_isInteger spelled))
    | decimal spelled => exact single rfl (congrArg pure (numeral_of_isDecimal spelled))
    | truth spelled => rcases spelled with rfl | rfl <;> exact single rfl rfl
  · rw [written]
    cases value with
    | plain text =>
      refine string fun more ahead => ?_
      refine Takes.refused (ahead.mono fun _ => And.left) (fun _ => rfl) ?_
      refine Takes.refused (ahead.mono fun token ends => ?_) (fun _ => rfl) (takes_pure _)
      cases token with
      | mark text => exact if_neg fun same : text = "^^" => ends.2 (same ▸ rfl)
      | _ => rfl
    | tagged text tag => exact string fun more _ => Takes.accepted rfl rfl (takes_pure _)
    | typed text datatype =>
      exact string fun more _ => Takes.refused (ahead_cons rfl) (fun _ => rfl)
        (Takes.accepted rfl rfl (Takes.demanded rfl rfl (takes_pure _)))

/-- Whether a term can begin with a token. -/
def Token.opensTerm : Token → Bool
  | .var _ => true
  | .iri _ => true
  | .blank _ => true
  | token => token.opensLiteral

theorem termFrom_of_opensLiteral {token : Token} (opens : token.opensLiteral = true) :
    termFrom token = (do return .literal (← literalFrom token)) := by
  cases token with
  | string | number | word => rfl
  | _ => cases opens

theorem opensTerm_of_opensLiteral {token : Token} (opens : token.opensLiteral = true) :
    token.opensTerm = true := by
  cases token with
  | string | number | word => exact opens
  | _ => cases opens

theorem fits_of_opensTerm {token : Token} (opens : token.opensTerm = true) :
    token.fits .operand = true := by
  cases token with
  | mark => cases opens
  | _ => rfl

/-- What is read of a term after its first token. -/
theorem takes_termFrom (term : Term) : ∃ first rest, visible term.lexemes = first :: rest ∧
    first.opensTerm = true ∧
      ∀ more, Ahead EndsTerm more → Takes (termFrom first) rest term more := by
  cases term with
  | var name => exact ⟨_, [], rfl, rfl, fun more _ => takes_pure _⟩
  | iri name => exact ⟨_, [], rfl, rfl, fun more _ => takes_pure _⟩
  | blank label => exact ⟨_, [], rfl, rfl, fun more _ => takes_pure _⟩
  | literal value =>
    obtain ⟨first, rest, written, opens, takes⟩ := takes_literal value
    refine ⟨first, rest, written, opensTerm_of_opensLiteral opens, fun more ahead => ?_⟩
    rw [termFrom_of_opensLiteral opens]
    exact (takes more ahead).returns rfl

theorem takes_token {Value : Type} {next : Token → Reader Value} {token : Token}
    {tokens : List Token} {value : Value} (fits : token.fits .operand = true)
    (takes : Takes (next token) tokens value more) :
    Takes (Reader.token >>= next) (token :: tokens) value more :=
  Takes.demanded fits rfl takes

theorem takes_term (term : Term) (ahead : Ahead EndsTerm more) :
    Takes Sparql.term (visible term.lexemes) term more := by
  obtain ⟨first, rest, written, opens, takes⟩ := takes_termFrom term
  rw [written]
  exact takes_token (fits_of_opensTerm opens) (takes more ahead)

/-! ### What may contain itself -/

/-- The marks that stand behind a repeated path. -/
abbrev repetitionMarks : List Token :=
  ["*", "+", "?"].map .mark

/-- The marks that go on with a part of a sequence. -/
abbrev sequenceMarks : List Token :=
  ["*", "+", "?", "/"].map .mark

/-- The marks that go on with a path. -/
abbrev pathMarks : List Token :=
  ["*", "+", "?", "/", "|"].map .mark

/-- The tokens that an expression may end before. -/
abbrev expressionEnds : List Token :=
  [.mark ")", .mark ",", .word "AS"]

/-- The tokens of a group after its opening brace. -/
def Group.shown (group : Group) : List Token :=
  (lineLexemes group).flatMap visible ++ [.mark "\x7d"]

theorem Group.visible_lexemes (group : Group) :
    visible group.lexemes = .mark "\x7b" :: group.shown :=
  Lexeme.visible_block _

/-- Whether the rules for what may contain itself read it up to a size. -/
structure Grammar.Reads (grammar : Grammar) (size : Nat) : Prop where
  path : ∀ path : Path, path.Complete → (visible path.lexemes).length ≤ size →
    ∀ more, Ahead (· ∉ pathMarks) more →
      Takes grammar.path (visible path.lexemes) path.normal more
  expression : ∀ expression : Expression, expression.Complete →
    Inspection.grammatical.passes expression = true → (visible expression.lexemes).length ≤ size →
    ∀ more, Ahead (· ∈ expressionEnds) more →
      Takes grammar.expression (visible expression.lexemes) expression.normal more
  group : ∀ group : Group, group.Complete → Inspection.grammatical.passesGroup group = true →
    group.shown.length ≤ size → ∀ more,
      Takes grammar.body group.shown (.group (normalGroup group)) more
  select : ∀ query : Select, query.defects = [] →
    Inspection.grammatical.passesSelect query = true → (visible query.lexemes).length + 1 ≤ size →
    ∀ more, Takes grammar.body (visible query.lexemes ++ [.mark "\x7d"]) (.select query.normal) more

theorem length_le_separated {Item : Type} {separator : List Lexeme} {lexemes : Item → List Lexeme}
    {items : List Item} {item : Item} (member : item ∈ items) : (visible (lexemes item)).length ≤
      (visible (Lexeme.separated separator (items.map lexemes))).length := by
  cases items with
  | nil => cases member
  | cons first rest =>
    rw [List.map_cons, visible_separated, List.length_append]
    rcases List.mem_cons.1 member with rfl | later
    · exact Nat.le_add_right _ _
    · refine Nat.le_trans ?_ (Nat.le_add_left _ _)
      have inside := (List.sublist_flatten_of_mem (List.mem_map_of_mem
        (f := fun item => visible separator ++ visible (lexemes item)) later)).length_le
      rw [List.length_append] at inside
      rw [List.flatMap_map, List.flatMap_def]
      omega

/-! ### Paths -/

namespace Path

/-- The tokens of a path where it has to bind with a certain strength. -/
def shown (path : Path) (required : Nat) : List Token :=
  visible (Lexeme.grouped (path.strength < required) path.lexemes)

variable {path : Path} {required : Nat}

theorem shown_weak (weak : path.strength < required) :
    path.shown required = .mark "(" :: (visible path.lexemes ++ [.mark ")"]) := by
  rw [shown, decide_eq_true weak]
  exact Lexeme.visible_parenthesised _

theorem shown_strong (strong : ¬ path.strength < required) :
    path.shown required = visible path.lexemes := by
  rw [shown, decide_eq_false strong]
  rfl

theorem shown_repetition (path : Path) (sign : String) :
    visible (Lexeme.grouped (path.strength < 4) path.lexemes ++ [.mark sign]) =
      path.shown 4 ++ [.mark sign] :=
  Lexeme.visible_append _ _

theorem operands_eq (required : Nat) (paths : List Path) :
    operands required paths =
      paths.map fun path => Lexeme.grouped (path.strength < required) path.lexemes := by
  induction paths with
  | nil => rfl
  | cons path rest inductionHypothesis => rw [operands, inductionHypothesis, List.map_cons]

theorem length_le_operands {separator : List Lexeme} {paths : List Path} (member : path ∈ paths) :
    (path.shown required).length ≤
      (visible (Lexeme.separated separator (operands required paths))).length := by
  rw [operands_eq]
  exact @length_le_separated _ _
    (fun path => Lexeme.grouped (path.strength < required) path.lexemes) _ _ member

theorem starts_shown_of_starts {test : Token → Prop} (parenthesis : test (.mark "("))
    (starts : ¬ path.strength < required → Starts test (visible path.lexemes)) :
    Starts test (path.shown required) := by
  by_cases weak : path.strength < required
  · rw [shown_weak weak]
    exact starts_cons parenthesis
  · rw [shown_strong weak]
    exact starts weak

/-- A path that binds as strongly as a repetition does not begin like an inverse one. -/
theorem starts_strong (path : Path) : Starts (· ≠ .mark "^") (path.shown 3) := by
  have repeated (inner : Path) (sign : String) : Starts (· ≠ .mark "^")
      (visible (Lexeme.grouped (inner.strength < 4) inner.lexemes ++ [.mark sign])) := by
    rw [shown_repetition]
    refine (starts_shown_of_starts (by decide) fun strong => ?_).append _
    cases inner with
    | predicate name => exact starts_cons nofun
    | _ => exact absurd (by simp [strength]) strong
  refine starts_shown_of_starts (by decide) fun strong => ?_
  cases path with
  | predicate name => exact starts_cons nofun
  | zeroOrMore inner => exact repeated inner "*"
  | oneOrMore inner => exact repeated inner "+"
  | zeroOrOne inner => exact repeated inner "?"
  | _ => exact absurd (by simp [strength]) strong

/-- No path begins like a variable, or like a part of a literal. -/
theorem starts_lexemes (path : Path) (complete : path.Complete) :
    Starts (fun token => token.name? = none ∧ EndsTerm token) (visible path.lexemes) := by
  have operand (inner : Path) (required : Nat)
      (starts : Starts (fun token => token.name? = none ∧ EndsTerm token) (visible inner.lexemes)) :
      Starts (fun token => token.name? = none ∧ EndsTerm token) (inner.shown required) :=
    starts_shown_of_starts (by decide) fun _ => starts
  match path with
  | .predicate name => exact starts_cons ⟨rfl, rfl, nofun⟩
  | .inverse inner => exact starts_cons (by decide)
  | .sequence (first :: rest) =>
    have members := ((complete_sequence _).1 complete).2
    rw [lexemes, operands, visible_separated]
    exact (operand first 2 (first.starts_lexemes (members first List.mem_cons_self))).append _
  | .alternative (first :: rest) =>
    have members := ((complete_alternative _).1 complete).2
    rw [lexemes, operands, visible_separated]
    exact (operand first 1 (first.starts_lexemes (members first List.mem_cons_self))).append _
  | .zeroOrMore inner | .oneOrMore inner | .zeroOrOne inner =>
    rw [lexemes, shown_repetition]
    exact (operand inner 4 (inner.starts_lexemes complete)).append _

end Path

namespace Grammar.Reads

variable {grammar : Grammar} {size : Nat} (reads : grammar.Reads size)

include reads

theorem takes_primaryPath {path : Path} (complete : path.Complete)
    (bounded : (path.shown 4).length ≤ size + 1) :
    Takes grammar.primaryPath (path.shown 4) path.normal more := by
  by_cases weak : path.strength < 4
  · rw [Path.shown_weak weak] at bounded ⊢
    rw [List.length_cons, List.length_append] at bounded
    have inner := reads.path path complete (by omega) (.mark ")" :: more)
      (ahead_cons (by decide))
    exact takes_token rfl (inner.bind ((takes_mark rfl).returns rfl))
  · cases path with
    | predicate name => exact takes_token rfl (takes_pure _)
    | _ => exact absurd (by simp [Path.strength]) weak

omit reads in
theorem refuses_repetition (ahead : Ahead (· ∉ repetitionMarks) more) :
    Ahead (fun token => repetition? token = none) more := by
  refine ahead.mono fun token apart => ?_
  unfold repetition?
  split
  · exact absurd (by simp) apart
  · exact absurd (by simp) apart
  · exact absurd (by simp) apart
  · rfl

theorem takes_repeatedPath {path : Path} (complete : path.Complete)
    (bounded : (path.shown 3).length ≤ size + 1)
    (ahead : Ahead (· ∉ repetitionMarks) more) :
    Takes grammar.repeatedPath (path.shown 3) path.normal more := by
  have single (same : path.shown 3 = path.shown 4) :
      Takes grammar.repeatedPath (path.shown 3) path.normal more := by
    rw [same] at bounded ⊢
    rw [← List.append_nil (path.shown 4)]
    exact Takes.bind (reads.takes_primaryPath complete bounded)
      (Takes.refused (refuses_repetition ahead) (fun _ => rfl) (takes_pure _))
  have repeated {inner : Path} {sign : String} {make : Path → Path} (complete : inner.Complete)
      (fits : (Token.mark sign).fits .operand = true)
      (known : repetition? (.mark sign) = some make)
      (bounded : (visible (Lexeme.grouped (inner.strength < 4) inner.lexemes ++
        [.mark sign])).length ≤ size + 1) :
      Takes grammar.repeatedPath (visible (Lexeme.grouped (inner.strength < 4) inner.lexemes ++
        [.mark sign])) (make inner.normal) more := by
    rw [Path.shown_repetition] at bounded ⊢
    rw [List.length_append] at bounded
    exact Takes.bind (reads.takes_primaryPath complete (by omega))
      ((takes_accept fits known).returns rfl)
  cases path with
  | zeroOrMore inner => exact repeated complete rfl rfl bounded
  | oneOrMore inner => exact repeated complete rfl rfl bounded
  | zeroOrOne inner => exact repeated complete rfl rfl bounded
  | _ => exact single rfl

theorem takes_directedPath {path : Path} (complete : path.Complete)
    (bounded : (path.shown 2).length ≤ size + 1)
    (ahead : Ahead (· ∉ repetitionMarks) more) :
    Takes grammar.directedPath (path.shown 2) path.normal more := by
  have single (same : path.shown 2 = path.shown 3) :
      Takes grammar.directedPath (path.shown 2) path.normal more := by
    rw [same] at bounded ⊢
    have other := path.starts_strong.mono fun _ apart => mark?_eq_none apart
    exact Takes.refused (other.ahead more) (fun _ => rfl)
      (reads.takes_repeatedPath complete bounded ahead)
  cases path with
  | inverse inner =>
    have written : (Path.inverse inner).shown 2 = .mark "^" :: inner.shown 3 := rfl
    rw [written] at bounded ⊢
    rw [List.length_cons] at bounded
    have inside : Takes grammar.repeatedPath (inner.shown 3) inner.normal more :=
      reads.takes_repeatedPath complete (by omega) ahead
    exact Takes.accepted rfl rfl (inside.returns rfl)
  | _ => exact single rfl

/-- Directed paths with slashes between them. -/
theorem takes_directedPaths {paths : List Path} (nonempty : paths ≠ [])
    (complete : ∀ path ∈ paths, path.Complete)
    (bounded : (visible (Lexeme.separated [.mark "/"] (Path.operands 2 paths))).length ≤ size + 1)
    (ahead : Ahead (· ∉ sequenceMarks) more) :
    Takes grammar.sequencePath (visible (Lexeme.separated [.mark "/"] (Path.operands 2 paths)))
      (collapse .sequence (paths.map Path.normal)) more := by
  have fits (path : Path) (member : path ∈ paths) :=
    Nat.le_trans (Path.length_le_operands member) bounded
  rw [Path.operands_eq]
  refine Takes.map _ (takes_separated (· ∉ repetitionMarks) _ Path.normal rfl rfl (by decide) ?_
    nonempty ?_ ?_ nofun)
  · exact fun path member more ahead => reads.takes_directedPath (complete path member)
      (fits path member) ahead
  · exact ahead.fewer (by decide)
  · exact ahead.apart (by decide)

theorem takes_sequencePath {path : Path} (complete : path.Complete)
    (bounded : (path.shown 1).length ≤ size + 1)
    (ahead : Ahead (· ∉ sequenceMarks) more) :
    Takes grammar.sequencePath (path.shown 1) path.normal more := by
  have single (same : path.shown 1 = path.shown 2) :
      Takes grammar.sequencePath (path.shown 1) path.normal more := by
    rw [same] at bounded ⊢
    exact reads.takes_directedPaths (List.cons_ne_nil path [])
      (List.forall_mem_singleton.2 complete) bounded ahead
  cases path with
  | sequence paths =>
    obtain ⟨nonempty, members⟩ := (Path.complete_sequence paths).1 complete
    rw [Path.normal, Path.normals_eq]
    exact reads.takes_directedPaths nonempty members bounded ahead
  | _ => exact single rfl

/-- Sequences of paths with bars between them. -/
theorem takes_sequencePaths {paths : List Path} (nonempty : paths ≠ [])
    (complete : ∀ path ∈ paths, path.Complete)
    (bounded : (visible (Lexeme.separated [.mark "|"] (Path.operands 1 paths))).length ≤ size + 1)
    (ahead : Ahead (· ∉ pathMarks) more) :
    Takes grammar.alternativePath (visible (Lexeme.separated [.mark "|"] (Path.operands 1 paths)))
      (collapse .alternative (paths.map Path.normal)) more := by
  have fits (path : Path) (member : path ∈ paths) :=
    Nat.le_trans (Path.length_le_operands member) bounded
  rw [Path.operands_eq]
  refine Takes.map _ (takes_separated (· ∉ sequenceMarks) _ Path.normal rfl rfl (by decide) ?_
    nonempty ?_ ?_ nofun)
  · exact fun path member more ahead => reads.takes_sequencePath (complete path member)
      (fits path member) ahead
  · exact ahead.fewer (by decide)
  · exact ahead.apart (by decide)

/-- Every path is read up to its normal form. -/
theorem takes_path {path : Path} (complete : path.Complete)
    (bounded : (visible path.lexemes).length ≤ size + 1) (ahead : Ahead (· ∉ pathMarks) more) :
    Takes grammar.alternativePath (visible path.lexemes) path.normal more := by
  have single (same : visible path.lexemes = path.shown 1) :
      Takes grammar.alternativePath (visible path.lexemes) path.normal more := by
    rw [same] at bounded ⊢
    exact reads.takes_sequencePaths (List.cons_ne_nil path [])
      (List.forall_mem_singleton.2 complete) bounded ahead
  cases path with
  | alternative paths =>
    obtain ⟨nonempty, members⟩ := (Path.complete_alternative paths).1 complete
    rw [Path.normal, Path.normals_eq]
    exact reads.takes_sequencePaths nonempty members bounded ahead
  | _ => exact single rfl

end Grammar.Reads

end ShapeQuery.Sparql
