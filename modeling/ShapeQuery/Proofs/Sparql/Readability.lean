/-
This file proves that the text of a query can be read in one way only: by the grammar it is the
normal form of the query. Queries with the same text have the same normal form; the converse holds
unless a list of operands has a single member, since the parentheses around an operand that binds
weakly show in the text and not in the normal form.
-/
import ShapeQuery.Proofs.Sparql.Passages
import ShapeQuery.Proofs.Success

namespace ShapeQuery.Sparql

open Lexeme (visible)
open Reader

variable {more : List Token}

/-! ### Queries -/

theorem takes_templateTriple {triple : TemplateTriple} (complete : triple.Complete) :
    Takes templateTriple (visible triple.lexemes) triple more := by
  obtain ⟨subject, predicate, object⟩ := triple
  have ends (token : Token) (opens : token.opensTerm = true) : EndsTerm token := by
    cases token with
    | mark | language => cases opens
    | _ => exact ⟨rfl, nofun⟩
  have ahead (term : Term) (others : List Token) :
      Ahead EndsTerm (visible term.lexemes ++ others) :=
    (term.starts_lexemes.mono ends).ahead others
  rw [TemplateTriple.lexemes, visible_tripleLexemes]
  refine Takes.bind (takes_term subject ?_) (Takes.bind (takes_term predicate ?_)
    (Takes.bind (takes_term object (ahead_cons (by decide))) ((takes_mark rfl).returns ?_)))
  · rw [List.append_assoc]
    exact ahead predicate _
  · rw [List.append_assoc]
    exact ahead object _
  · cases predicate with
    | var | iri => rfl
    | _ => cases complete

theorem Query.complete_of_defects {query : Query} (written : query.defects = []) :
    query.Complete := by
  rw [Query.defects, List.append_eq_nil_iff, List.append_eq_nil_iff] at written
  exact ⟨List.flatMap_eq_nil_iff.1 written.1.1, groupDefects_eq_nil.1 written.1.2,
    Modifier.defects_eq_nil.1 written.2⟩

theorem Query.visible_lexemes (query : Query) :
    visible query.lexemes = .word "CONSTRUCT" :: .mark "\x7b" ::
      (query.template.flatMap (fun triple => visible triple.lexemes) ++ [.mark "\x7d"] ++
        .word "WHERE" :: (visible query.pattern.lexemes ++ visible query.modifier.lexemes)) := by
  simp [Query.lexemes, List.flatMap_map]

/-- A query is read up to its normal form if the grammar is deep enough for it. -/
theorem takes_query {query : Query} {depth : Nat} (complete : query.Complete)
    (passes : Inspection.grammatical.passesQuery query = true)
    (bounded : (visible query.lexemes).length ≤ depth) :
    Takes (Sparql.query depth) (visible query.lexemes) query.normal [] := by
  have reads := grammar_reads depth
  rw [Inspection.passesQuery, Bool.and_eq_true] at passes
  rw [query.visible_lexemes] at bounded ⊢
  simp only [List.length_cons, List.length_append] at bounded
  have template (more : List Token) : Takes (upTo "\x7d" templateTriple)
      (query.template.flatMap (fun triple => visible triple.lexemes) ++ [.mark "\x7d"])
      (query.template.map id) more :=
    takes_upTo (fun _ => True) _ id rfl
      (fun triple member _ _ => takes_templateTriple (complete.template triple member))
      (fun triple _ => by
        rw [TemplateTriple.lexemes, visible_tripleLexemes]
        exact (triple.subject.starts_lexemes.mono fun token opens =>
          ⟨trivial, (endsElement_of_opensTerm token opens).2⟩).append _) trivial
  rw [List.map_id] at template
  exact Takes.demanded rfl rfl (Takes.bind (takes_mark rfl) (Takes.bind (template _)
    (Takes.demanded rfl rfl (Takes.bind
      (reads.takes_group complete.pattern passes.1 (by omega))
      ((reads.takes_modifier complete.modifier passes.2 (by omega) ahead_nil).returns rfl)))))

/-- A query whose text can be read: what it names is named as in SPARQL, and its tables and its
functions are grammatical. -/
structure Query.Readable (query : Query) : Prop where
  named : ∀ lexeme ∈ query.lexemes, lexeme.IsNamed
  grammatical : Inspection.grammatical.passesQuery query = true

/-- What is told by the first character and the others can be decided. -/
instance decidableUncons {characters : List Char} {test : Char → List Char → Prop}
    [∀ first rest, Decidable (test first rest)] :
    Decidable (∃ first rest, characters = first :: rest ∧ test first rest) :=
  match characters with
  | [] => isFalse (by rintro ⟨_, _, ⟨⟩, _⟩)
  | first :: rest => decidable_of_iff (test first rest)
    ⟨fun passes => ⟨first, rest, rfl, passes⟩, by rintro ⟨_, _, ⟨⟩, passes⟩; exact passes⟩

instance (lexeme : Lexeme) : Decidable lexeme.IsNamed :=
  match lexeme with
  | .var _ => decidableUncons
  | .iri _ => inferInstanceAs (Decidable (¬ _))
  | .blank _ => decidableUncons
  | .language _ => decidableUncons
  | .string _ | .number _ | .word _ | .mark _ | .space | .newLine => .isTrue trivial

instance (query : Query) : Decidable query.Readable :=
  decidable_of_iff (_ ∧ _) ⟨fun both => ⟨both.1, both.2⟩, fun readable => ⟨readable.1, readable.2⟩⟩

/-- By the grammar, the text of a query is its normal form. -/
theorem Query.parse?_text {query : Query} (readable : query.Readable) {text : String}
    (made : query.render = .ok text) : Query.parse? text = some query.normal := by
  obtain ⟨written, rfl⟩ := written_of_rendered made
  have shows := shows_written (Query.divided written) readable.named
  exact (takes_query (Query.complete_of_defects written) readable.grammatical
    (Nat.le_succ_of_le shows.length_le)).whole? shows

/-! ### Plural trees -/

mutual

/-- A path whose lists have several members is in normal form. -/
theorem Path.normal_eq_self (path : Path) (passes : Inspection.plural.passesPath path = true) :
    path.normal = path := by
  match path with
  | .predicate name => rfl
  | .inverse inner =>
    rw [normal, inner.normal_eq_self passes]
  | .sequence paths =>
    rw [Inspection.passesPath, Bool.and_eq_true] at passes
    rw [normal, Path.normals_eq_self paths passes.2]
    match paths with
    | [] => rfl
    | [_] => cases passes.1
    | _ :: _ :: _ => rfl
  | .alternative paths =>
    rw [Inspection.passesPath, Bool.and_eq_true] at passes
    rw [normal, Path.normals_eq_self paths passes.2]
    match paths with
    | [] => rfl
    | [_] => cases passes.1
    | _ :: _ :: _ => rfl
  | .zeroOrMore inner => rw [normal, inner.normal_eq_self passes]
  | .oneOrMore inner => rw [normal, inner.normal_eq_self passes]
  | .zeroOrOne inner => rw [normal, inner.normal_eq_self passes]

theorem Path.normals_eq_self (paths : List Path)
    (passes : Inspection.plural.passesPaths paths = true) : Path.normals paths = paths := by
  match paths with
  | [] => rfl
  | path :: rest =>
    rw [Inspection.passesPaths, Bool.and_eq_true] at passes
    rw [normals, path.normal_eq_self passes.1, normals_eq_self rest passes.2]

end

theorem Verb.normal_eq_self {verb : Verb} (passes : Inspection.plural.passesVerb verb = true) :
    verb.normal = verb := by
  cases verb with
  | var name => rfl
  | path route => exact congrArg Verb.path (route.normal_eq_self passes)

theorem TriplePattern.normal_eq_self {triple : TriplePattern}
    (passes : Inspection.plural.passesVerb triple.verb = true) : triple.normal = triple := by
  rw [normal, Verb.normal_eq_self passes]

/-- A list of operands that has several members stays what it is. -/
theorem collapse_normalList {make : List Expression → Expression} {operands : List Expression}
    (several : ∀ single, operands ≠ [single]) :
    collapse make (normalList operands) = make (normalList operands) := by
  match operands with
  | [] => rfl
  | [single] => exact absurd rfl (several single)
  | _ :: _ :: _ => rfl

/-- A union of groups is written like the group that it is if there is only one. -/
theorem Element.lexemes_united (branches : List Group) :
    (Element.united branches).lexemes = (Element.union branches).lexemes := by
  match branches with
  | [] => rfl
  | [_] => rfl
  | _ :: _ :: _ => rfl

namespace Expression

theorem normal_or {operands : List Expression}
    (passes : Inspection.plural.passes (.or operands) = true) :
    (or operands).normal = or (normalList operands) := by
  rw [normal, collapse_normalList]
  rintro single rfl
  cases passes

theorem normal_and {operands : List Expression}
    (passes : Inspection.plural.passes (.and operands) = true) :
    (and operands).normal = and (normalList operands) := by
  rw [normal, collapse_normalList]
  rintro single rfl
  cases passes

theorem isPrimary_normal {expression : Expression}
    (passes : Inspection.plural.passes expression = true) :
    expression.normal.isPrimary = expression.isPrimary := by
  cases expression with
  | or operands => rw [normal_or passes]; rfl
  | and operands => rw [normal_and passes]; rfl
  | count distinct counted => cases counted <;> rfl
  | _ => rfl

/-- An operand whose lexemes are kept is written with the same parentheses. -/
theorem grouped_normal {expression : Expression}
    (passes : Inspection.plural.passes expression = true)
    (same : expression.normal.lexemes = expression.lexemes) :
    Lexeme.grouped (!expression.normal.isPrimary) expression.normal.lexemes =
      Lexeme.grouped (!expression.isPrimary) expression.lexemes := by
  rw [isPrimary_normal passes, same]

end Expression

/-- A filter whose condition keeps its lexemes keeps its own. -/
theorem Element.lexemes_filter_normal {condition : Expression}
    (passes : Inspection.plural.passes condition = true)
    (same : condition.normal.lexemes = condition.lexemes) :
    (Element.filter condition.normal).lexemes = (Element.filter condition).lexemes := by
  have parenthesised
      (written : (Element.filter condition.normal).lexemes =
        .word "FILTER" :: Lexeme.parenthesised condition.normal.lexemes)
      (before : (Element.filter condition).lexemes =
        .word "FILTER" :: Lexeme.parenthesised condition.lexemes) :
      (Element.filter condition.normal).lexemes = (Element.filter condition).lexemes := by
    rw [written, same, before]
  cases condition with
  | «exists» | notExists => exact congrArg ([.word "FILTER", .space] ++ ·) same
  | or operands => exact parenthesised (by rw [Expression.normal_or passes]; rfl) rfl
  | and operands => exact parenthesised (by rw [Expression.normal_and passes]; rfl) rfl
  | count distinct counted => cases counted <;> exact parenthesised rfl rfl
  | _ => exact parenthesised rfl rfl

mutual

/-- An expression whose lists of operands have several members is written like its normal form. -/
theorem Expression.lexemes_normal (expression : Expression)
    (passes : Inspection.plural.passes expression = true) :
    expression.normal.lexemes = expression.lexemes := by
  match expression with
  | .var _ | .iri _ | .literal _ | .count _ none => rfl
  | .or operands =>
    rw [Expression.normal_or passes, Expression.lexemes, Expression.lexemes]
    rw [Inspection.passes, Bool.and_eq_true] at passes
    rw [operandLexemes_normal operands passes.2]
  | .and operands =>
    rw [Expression.normal_and passes, Expression.lexemes, Expression.lexemes]
    rw [Inspection.passes, Bool.and_eq_true] at passes
    rw [operandLexemes_normal operands passes.2]
  | .compare left comparison right =>
    rw [Inspection.passes, Bool.and_eq_true, Bool.and_eq_true] at passes
    rw [Expression.normal, Expression.lexemes, Expression.lexemes,
      Expression.grouped_normal passes.1.2 (left.lexemes_normal passes.1.2),
      Expression.grouped_normal passes.2 (right.lexemes_normal passes.2)]
  | .oneOf value choices =>
    rw [Inspection.passes, Bool.and_eq_true, Bool.and_eq_true] at passes
    rw [Expression.normal, Expression.lexemes, Expression.lexemes,
      Expression.grouped_normal passes.1.2 (value.lexemes_normal passes.1.2),
      listLexemes_normal choices passes.2]
  | .noneOf value choices =>
    rw [Inspection.passes, Bool.and_eq_true, Bool.and_eq_true] at passes
    rw [Expression.normal, Expression.lexemes, Expression.lexemes,
      Expression.grouped_normal passes.1.2 (value.lexemes_normal passes.1.2),
      listLexemes_normal choices passes.2]
  | .not operand =>
    rw [Inspection.passes, Bool.and_eq_true] at passes
    rw [Expression.normal, Expression.lexemes, Expression.lexemes,
      Expression.grouped_normal passes.2 (operand.lexemes_normal passes.2)]
  | .call function arguments =>
    rw [Inspection.passes, Bool.and_eq_true] at passes
    rw [Expression.normal, Expression.lexemes, Expression.lexemes,
      listLexemes_normal arguments passes.2]
  | .exists pattern =>
    rw [Inspection.passes, Bool.and_eq_true] at passes
    rw [Expression.normal, Expression.lexemes, Expression.lexemes,
      lineLexemes_normal pattern passes.2]
  | .notExists pattern =>
    rw [Inspection.passes, Bool.and_eq_true] at passes
    rw [Expression.normal, Expression.lexemes, Expression.lexemes,
      lineLexemes_normal pattern passes.2]
  | .count distinct (some counted) =>
    rw [Inspection.passes, Bool.and_eq_true] at passes
    rw [Expression.normal, Expression.lexemes, Expression.lexemes, counted.lexemes_normal passes.2]
  | .sum distinct summed =>
    rw [Inspection.passes, Bool.and_eq_true] at passes
    rw [Expression.normal, Expression.lexemes, Expression.lexemes, summed.lexemes_normal passes.2]

theorem listLexemes_normal (expressions : List Expression)
    (passes : Inspection.plural.passesList expressions = true) :
    listLexemes (normalList expressions) = listLexemes expressions := by
  match expressions with
  | [] => rfl
  | expression :: rest =>
    rw [Inspection.passesList, Bool.and_eq_true] at passes
    rw [normalList, listLexemes, listLexemes, expression.lexemes_normal passes.1,
      listLexemes_normal rest passes.2]

theorem operandLexemes_normal (operands : List Expression)
    (passes : Inspection.plural.passesList operands = true) :
    operandLexemes (normalList operands) = operandLexemes operands := by
  match operands with
  | [] => rfl
  | operand :: rest =>
    rw [Inspection.passesList, Bool.and_eq_true] at passes
    rw [normalList, operandLexemes, operandLexemes,
      Expression.grouped_normal passes.1 (operand.lexemes_normal passes.1),
      operandLexemes_normal rest passes.2]

theorem Element.lexemes_normal (element : Element)
    (passes : Inspection.plural.passesElement element = true) :
    element.normal.lexemes = element.lexemes := by
  match element with
  | .triple triple => rw [Element.normal, TriplePattern.normal_eq_self passes]
  | .optional pattern =>
    rw [Element.normal, Element.lexemes, Element.lexemes, lineLexemes_normal pattern passes]
  | .union branches =>
    rw [Element.normal, Element.lexemes_united, Element.lexemes, Element.lexemes,
      branchLexemes_normal branches passes]
  | .group pattern =>
    rw [Element.normal, Element.lexemes, Element.lexemes, lineLexemes_normal pattern passes]
  | .filter condition =>
    exact Element.lexemes_filter_normal passes (condition.lexemes_normal passes)
  | .values data => rfl
  | .bind value target =>
    rw [Element.normal, Element.lexemes, Element.lexemes, value.lexemes_normal passes]
  | .service name silent pattern =>
    rw [Element.normal, Element.lexemes, Element.lexemes, lineLexemes_normal pattern passes]
  | .select query =>
    rw [Element.normal, Element.lexemes, Element.lexemes, query.lexemes_normal passes]

theorem lineLexemes_normal (group : List Element)
    (passes : Inspection.plural.passesGroup group = true) :
    lineLexemes (normalGroup group) = lineLexemes group := by
  match group with
  | [] => rfl
  | element :: rest =>
    rw [Inspection.passesGroup, Bool.and_eq_true] at passes
    rw [normalGroup, lineLexemes, lineLexemes, element.lexemes_normal passes.1,
      lineLexemes_normal rest passes.2]

theorem branchLexemes_normal (branches : List (List Element))
    (passes : Inspection.plural.passesBranches branches = true) :
    branchLexemes (normalBranches branches) = branchLexemes branches := by
  match branches with
  | [] => rfl
  | branch :: rest =>
    rw [Inspection.passesBranches, Bool.and_eq_true] at passes
    rw [normalBranches, branchLexemes, branchLexemes, lineLexemes_normal branch passes.1,
      branchLexemes_normal rest passes.2]

theorem Projection.lexemes_normal (column : Projection)
    (passes : Inspection.plural.passesColumn column = true) :
    column.normal.lexemes = column.lexemes := by
  match column with
  | .var name => rfl
  | .expression value target =>
    rw [Projection.normal, Projection.lexemes, Projection.lexemes, value.lexemes_normal passes]

theorem columnLexemes_normal (columns : List Projection)
    (passes : Inspection.plural.passesColumns columns = true) :
    columnLexemes (normalColumns columns) = columnLexemes columns := by
  match columns with
  | [] => rfl
  | column :: rest =>
    rw [Inspection.passesColumns, Bool.and_eq_true] at passes
    rw [normalColumns, columnLexemes, columnLexemes, column.lexemes_normal passes.1,
      columnLexemes_normal rest passes.2]

theorem OrderCondition.lexemes_normal (criterion : OrderCondition)
    (passes : Inspection.plural.passesCriterion criterion = true) :
    criterion.normal.lexemes = criterion.lexemes := by
  match criterion with
  | .ascending key =>
    rw [OrderCondition.normal, OrderCondition.lexemes, OrderCondition.lexemes,
      key.lexemes_normal passes]
  | .descending key =>
    rw [OrderCondition.normal, OrderCondition.lexemes, OrderCondition.lexemes,
      key.lexemes_normal passes]

theorem criterionLexemes_normal (criteria : List OrderCondition)
    (passes : Inspection.plural.passesCriteria criteria = true) :
    criterionLexemes (normalCriteria criteria) = criterionLexemes criteria := by
  match criteria with
  | [] => rfl
  | criterion :: rest =>
    rw [Inspection.passesCriteria, Bool.and_eq_true] at passes
    rw [normalCriteria, criterionLexemes, criterionLexemes, criterion.lexemes_normal passes.1,
      criterionLexemes_normal rest passes.2]

theorem Modifier.lexemes_normal (modifier : Modifier)
    (passes : Inspection.plural.passesModifier modifier = true) :
    modifier.normal.lexemes = modifier.lexemes := by
  match modifier with
  | ⟨groupBy, orderBy, limit, offset⟩ =>
    rw [Modifier.normal, Modifier.lexemes, Modifier.lexemes, criterionLexemes_normal orderBy passes]

theorem Select.lexemes_normal (query : Select)
    (passes : Inspection.plural.passesSelect query = true) :
    query.normal.lexemes = query.lexemes := by
  match query with
  | ⟨distinct, none, pattern, modifier⟩ =>
    rw [Inspection.passesSelect, Bool.and_eq_true] at passes
    rw [Select.normal, Select.lexemes, Select.lexemes, lineLexemes_normal pattern passes.1,
      modifier.lexemes_normal passes.2]
  | ⟨distinct, some columns, pattern, modifier⟩ =>
    rw [Inspection.passesSelect, Bool.and_eq_true, Bool.and_eq_true] at passes
    rw [Select.normal, Select.lexemes, Select.lexemes, columnLexemes_normal columns passes.1.1,
      lineLexemes_normal pattern passes.1.2, modifier.lexemes_normal passes.2]

end

/-! ### Unique readability -/

namespace Query

/-- A query whose lists of operands have several members is written like its normal form. -/
theorem lexemes_normal {query : Query} (passes : Inspection.plural.passesQuery query = true) :
    query.normal.lexemes = query.lexemes := by
  rw [Inspection.passesQuery, Bool.and_eq_true] at passes
  rw [lexemes, lexemes, normal, Group.lexemes, Group.lexemes,
    lineLexemes_normal query.pattern passes.1, query.modifier.lexemes_normal passes.2]

/-- The text of a query is read back as its normal form, so that queries with the same text have the
same normal form, and queries with the same normal form have the same text if their lists of
operands have several members. -/
theorem unique_readability {query other : Query} {text otherText : String}
    (readable : query.Readable) (otherReadable : other.Readable)
    (made : query.render = .ok text) (otherMade : other.render = .ok otherText) :
    parse? text = some query.normal ∧ (text = otherText → query.normal = other.normal) ∧
      (Inspection.plural.passesQuery query = true → Inspection.plural.passesQuery other = true →
        query.normal = other.normal → text = otherText) := by
  have read := parse?_text readable made
  refine ⟨read, ?_, fun plural otherPlural same => ?_⟩
  · rintro rfl
    exact Option.some.inj (read.symm.trans (parse?_text otherReadable otherMade))
  · rw [(written_of_rendered made).2, (written_of_rendered otherMade).2, ← lexemes_normal plural,
      ← lexemes_normal otherPlural, same]

/-- A query for the solutions of a single element. -/
def ofElement (element : Element) : Query :=
  ⟨[], [element], .empty⟩

/-- A triple between two variables. -/
def link : Element :=
  .ofTriple (.var ⟨"a"⟩) (.predicate ⟨"http://example.org/link"⟩) (.var ⟨"b"⟩)

theorem unique_readability_link :
    (ofElement (.union [[link]])).Readable ∧ (ofElement (.group [link])).Readable ∧
      ∃ text, (ofElement (.union [[link]])).render = .ok text ∧
        (ofElement (.group [link])).render = .ok text ∧
        parse? text = some (ofElement (.group [link])) := by
  have readable : (ofElement (.union [[link]])).Readable := by decide +kernel
  have otherReadable : (ofElement (.group [link])).Readable := by decide +kernel
  obtain ⟨text, made⟩ := Success.exists_ok
    (by decide +kernel : (ofElement (.union [[link]])).render.isOk = true)
  obtain ⟨otherText, otherMade⟩ := Success.exists_ok
    (by decide +kernel : (ofElement (.group [link])).render.isOk = true)
  obtain ⟨read, -, same⟩ := unique_readability readable otherReadable made otherMade
  obtain rfl := same rfl rfl rfl
  exact ⟨readable, otherReadable, text, made, otherMade, read⟩

/-- Whether two variables have the same value. -/
def sameValue : Expression :=
  .compare (.var ⟨"a"⟩) .equal (.var ⟨"b"⟩)

/-- The parentheses around the only operand of a conjunction show in the text. -/
theorem lone_operand_shows :
    (ofElement (.filter (.and [sameValue]))).Readable ∧
      (ofElement (.filter sameValue)).Readable ∧
      (ofElement (.filter (.and [sameValue]))).normal = (ofElement (.filter sameValue)).normal ∧
      (ofElement (.filter (.and [sameValue]))).render =
        .ok "CONSTRUCT \x7b\n\x7d\nWHERE \x7b\nFILTER((?a = ?b))\n\x7d" ∧
      (ofElement (.filter sameValue)).render =
        .ok "CONSTRUCT \x7b\n\x7d\nWHERE \x7b\nFILTER(?a = ?b)\n\x7d" ∧
      (ofElement (.filter (.and [sameValue]))).render ≠ (ofElement (.filter sameValue)).render :=
  ⟨by decide +kernel, by decide +kernel, rfl, by decide +kernel, by decide +kernel,
    by decide +kernel⟩

end Query

end ShapeQuery.Sparql
