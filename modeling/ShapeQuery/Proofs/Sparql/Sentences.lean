/-
This file proves that expressions are read back from what they are written as, up to their normal
forms. The rules of the grammar follow the strength of operators: an operand is primary or stands in
parentheses, a relation has operands, a conjunction relations, and a disjunction conjunctions; a
rule that finds no operator of its own passes on what the rule below has read. What an expression
may end before is what the rule above could go on with.
-/
import ShapeQuery.Proofs.Sparql.Phrases

namespace ShapeQuery.Sparql

open Lexeme (visible)
open Reader

variable {more : List Token}

/-! ### Expressions -/

/-- The tokens that an operand may end before. -/
abbrev operandEnds : List Token :=
  [")", ",", "&&", "||", "=", "!=", "<", "<=", ">", ">="].map .mark ++ ["AS", "IN", "NOT"].map .word

/-- The tokens that a relation may end before. -/
abbrev relationEnds : List Token :=
  [.mark ")", .mark ",", .mark "&&", .mark "||", .word "AS"]

/-- The tokens that a conjunction may end before. -/
abbrev conjunctionEnds : List Token :=
  [.mark ")", .mark ",", .mark "||", .word "AS"]

/-- The keywords that an expression can begin with. -/
abbrev expressionKeywords : List String :=
  ["STR", "LCASE", "REGEX", "isBLANK", "SHA256", "CONCAT", "URI", "BOUND", "EXISTS", "NOT",
    "COUNT", "SUM", "true", "false"]

/-- Whether an expression can begin with a token. -/
def Token.opensExpression : Token → Bool
  | .var _ => true
  | .iri _ => true
  | .string _ => true
  | .number _ => true
  | .word text => expressionKeywords.contains text
  | .mark text => text = "(" || text = "!"
  | _ => false

namespace Expression

/-- The lexemes of an expression where it is an operand. -/
def grouped (expression : Expression) : List Lexeme :=
  Lexeme.grouped (!expression.isPrimary) expression.lexemes

/-- The tokens of an expression where it is an operand. -/
def shown (expression : Expression) : List Token :=
  visible expression.grouped

variable {expression : Expression}

theorem shown_primary (primary : expression.isPrimary = true) :
    expression.shown = visible expression.lexemes := by
  rw [shown, grouped, primary]
  rfl

theorem shown_other (other : expression.isPrimary = false) :
    expression.shown = .mark "(" :: (visible expression.lexemes ++ [.mark ")"]) := by
  rw [shown, grouped, other]
  exact Lexeme.visible_parenthesised _

theorem operands_eq (operands : List Expression) : operandLexemes operands = operands.map grouped :=
  operandLexemes_eq operands

theorem length_le_operands {separator : List Lexeme} {operands : List Expression}
    (member : expression ∈ operands) : expression.shown.length ≤
      (visible (Lexeme.separated separator (operandLexemes operands))).length := by
  rw [operands_eq]
  exact length_le_separated member

theorem opensExpression_of_opensLiteral {token : Token} (opens : token.opensLiteral = true) :
    token.opensExpression = true := by
  cases token with
  | word text =>
    rcases opensLiteral_word opens with rfl | rfl <;> rfl
  | string | number => rfl
  | _ => cases opens

/-- A primary expression begins like one, and like no negation. -/
theorem starts_primary (primary : expression.isPrimary = true) :
    Starts (fun token => token.opensExpression = true ∧ token ≠ .mark "!")
      (visible expression.lexemes) := by
  cases expression with
  | literal value =>
    obtain ⟨first, rest, written, opens, -⟩ := takes_literal value
    refine ⟨first, rest, written, opensExpression_of_opensLiteral opens, ?_⟩
    rintro rfl
    cases opens
  | call function arguments =>
    cases function with
    | _ => exact starts_cons ⟨rfl, nofun⟩
  | count distinct counted =>
    cases counted with
    | _ => exact starts_cons ⟨rfl, nofun⟩
  | var | iri | sum => exact starts_cons ⟨rfl, nofun⟩
  | _ => cases primary

theorem starts_shown (expression : Expression) :
    Starts (fun token => token.opensExpression = true ∧ token ≠ .mark "!") expression.shown := by
  cases primary : expression.isPrimary with
  | true =>
    rw [shown_primary primary]
    exact starts_primary primary
  | false =>
    rw [shown_other primary]
    exact starts_cons ⟨rfl, by decide⟩

/-- Every expression begins like one. -/
theorem starts_lexemes (complete : expression.Complete) :
    Starts (·.opensExpression = true) (visible expression.lexemes) := by
  have led (operand : Expression) (more : List Token) :
      Starts (·.opensExpression = true) (operand.shown ++ more) :=
    (operand.starts_shown.mono fun _ => And.left).append more
  have logical (separator : List Lexeme) (operands : List Expression) (nonempty : operands ≠ []) :
      Starts (·.opensExpression = true)
        (visible (Lexeme.separated separator (operandLexemes operands))) := by
    obtain ⟨operand, others, rfl⟩ := List.exists_cons_of_ne_nil nonempty
    rw [operandLexemes, visible_separated]
    exact led operand _
  by_cases primary : expression.isPrimary = true
  · exact (starts_primary primary).mono fun _ => And.left
  cases expression with
  | or operands => exact logical _ operands ((complete_or operands).1 complete).1
  | and operands => exact logical _ operands ((complete_and operands).1 complete).1
  | compare left comparison right =>
    rw [lexemes, List.append_assoc, Lexeme.visible_append]
    exact led left _
  | oneOf value choices =>
    rw [lexemes, List.append_assoc, Lexeme.visible_append]
    exact led value _
  | noneOf value choices =>
    rw [lexemes, List.append_assoc, Lexeme.visible_append]
    exact led value _
  | not | «exists» | notExists => exact starts_cons rfl
  | _ => exact absurd rfl primary

end Expression

theorem opensExpression_mark {text : String} (other : text ≠ "(" ∧ text ≠ "!") (token : Token)
    (opens : token.opensExpression = true) : Token.mark? text token = none := by
  cases token with
  | mark found =>
    refine if_neg fun same : found = text => ?_
    simp [Token.opensExpression, same, other] at opens
  | _ => rfl

namespace Grammar.Reads

variable {grammar : Grammar} {size : Nat} (reads : grammar.Reads size)

include reads

theorem takes_group {group : Group} (complete : group.Complete)
    (passes : Inspection.grammatical.passesGroup group = true)
    (bounded : (visible group.lexemes).length ≤ size + 1) :
    Takes grammar.group (visible group.lexemes) (normalGroup group) more := by
  rw [Group.visible_lexemes] at bounded ⊢
  exact Takes.bind (takes_mark rfl)
    ((reads.group group complete passes (Nat.le_of_succ_le_succ bounded) more).returns rfl)

/-- Expressions with commas between them, and the parenthesis behind them. -/
theorem takes_list {items : List Expression} (complete : ∀ item ∈ items, item.Complete)
    (passes : Inspection.grammatical.passesList items = true)
    (bounded : (visible (Lexeme.separated [.mark ",", .space] (listLexemes items))).length ≤ size) :
    Takes grammar.list
      (visible (Lexeme.separated [.mark ",", .space] (listLexemes items)) ++ [.mark ")"])
      (normalList items) more := by
  rw [Inspection.passesList_eq, List.all_eq_true] at passes
  rw [listLexemes_eq] at bounded ⊢
  rw [normalList_eq]
  cases items with
  | nil => exact Takes.accepted rfl rfl (takes_pure [])
  | cons first rest =>
    have whole : Takes (Reader.separated .operand "," grammar.expression)
        (visible (Lexeme.separated [.mark ",", .space] ((first :: rest).map Expression.lexemes)))
        ((first :: rest).map Expression.normal) (.mark ")" :: more) :=
      takes_separated (· ∈ expressionEnds) Expression.lexemes Expression.normal rfl rfl (by decide)
        (fun item member more ahead => reads.expression item (complete item member)
          (passes item member) (Nat.le_trans (length_le_separated member) bounded) more ahead)
        (List.cons_ne_nil first rest) (ahead_cons (by decide)) (ahead_cons (by decide)) nofun
    refine Takes.refused ?_ (fun _ => rfl) (whole.bind ((takes_mark rfl).returns rfl))
    have starts := (Expression.starts_lexemes (complete first List.mem_cons_self)).mono
      (opensExpression_mark (by decide : ")" ≠ "(" ∧ ")" ≠ "!"))
    rw [List.map_cons, visible_separated, List.append_assoc, List.append_assoc]
    exact starts.ahead _

omit reads in
/-- What an aggregate is about, and its closing parenthesis. -/
theorem takes_aggregated {counted : List Lexeme} {value : Option Expression} (distinct : Bool)
    (refused : Ahead (fun token => Token.word? "DISTINCT" token = none)
      (visible counted ++ [.mark ")"] ++ more))
    (takes : ∀ found : Option Unit, Takes (do
      let star ← accept .operand (Token.mark? "*")
      let counted ← match star with
        | some _ => pure none
        | none => some <$> grammar.expression
      mark ")"
      return (found.isSome, counted)) (visible counted ++ [.mark ")"]) (found.isSome, value) more) :
    Takes (aggregated grammar.expression)
      (visible (Lexeme.parenthesised (distinctLexemes distinct counted))) (distinct, value)
      more := by
  rw [Lexeme.visible_parenthesised]
  cases distinct with
  | true => exact Takes.bind (takes_mark rfl) (Takes.accepted rfl rfl (takes (some ())))
  | false => exact Takes.bind (takes_mark rfl) (Takes.refused refused (fun _ => rfl) (takes none))

omit reads in
theorem opensExpression_distinct (token : Token) (opens : token.opensExpression = true) :
    Token.word? "DISTINCT" token = none := by
  have other : ∀ keyword ∈ expressionKeywords,
      Token.word? "DISTINCT" (.word keyword) = none := by decide
  cases token with
  | word text => exact other text (List.contains_iff_mem.1 opens)
  | _ => rfl

omit reads in
theorem takes_aggregated_star (distinct : Bool) :
    Takes (aggregated grammar.expression)
      (visible (Lexeme.parenthesised (distinctLexemes distinct [.mark "*"]))) (distinct, none)
      more :=
  takes_aggregated distinct (ahead_cons rfl) fun _ =>
    Takes.accepted rfl rfl (Takes.bind (takes_pure none) ((takes_mark rfl).returns rfl))

theorem takes_aggregated_expression {expression : Expression} (complete : expression.Complete)
    (passes : Inspection.grammatical.passes expression = true)
    {distinct : Bool} (bounded : (visible (Lexeme.parenthesised
      (distinctLexemes distinct expression.lexemes))).length ≤ size + 2) :
    Takes (aggregated grammar.expression)
      (visible (Lexeme.parenthesised (distinctLexemes distinct expression.lexemes)))
      (distinct, some expression.normal) more := by
  rw [Lexeme.visible_parenthesised, List.length_cons, List.length_append, distinctLexemes,
    Lexeme.visible_append, List.length_append] at bounded
  have bounded : (visible expression.lexemes).length ≤ size := by
    rw [List.length_singleton] at bounded
    omega
  have inner := reads.expression expression complete passes bounded (.mark ")" :: more)
    (ahead_cons (by decide))
  have starts := (Expression.starts_lexemes complete).append [.mark ")"]
  exact takes_aggregated distinct ((starts.mono opensExpression_distinct).ahead more) fun _ =>
    Takes.refused ((starts.mono (opensExpression_mark (by decide))).ahead more) (fun _ => rfl)
      ((inner.map some).bind ((takes_mark rfl).returns rfl))

omit reads in
theorem primaryFrom_of_opensLiteral {token : Token} (opens : token.opensLiteral = true) :
    grammar.primaryFrom token = (do return .literal (← literalFrom token)) := by
  cases token with
  | string | number => rfl
  | word text =>
    rcases opensLiteral_word opens with rfl | rfl <;> rfl
  | _ => cases opens

/-- The call of a function, behind its name. -/
theorem takes_call {function : Function} {items : List Expression} {keyword : String}
    (named : grammar.primaryFrom (.word keyword) = (do
      mark "("
      let arguments ← grammar.list
      if function.accepts arguments.length then return .call function arguments else failure))
    (complete : (Expression.call function items).Complete)
    (passes : Inspection.grammatical.passesList items = true)
    (bounded : (visible (Lexeme.separated [.mark ",", .space] (listLexemes items))).length ≤ size) :
    Takes grammar.primary (.word keyword :: visible (Lexeme.parenthesised
      (Lexeme.separated [.mark ",", .space] (listLexemes items))))
      (.call function (normalList items)) more := by
  obtain ⟨accepts, members⟩ := (Expression.complete_call function items).1 complete
  rw [Lexeme.visible_parenthesised]
  refine takes_token rfl ?_
  rw [named]
  refine Takes.bind (takes_mark rfl) ((reads.takes_list members passes bounded).returns ?_)
  rw [normalList_eq, List.length_map, if_pos accepts]

end Grammar.Reads

/-- Whether the grammar has an expression among the primary ones. -/
def Expression.isDirect : Expression → Bool
  | .exists _ => true
  | .notExists _ => true
  | expression => expression.isPrimary

theorem Expression.isDirect_of_isPrimary {expression : Expression}
    (primary : expression.isPrimary = true) : expression.isDirect = true := by
  cases expression with
  | «exists» | notExists => cases primary
  | _ => exact primary

namespace Grammar.Reads

variable {grammar : Grammar} {size : Nat} (reads : grammar.Reads size)

include reads

theorem takes_exists {pattern : Group} (complete : pattern.Complete)
    (passes : Inspection.grammatical.passesGroup pattern = true)
    (bounded : (visible (Expression.exists pattern).lexemes).length ≤ size + 1) :
    Takes grammar.primary (visible (Expression.exists pattern).lexemes)
      (Expression.exists pattern).normal more := by
  have inner : Takes grammar.group (visible (Group.lexemes pattern)) (normalGroup pattern) more :=
    reads.takes_group complete passes (Nat.le_of_succ_le bounded)
  exact takes_token rfl (inner.returns rfl)

theorem takes_notExists {pattern : Group} (complete : pattern.Complete)
    (passes : Inspection.grammatical.passesGroup pattern = true)
    (bounded : (visible (Expression.notExists pattern).lexemes).length ≤ size + 1) :
    Takes grammar.primary (visible (Expression.notExists pattern).lexemes)
      (Expression.notExists pattern).normal more := by
  have inner : Takes grammar.group (visible (Group.lexemes pattern)) (normalGroup pattern) more :=
    reads.takes_group complete passes (Nat.le_of_succ_le (Nat.le_of_succ_le bounded))
  exact takes_token rfl (Takes.demanded rfl rfl (inner.returns rfl))

/-- Any expression between parentheses. -/
theorem takes_parenthesis {expression : Expression} (complete : expression.Complete)
    (passes : Inspection.grammatical.passes expression = true)
    (bounded : (visible expression.lexemes).length ≤ size) :
    Takes grammar.primary (visible (Lexeme.parenthesised expression.lexemes)) expression.normal
      more := by
  have inner : Takes grammar.expression (visible expression.lexemes) expression.normal
      (.mark ")" :: more) :=
    reads.expression expression complete passes bounded _ (ahead_cons (by decide))
  rw [Lexeme.visible_parenthesised]
  exact takes_token rfl (inner.bind ((takes_mark rfl).returns rfl))

theorem takes_primary {expression : Expression} (direct : expression.isDirect = true)
    (complete : expression.Complete) (passes : Inspection.grammatical.passes expression = true)
    (bounded : (visible expression.lexemes).length ≤ size + 1)
    (ahead : Ahead (· ∈ operandEnds) more) :
    Takes grammar.primary (visible expression.lexemes) expression.normal more := by
  cases expression with
  | var name => exact takes_token rfl (takes_pure _)
  | iri name =>
    exact takes_token rfl (Takes.refused (ahead.mono (by decide)) (fun _ => rfl) (takes_pure _))
  | literal value =>
    obtain ⟨first, rest, written, opens, takes⟩ := takes_literal value
    have read := takes more (ahead.mono (by decide))
    rw [Expression.lexemes, written]
    refine takes_token (fits_of_opensTerm (opensTerm_of_opensLiteral opens)) ?_
    rw [primaryFrom_of_opensLiteral opens]
    exact read.returns rfl
  | call function items =>
    rw [Inspection.passes, Bool.and_eq_true] at passes
    have written : visible (Expression.call function items).lexemes =
        visible [function.lexeme] ++ visible (Lexeme.parenthesised
          (Lexeme.separated [.mark ",", .space] (listLexemes items))) := by
      rw [← Lexeme.visible_append]
      rfl
    have inside : (visible (Lexeme.separated [.mark ",", .space] (listLexemes items))).length ≤
        size := by
      rw [written, List.length_append, Lexeme.visible_parenthesised, List.length_cons,
        List.length_append] at bounded
      omega
    rw [written, Expression.normal]
    cases function with
    | custom name =>
      have members := ((Expression.complete_call _ items).1 complete).2
      rw [Lexeme.visible_parenthesised]
      exact takes_token rfl (Takes.accepted rfl rfl
        ((reads.takes_list members passes.2 inside).returns rfl))
    | bound =>
      obtain ⟨item, rfl⟩ := List.length_eq_one_iff.1
        (of_decide_eq_true ((Expression.complete_call _ items).1 complete).1)
      cases item with
      | var asked =>
        exact takes_token rfl ((takes_parenthesised (takes_name asked)).returns rfl)
      | _ => cases passes.1
    | _ => exact reads.takes_call rfl complete passes.2 inside
  | «exists» pattern =>
    rw [Inspection.passes, Bool.and_eq_true] at passes
    exact reads.takes_exists ((Expression.complete_exists _).1 complete) passes.2 bounded
  | notExists pattern =>
    rw [Inspection.passes, Bool.and_eq_true] at passes
    exact reads.takes_notExists ((Expression.complete_notExists _).1 complete) passes.2 bounded
  | count distinct counted =>
    cases counted with
    | none => exact takes_token rfl ((takes_aggregated_star distinct).returns rfl)
    | some counted =>
      rw [Inspection.passes, Bool.and_eq_true] at passes
      have inner : Takes (aggregated grammar.expression) (visible (Lexeme.parenthesised
          (distinctLexemes distinct counted.lexemes))) (distinct, some counted.normal) more :=
        reads.takes_aggregated_expression ((Expression.complete_count _ _).1 complete) passes.2
          (Nat.le_succ_of_le (Nat.le_of_succ_le bounded))
      exact takes_token rfl (inner.returns rfl)
  | sum distinct summed =>
    rw [Inspection.passes, Bool.and_eq_true] at passes
    have inner : Takes (aggregated grammar.expression) (visible (Lexeme.parenthesised
        (distinctLexemes distinct summed.lexemes))) (distinct, some summed.normal) more :=
      reads.takes_aggregated_expression ((Expression.complete_sum _ _).1 complete) passes.2
        (Nat.le_succ_of_le (Nat.le_of_succ_le bounded))
    exact takes_token rfl (inner.returns rfl)
  | _ => cases direct

/-- An operand, with parentheses around it where they are needed. -/
theorem takes_operand {operand : Expression} (complete : operand.Complete)
    (passes : Inspection.grammatical.passes operand = true)
    (bounded : operand.shown.length ≤ size + 1) (ahead : Ahead (· ∈ operandEnds) more) :
    Takes grammar.primary operand.shown operand.normal more := by
  cases primary : operand.isPrimary with
  | true =>
    rw [Expression.shown_primary primary] at bounded ⊢
    have direct := Expression.isDirect_of_isPrimary primary
    exact reads.takes_primary direct complete passes bounded ahead
  | false =>
    rw [Expression.shown_other primary, List.length_cons, List.length_append] at bounded
    rw [Expression.shown_other primary, ← Lexeme.visible_parenthesised]
    exact reads.takes_parenthesis complete passes (by omega)

omit reads in
/-- What a negation does not begin with is read without one. -/
theorem takes_unnegated {tokens : List Token} {value : Expression}
    (starts : Starts (fun token => token.opensExpression = true ∧ token ≠ .mark "!") tokens)
    (takes : Takes grammar.primary tokens value more) : Takes grammar.unary tokens value more :=
  Takes.refused ((starts.mono fun _ apart => mark?_eq_none apart.2).ahead more) (fun _ => rfl) takes

theorem takes_unary {operand : Expression} (complete : operand.Complete)
    (passes : Inspection.grammatical.passes operand = true)
    (bounded : operand.shown.length ≤ size + 1) (ahead : Ahead (· ∈ operandEnds) more) :
    Takes grammar.unary operand.shown operand.normal more :=
  takes_unnegated operand.starts_shown (reads.takes_operand complete passes bounded ahead)

omit reads in
/-- What no relation follows. -/
theorem takes_unrelated {tokens : List Token} {value : Expression}
    (takes : Takes grammar.unary tokens value more) (ahead : Ahead (· ∈ relationEnds) more) :
    Takes grammar.relational tokens value more := by
  rw [← List.append_nil tokens]
  exact Takes.bind takes
    (Takes.refusedAfter (ahead.mono (by decide)) (fun _ => rfl) (takes_pure _))

/-- Whether an expression is a conjunction or a disjunction. -/
def isLogical : Expression → Bool
  | .or _ => true
  | .and _ => true
  | _ => false

theorem takes_relation {expression : Expression} (single : isLogical expression = false)
    (complete : expression.Complete) (passes : Inspection.grammatical.passes expression = true)
    (bounded : (visible expression.lexemes).length ≤ size + 1)
    (ahead : Ahead (· ∈ relationEnds) more) :
    Takes grammar.relational (visible expression.lexemes) expression.normal more := by
  have further : Ahead (· ∈ operandEnds) more := ahead.mono (by decide)
  cases expression with
  | or | and => cases single
  | compare left comparison right =>
    obtain ⟨leftComplete, rightComplete⟩ :=
      (Expression.complete_compare left comparison right).1 complete
    simp only [Inspection.passes, Bool.and_eq_true] at passes
    have written : visible (Expression.compare left comparison right).lexemes =
        left.shown ++ .mark comparison.symbol :: right.shown := by
      rw [Expression.lexemes, Lexeme.visible_append, Lexeme.visible_append, List.append_assoc]
      rfl
    rw [written] at bounded ⊢
    rw [List.length_append, List.length_cons] at bounded
    have ends : .mark comparison.symbol ∈ operandEnds := by cases comparison <;> decide
    have first : Takes grammar.unary left.shown left.normal
        (.mark comparison.symbol :: right.shown ++ more) :=
      reads.takes_unary leftComplete passes.1.2 (by omega) (ahead_cons ends)
    have second : Takes grammar.unary right.shown right.normal more :=
      reads.takes_unary rightComplete passes.2 (by omega) further
    have related : relation? (.mark comparison.symbol) = some (.comparison comparison) := by
      cases comparison <;> rfl
    exact Takes.bind first (Takes.accepted rfl related (second.returns rfl))
  | oneOf value choices =>
    obtain ⟨valueComplete, members⟩ := (Expression.complete_oneOf value choices).1 complete
    simp only [Inspection.passes, Bool.and_eq_true] at passes
    have written : visible (Expression.oneOf value choices).lexemes =
        value.shown ++ .word "IN" :: .mark "(" :: (visible (Lexeme.separated [.mark ",", .space]
          (listLexemes choices)) ++ [.mark ")"]) := by
      rw [Expression.lexemes, Lexeme.visible_append, Lexeme.visible_append, List.append_assoc,
        Lexeme.visible_parenthesised]
      rfl
    rw [written] at bounded ⊢
    simp only [List.length_append, List.length_cons] at bounded
    exact Takes.bind
      (reads.takes_unary valueComplete passes.1.2 (by omega) (ahead_cons (by decide)))
      (Takes.accepted rfl rfl (Takes.bind (takes_mark rfl)
        ((reads.takes_list members passes.2 (by omega)).returns rfl)))
  | noneOf value choices =>
    obtain ⟨valueComplete, members⟩ := (Expression.complete_noneOf value choices).1 complete
    simp only [Inspection.passes, Bool.and_eq_true] at passes
    have written : visible (Expression.noneOf value choices).lexemes =
        value.shown ++ .word "NOT" :: .word "IN" :: .mark "(" :: (visible (Lexeme.separated
          [.mark ",", .space] (listLexemes choices)) ++ [.mark ")"]) := by
      rw [Expression.lexemes, Lexeme.visible_append, Lexeme.visible_append, List.append_assoc,
        Lexeme.visible_parenthesised]
      rfl
    rw [written] at bounded ⊢
    simp only [List.length_append, List.length_cons] at bounded
    exact Takes.bind
      (reads.takes_unary valueComplete passes.1.2 (by omega) (ahead_cons (by decide)))
      (Takes.accepted rfl rfl (Takes.demanded rfl rfl (Takes.bind (takes_mark rfl)
        ((reads.takes_list members passes.2 (by omega)).returns rfl))))
  | not operand =>
    rw [Inspection.passes, Bool.and_eq_true] at passes
    have inner : Takes grammar.primary operand.shown operand.normal more :=
      reads.takes_operand complete passes.2 (Nat.le_of_succ_le bounded) further
    exact takes_unrelated (Takes.accepted rfl rfl (inner.returns rfl)) ahead
  | «exists» pattern =>
    exact takes_unrelated (takes_unnegated (starts_cons ⟨rfl, nofun⟩)
      (reads.takes_primary rfl complete passes bounded further)) ahead
  | notExists pattern =>
    exact takes_unrelated (takes_unnegated (starts_cons ⟨rfl, nofun⟩)
      (reads.takes_primary rfl complete passes bounded further)) ahead
  | _ =>
    exact takes_unrelated (takes_unnegated (Expression.starts_primary rfl)
      (reads.takes_primary rfl complete passes bounded further)) ahead

/-- An operand of a conjunction. -/
theorem takes_relation_operand {operand : Expression} (complete : operand.Complete)
    (passes : Inspection.grammatical.passes operand = true)
    (bounded : operand.shown.length ≤ size + 1) (ahead : Ahead (· ∈ relationEnds) more) :
    Takes grammar.relational operand.shown operand.normal more :=
  takes_unrelated (reads.takes_unary complete passes bounded (ahead.mono (by decide))) ahead

omit reads in
/-- Parts with a conjunction between each two. -/
theorem takes_conjunctionOf {Item : Type} {items : List Item} (lexemes : Item → List Lexeme)
    (result : Item → Expression) (nonempty : items ≠ [])
    (each : ∀ item ∈ items, ∀ more, Ahead (· ∈ relationEnds) more →
      Takes grammar.relational (visible (lexemes item)) (result item) more)
    (ahead : Ahead (· ∈ conjunctionEnds) more) :
    Takes grammar.conjunction
      (visible (Lexeme.separated [.space, .mark "&&", .space] (items.map lexemes)))
      (collapse .and (items.map result)) more :=
  Takes.map _ (takes_separated (· ∈ relationEnds) lexemes result rfl rfl (by decide) each nonempty
    (ahead.mono (by decide)) (ahead.mono (by decide)) fun _ => ahead.mono (by decide))

omit reads in
/-- Parts with a disjunction between each two. -/
theorem takes_disjunctionOf {Item : Type} {items : List Item} (lexemes : Item → List Lexeme)
    (result : Item → Expression) (nonempty : items ≠ [])
    (each : ∀ item ∈ items, ∀ more, Ahead (· ∈ conjunctionEnds) more →
      Takes grammar.conjunction (visible (lexemes item)) (result item) more)
    (ahead : Ahead (· ∈ expressionEnds) more) :
    Takes grammar.disjunction
      (visible (Lexeme.separated [.space, .mark "||", .space] (items.map lexemes)))
      (collapse .or (items.map result)) more :=
  Takes.map _ (takes_separated (· ∈ conjunctionEnds) lexemes result rfl rfl (by decide) each
    nonempty (ahead.mono (by decide)) (ahead.mono (by decide)) fun _ => ahead.mono (by decide))

/-- What is no disjunction. -/
theorem takes_conjunction {expression : Expression} (single : ∀ operands, expression ≠ .or operands)
    (complete : expression.Complete) (passes : Inspection.grammatical.passes expression = true)
    (bounded : (visible expression.lexemes).length ≤ size + 1)
    (ahead : Ahead (· ∈ conjunctionEnds) more) :
    Takes grammar.conjunction (visible expression.lexemes) expression.normal more := by
  cases logical : isLogical expression with
  | false =>
    refine takes_conjunctionOf Expression.lexemes Expression.normal (List.cons_ne_nil expression [])
      ?_ ahead
    exact List.forall_mem_singleton.2 fun more ahead =>
      reads.takes_relation logical complete passes bounded ahead
  | true =>
    cases expression with
    | and operands =>
      obtain ⟨nonempty, members⟩ := (Expression.complete_and operands).1 complete
      rw [Inspection.passes, Bool.and_eq_true, Inspection.passesList_eq, List.all_eq_true] at passes
      rw [Expression.lexemes] at bounded ⊢
      rw [Expression.operands_eq, Expression.normal, normalList_eq]
      refine takes_conjunctionOf Expression.grouped Expression.normal nonempty
        (fun operand member more ahead => ?_) ahead
      exact reads.takes_relation_operand (members operand member) (passes.2 operand member)
        (Nat.le_trans (Expression.length_le_operands member) bounded) ahead
    | or operands => exact absurd rfl (single operands)
    | _ => cases logical

/-- An operand of a disjunction. -/
theorem takes_conjunction_operand {operand : Expression} (complete : operand.Complete)
    (passes : Inspection.grammatical.passes operand = true)
    (bounded : operand.shown.length ≤ size + 1) (ahead : Ahead (· ∈ conjunctionEnds) more) :
    Takes grammar.conjunction operand.shown operand.normal more := by
  refine takes_conjunctionOf Expression.grouped Expression.normal (List.cons_ne_nil operand [])
    ?_ ahead
  exact List.forall_mem_singleton.2 fun more ahead =>
    reads.takes_relation_operand complete passes bounded ahead

/-- Every expression is read up to its normal form. -/
theorem takes_expression {expression : Expression} (complete : expression.Complete)
    (passes : Inspection.grammatical.passes expression = true)
    (bounded : (visible expression.lexemes).length ≤ size + 1)
    (ahead : Ahead (· ∈ expressionEnds) more) :
    Takes grammar.disjunction (visible expression.lexemes) expression.normal more := by
  have single (other : ∀ operands, expression ≠ .or operands) :
      Takes grammar.disjunction (visible expression.lexemes) expression.normal more := by
    refine takes_disjunctionOf Expression.lexemes Expression.normal
      (List.cons_ne_nil expression []) ?_ ahead
    exact List.forall_mem_singleton.2 fun more ahead =>
      reads.takes_conjunction other complete passes bounded ahead
  cases expression with
  | or operands =>
    obtain ⟨nonempty, members⟩ := (Expression.complete_or operands).1 complete
    rw [Inspection.passes, Bool.and_eq_true, Inspection.passesList_eq, List.all_eq_true] at passes
    rw [Expression.lexemes] at bounded ⊢
    rw [Expression.operands_eq, Expression.normal, normalList_eq]
    refine takes_disjunctionOf Expression.grouped Expression.normal nonempty
      (fun operand member more ahead => ?_) ahead
    exact reads.takes_conjunction_operand (members operand member) (passes.2 operand member)
      (Nat.le_trans (Expression.length_le_operands member) bounded) ahead
  | _ => exact single nofun

end Grammar.Reads

end ShapeQuery.Sparql
