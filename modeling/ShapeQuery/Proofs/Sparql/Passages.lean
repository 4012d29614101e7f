/-
This file proves that elements, selections and groups are read back from what they are written as,
up to their normal forms, and from this that everything up to a size is. The induction is on the
size: what stands in braces or in parentheses has fewer tokens than what it stands in.
-/
import ShapeQuery.Proofs.Sparql.Sentences

namespace ShapeQuery.Sparql

open Lexeme (visible)
open Reader

variable {more : List Token}

/-! ### Triples -/

theorem Term.starts_lexemes (term : Term) :
    Starts (·.opensTerm = true) (visible term.lexemes) := by
  obtain ⟨first, rest, written, opens, -⟩ := takes_termFrom term
  exact ⟨first, rest, written, opens⟩

theorem not_mem_pathMarks_of_opensTerm (token : Token) (opens : token.opensTerm = true) :
    token ∉ pathMarks := by
  cases token with
  | mark => cases opens
  | _ => simp

theorem Verb.starts_lexemes {verb : Verb} (complete : verb.Complete) :
    Starts EndsTerm (visible verb.lexemes) := by
  cases verb with
  | var name => exact starts_cons ⟨rfl, nofun⟩
  | path route => exact (route.starts_lexemes complete).mono fun _ => And.right

theorem visible_tripleLexemes (subject predicate object : List Lexeme) :
    visible (tripleLexemes subject predicate object) =
      visible subject ++ (visible predicate ++ (visible object ++ [.mark "."])) := by
  simp [tripleLexemes]

namespace Grammar.Reads

variable {grammar : Grammar} {size : Nat} (reads : grammar.Reads size)

include reads

theorem takes_verb {verb : Verb} (complete : verb.Complete)
    (bounded : (visible verb.lexemes).length ≤ size + 1) (ahead : Ahead (· ∉ pathMarks) more) :
    Takes grammar.verb (visible verb.lexemes) verb.normal more := by
  cases verb with
  | var name => exact Takes.accepted rfl rfl (takes_pure _)
  | path route =>
    have starts := (route.starts_lexemes complete).mono fun _ => And.left
    exact Takes.refused (starts.ahead more) (fun _ => rfl)
      ((reads.takes_path complete bounded ahead).returns rfl)

/-- What is read of a triple after its first token. -/
theorem takes_tripleFrom {triple : TriplePattern} (complete : triple.verb.Complete)
    (bounded : (visible triple.lexemes).length ≤ size + 1) :
    ∃ first rest, visible triple.lexemes = first :: rest ∧ first.opensTerm = true ∧
      ∀ more, Takes (grammar.tripleFrom first) rest triple.normal more := by
  obtain ⟨first, rest, written, opens, takes⟩ := takes_termFrom triple.subject
  rw [TriplePattern.lexemes, visible_tripleLexemes, written, List.cons_append] at bounded ⊢
  simp only [List.length_cons, List.length_append] at bounded
  refine ⟨first, _, rfl, opens, fun more => ?_⟩
  have object := triple.object.starts_lexemes.mono not_mem_pathMarks_of_opensTerm
  refine Takes.bind (takes _ ?_) (Takes.bind (reads.takes_verb complete (by omega) ?_)
    (Takes.bind (takes_term triple.object (ahead_cons (by decide))) ((takes_mark rfl).returns rfl)))
  · exact ((Verb.starts_lexemes complete).append _).ahead more
  · exact (object.append _).ahead more

end Grammar.Reads

/-! ### Tables -/

theorem keyword?_of_opensTerm (token : Token) (opens : token.opensTerm = true) :
    token.keyword? ≠ some "UNDEF" := by
  cases token with
  | word text =>
    rcases opensLiteral_word opens with rfl | rfl <;> decide
  | _ => exact nofun

theorem starts_cell (cell : Option Term) :
    Starts (fun token => EndsTerm token ∧ ∀ text, token ≠ .mark text)
      (visible (cellLexemes cell)) := by
  cases cell with
  | none => exact starts_cons ⟨⟨rfl, nofun⟩, nofun⟩
  | some term =>
    refine term.starts_lexemes.mono fun token opens => ?_
    cases token with
    | mark | language => cases opens
    | _ => exact ⟨⟨rfl, nofun⟩, nofun⟩

theorem takes_cell {cell : Option Term} (value : cell.all Inspection.isValue = true)
    (ahead : Ahead EndsTerm more) :
    Takes Grammar.cell (visible (cellLexemes cell)) cell more := by
  cases cell with
  | none => exact takes_token rfl (takes_pure _)
  | some term =>
    obtain ⟨first, rest, written, opens, takes⟩ := takes_termFrom term
    rw [cellLexemes, written]
    refine takes_token (fits_of_opensTerm opens) ?_
    rw [if_neg (keyword?_of_opensTerm first opens)]
    refine (takes more ahead).returns ?_
    cases term with
    | iri | literal => rfl
    | _ => cases value

/-- The cells of a row or of a column, and what closes it. -/
theorem takes_cells {cells : List (Option Term)} {closing : String}
    (values : (cells.all fun cell => cell.all Inspection.isValue) = true)
    (fits : (Token.mark closing).fits .operand = true) (closes : EndsTerm (.mark closing)) :
    Takes (upTo closing Grammar.cell)
      (cells.flatMap (fun cell => visible (cellLexemes cell)) ++ [.mark closing]) cells more := by
  rw [List.all_eq_true] at values
  have whole : Takes (upTo closing Grammar.cell)
      (cells.flatMap (fun cell => visible (cellLexemes cell)) ++ [.mark closing])
      (cells.map id) more :=
    takes_upTo EndsTerm (fun cell => visible (cellLexemes cell)) id fits
      (fun cell member _ ahead => takes_cell (values cell member) ahead)
      (fun cell _ => (starts_cell cell).mono fun _ => And.imp_right fun other => other closing)
      closes
  rwa [List.map_id] at whole

theorem takes_names (names : List Variable) : Takes (upTo ")" name)
    (visible (variableLexemes names) ++ [.mark ")"]) names more := by
  have whole : Takes (upTo ")" name) (names.flatMap (fun found => [.var found]) ++ [.mark ")"])
      (names.map id) more :=
    takes_upTo (fun _ => True) (fun found => [.var found]) id rfl
      (fun found _ _ _ => takes_name found) (fun _ _ => starts_cons ⟨trivial, nofun⟩) trivial
  rw [variableLexemes, Lexeme.visible_separated_space, List.flatMap_map]
  rwa [List.map_id] at whole

/-- A row of a table with several columns, between parentheses. -/
theorem takes_row {row : List (Option Term)}
    (values : (row.all fun cell => cell.all Inspection.isValue) = true) :
    Takes (do mark "("; upTo ")" Grammar.cell)
      (visible (Lexeme.parenthesised (Lexeme.separated [.space] (row.map cellLexemes)))) row
      more := by
  rw [Lexeme.visible_parenthesised, Lexeme.visible_separated_space, List.flatMap_map]
  exact Takes.bind (takes_mark rfl) (takes_cells values rfl (by decide))

/-- The rows of a table with a single column have a single cell each. -/
theorem rows_of_single {rows : List (List (Option Term))}
    (single : ∀ row ∈ rows, row.length = 1) :
    ∃ cells : List (Option Term), rows = cells.map fun cell => [cell] := by
  induction rows with
  | nil => exact ⟨[], rfl⟩
  | cons row rest inductionHypothesis =>
    rw [List.forall_mem_cons] at single
    obtain ⟨cell, rfl⟩ := List.length_eq_one_iff.1 single.1
    obtain ⟨cells, rfl⟩ := inductionHypothesis single.2
    exact ⟨cell :: cells, rfl⟩

/-- What is read of a table after its keyword. -/
theorem takes_data {data : Data} (complete : data.defects = [])
    (values : Inspection.grammatical.data data = true) :
    ∃ tokens, visible data.lexemes = .word "VALUES" :: tokens ∧
      ∀ more, Takes Grammar.data tokens data more := by
  obtain ⟨columns, rows⟩ := data
  match columns with
  | [] => cases complete
  | [column] =>
    obtain ⟨cells, rfl⟩ := @rows_of_single rows (by simpa [Data.defects] using complete)
    have listed : (cells.all fun cell => cell.all Inspection.isValue) = true := by
      simpa [Inspection.grammatical, List.all_map] using values
    refine ⟨_, by simp [Data.lexemes, Lexeme.visible_flatMap, List.flatMap_map]; rfl,
      fun more => ?_⟩
    exact Takes.accepted rfl rfl (Takes.bind (takes_mark rfl)
      ((takes_cells listed rfl (by decide)).returns rfl))
  | column :: other :: others =>
    have listed : ∀ row ∈ rows, (row.all fun cell => cell.all Inspection.isValue) = true :=
      List.all_eq_true.1 values
    have whole (more : List Token) : Takes (upTo "\x7d" do mark "("; upTo ")" Grammar.cell)
        (rows.flatMap (fun row => visible (Lexeme.parenthesised
          (Lexeme.separated [.space] (row.map cellLexemes)))) ++ [.mark "\x7d"])
        (rows.map id) more :=
      takes_upTo (fun _ => True) _ id rfl (fun row member more _ => takes_row (listed row member))
        (fun row _ => starts_cons ⟨trivial, by decide⟩) trivial
    rw [List.map_id] at whole
    refine ⟨.mark "(" :: (visible (variableLexemes (column :: other :: others)) ++ [.mark ")"] ++
      visible (Lexeme.block (rows.map fun row =>
        Lexeme.parenthesised (Lexeme.separated [.space] (row.map cellLexemes))))), ?_,
      fun more => ?_⟩
    · simp [Data.lexemes]
    · rw [Lexeme.visible_block, List.flatMap_map]
      exact Takes.refused (ahead_cons rfl) (fun _ => rfl) (Takes.bind (takes_mark rfl)
        (Takes.bind (takes_names (column :: other :: others))
          (Takes.bind (takes_mark rfl) ((whole more).returns rfl))))

/-! ### Elements -/

/-- Whether a token can follow an element: it does not go on with a union, or begin a selection. -/
abbrev EndsElement (token : Token) : Prop :=
  Token.word? "UNION" token = none ∧ Token.word? "SELECT" token = none

theorem endsElement_of_opensTerm (token : Token) (opens : token.opensTerm = true) :
    EndsElement token ∧ token ≠ .mark "\x7d" := by
  cases token with
  | word text =>
    rcases opensLiteral_word opens with rfl | rfl <;> decide
  | mark => cases opens
  | _ => exact ⟨⟨rfl, rfl⟩, nofun⟩

/-- An element begins with a term, a keyword or a brace. -/
theorem Element.starts_lexemes {element : Element} (complete : element.Complete) :
    Starts (fun token => EndsElement token ∧ token ≠ .mark "\x7d") (visible element.lexemes) := by
  cases element with
  | triple triple =>
    rw [lexemes, TriplePattern.lexemes, visible_tripleLexemes]
    exact (triple.subject.starts_lexemes.mono endsElement_of_opensTerm).append _
  | union branches =>
    obtain ⟨branch, rest, rfl⟩ :=
      List.exists_cons_of_ne_nil ((complete_union branches).1 complete).1
    rw [lexemes, branchLexemes, visible_separated, Lexeme.visible_block]
    exact starts_cons (by decide)
  | filter condition =>
    rcases lexemes_filter condition with written | written
    · rw [written]
      exact starts_cons (by decide)
    · rw [written]
      exact starts_cons (by decide)
  | values data =>
    rw [lexemes, Data.lexemes]
    split <;> exact starts_cons (by decide)
  | optional | group | bind | service | select => exact starts_cons (by decide)

namespace Grammar.Reads

variable {grammar : Grammar} {size : Nat} (reads : grammar.Reads size)

include reads

/-- A value and the variable that it is given to. -/
theorem takes_named {value : Expression} {target : Variable} (complete : value.Complete)
    (passes : Inspection.grammatical.passes value = true)
    (bounded : (visible value.lexemes).length ≤ size) :
    Takes grammar.named
      (visible (value.lexemes ++ [.space, .word "AS", .space, .var target]) ++ [.mark ")"])
      (value.normal, target) more := by
  have inner : Takes grammar.expression (visible value.lexemes) value.normal
      (.word "AS" :: .var target :: .mark ")" :: more) :=
    reads.expression value complete passes bounded _ (ahead_cons (by decide))
  rw [Lexeme.visible_append, List.append_assoc]
  exact Takes.bind inner (Takes.demanded rfl rfl (Takes.bind (takes_name target)
    ((takes_mark rfl).returns rfl)))

/-- A group, or a union of groups, after its first brace. -/
theorem takes_unionFrom {first : Group} {others : List Group}
    (complete : ∀ branch ∈ first :: others, Group.Complete branch)
    (passes : Inspection.grammatical.passesBranches (first :: others) = true)
    (bounded : ∀ branch ∈ first :: others, (visible (Group.lexemes branch)).length ≤ size + 1)
    (ahead : Ahead EndsElement more) :
    Takes grammar.unionFrom (Group.shown first ++
        others.flatMap fun branch => .word "UNION" :: visible (Group.lexemes branch))
      (Element.united (normalBranches (first :: others))) more := by
  rw [Inspection.passesBranches_eq, List.all_eq_true] at passes
  rw [List.forall_mem_cons] at complete passes bounded
  have single := Nat.le_of_succ_le_succ ((Group.visible_lexemes first) ▸ bounded.1)
  have several : TakesMany (behind .operand (Token.word? "UNION") grammar.group) more
      (others.flatMap fun branch => .word "UNION" :: visible (Group.lexemes branch))
      (others.map normalGroup) :=
    takesMany_behind (fun _ => True) _ normalGroup rfl rfl trivial
      (fun branch member more _ => reads.takes_group (complete.2 branch member)
        (passes.2 branch member) (bounded.2 branch member)) (fun _ _ => trivial)
      (takes_refused (ahead.mono fun _ => And.left) (fun _ => rfl) nofun)
  refine Takes.bind (reads.group first complete.1 passes.1 single _) (several.many.returns ?_)
  rw [normalBranches_eq]
  cases others <;> rfl

theorem takes_filter {condition : Expression} (complete : condition.Complete)
    (passes : Inspection.grammatical.passes condition = true)
    (bounded : (visible (Element.filter condition).lexemes).length ≤ size + 1) :
    Takes grammar.element (visible (Element.filter condition).lexemes) (.filter condition.normal)
      more := by
  have parenthesised
      (written : (Element.filter condition).lexemes =
        .word "FILTER" :: Lexeme.parenthesised condition.lexemes) :
      Takes grammar.element (visible (Element.filter condition).lexemes) (.filter condition.normal)
        more := by
    rw [written] at bounded ⊢
    rw [Lexeme.visible_word, Lexeme.visible_parenthesised, List.length_cons, List.length_cons,
      List.length_append] at bounded
    exact takes_token rfl ((reads.takes_parenthesis complete passes (by omega)).returns rfl)
  cases condition with
  | «exists» pattern =>
    rw [Inspection.passes, Bool.and_eq_true] at passes
    have inner : Takes grammar.primary (visible (Expression.exists pattern).lexemes)
        (Expression.exists pattern).normal more :=
      reads.takes_exists ((Expression.complete_exists _).1 complete) passes.2
        (Nat.le_of_succ_le bounded)
    exact takes_token rfl (inner.returns rfl)
  | notExists pattern =>
    rw [Inspection.passes, Bool.and_eq_true] at passes
    have inner : Takes grammar.primary (visible (Expression.notExists pattern).lexemes)
        (Expression.notExists pattern).normal more :=
      reads.takes_notExists ((Expression.complete_notExists _).1 complete) passes.2
        (Nat.le_of_succ_le bounded)
    exact takes_token rfl (inner.returns rfl)
  | _ => exact parenthesised rfl

/-- An element that begins with a term is a triple. -/
theorem takes_triple {triple : TriplePattern} (complete : triple.verb.Complete)
    (bounded : (visible triple.lexemes).length ≤ size + 1) :
    Takes grammar.element (visible triple.lexemes) (.triple triple.normal) more := by
  obtain ⟨first, rest, written, opens, takes⟩ := reads.takes_tripleFrom complete bounded
  rw [written]
  refine takes_token (fits_of_opensTerm opens) ?_
  cases first with
  | word text =>
    rcases opensLiteral_word opens with rfl | rfl <;> exact (takes more).returns rfl
  | mark => cases opens
  | _ => exact (takes more).returns rfl

theorem takes_element {element : Element} (complete : element.Complete)
    (passes : Inspection.grammatical.passesElement element = true)
    (bounded : (visible element.lexemes).length ≤ size + 1) (ahead : Ahead EndsElement more) :
    Takes grammar.element (visible element.lexemes) element.normal more := by
  cases element with
  | triple triple => exact reads.takes_triple complete bounded
  | filter condition => exact reads.takes_filter complete passes bounded
  | optional pattern =>
    have inner : Takes grammar.group (visible (Group.lexemes pattern)) (normalGroup pattern) more :=
      reads.takes_group ((Element.complete_optional pattern).1 complete) passes
        (Nat.le_of_succ_le bounded)
    exact takes_token rfl (inner.returns rfl)
  | group pattern =>
    have members := List.forall_mem_singleton.2 ((Element.complete_group pattern).1 complete)
    have inner := reads.takes_unionFrom members (by rwa [Inspection.passesBranches_eq,
      List.all_cons, List.all_nil, Bool.and_true]) (List.forall_mem_singleton.2 bounded) ahead
    rw [List.flatMap_nil, List.append_nil] at inner
    rw [Element.lexemes, Lexeme.visible_block]
    exact takes_token rfl inner
  | union branches =>
    obtain ⟨nonempty, members⟩ := (Element.complete_union branches).1 complete
    obtain ⟨first, others, rfl⟩ := List.exists_cons_of_ne_nil nonempty
    rw [Element.lexemes, branchLexemes_eq] at bounded ⊢
    have inner := reads.takes_unionFrom members passes (fun branch member =>
      Nat.le_trans (length_le_separated member) bounded) ahead
    rw [List.map_cons, visible_separated, Group.visible_lexemes, List.flatMap_map]
    exact takes_token rfl inner
  | values data =>
    obtain ⟨tokens, written, takes⟩ := takes_data complete passes
    rw [Element.lexemes, written]
    exact takes_token rfl ((takes more).returns rfl)
  | bind value target =>
    have written : visible (Element.bind value target).lexemes = .word "BIND" :: .mark "(" ::
        (visible (value.lexemes ++ [.space, .word "AS", .space, .var target]) ++ [.mark ")"]) := by
      rw [Element.lexemes, Lexeme.visible_word, Lexeme.visible_parenthesised]
    rw [written] at bounded ⊢
    simp only [List.length_cons, List.length_append, Lexeme.visible_append] at bounded
    exact takes_token rfl (Takes.bind (takes_mark rfl)
      ((reads.takes_named complete passes (by omega)).returns rfl))
  | service name silent pattern =>
    have members := (Element.complete_service name silent pattern).1 complete
    have inner (bounded : (visible (Group.lexemes pattern)).length ≤ size + 1) :
        Takes grammar.group (visible (Group.lexemes pattern)) (normalGroup pattern) more :=
      reads.takes_group members passes bounded
    cases silent with
    | true =>
      have further := inner (Nat.le_of_succ_le (Nat.le_of_succ_le (Nat.le_of_succ_le bounded)))
      exact takes_token rfl (Takes.accepted rfl rfl (Takes.demanded rfl rfl (further.returns rfl)))
    | false =>
      have further := inner (Nat.le_of_succ_le (Nat.le_of_succ_le bounded))
      exact takes_token rfl (Takes.refused (ahead_cons rfl) (fun _ => rfl)
        (Takes.demanded rfl rfl (further.returns rfl)))
  | select query =>
    have written : visible (Element.select query).lexemes =
        .mark "\x7b" :: (visible query.lexemes ++ [.mark "\x7d"]) := by
      rw [Element.lexemes, Lexeme.visible_block, List.flatMap_singleton]
    rw [written] at bounded ⊢
    rw [List.length_cons, List.length_append] at bounded
    have alone : TakesMany (behind .operand (Token.word? "UNION") grammar.group) more [] [] :=
      .last (Takes.refused (ahead.mono fun _ => And.left) (fun _ => rfl) (takes_pure none))
    rw [← List.append_nil (visible query.lexemes ++ _)]
    exact takes_token rfl (Takes.bind
      (reads.select query complete passes (Nat.le_of_succ_le_succ bounded) _)
      (alone.many.returns rfl))

end Grammar.Reads

/-! ### Modifiers -/

/-- The tokens that may follow a clause of a modifier: a brace, or some of the later clauses. -/
abbrev clauseEnds (keywords : List String) : List Token :=
  .mark "\x7d" :: keywords.map .word

/-- What may follow a clause may follow the one before, and so may the clause. -/
theorem ahead_clause {keyword : String} {keywords : List String} {words content : List Lexeme}
    (ahead : Ahead (· ∈ clauseEnds keywords) more) :
    Ahead (· ∈ clauseEnds (keyword :: keywords))
      (visible (clauseLexemes (.word keyword :: words) content) ++ more) := by
  unfold clauseLexemes
  split
  · refine ahead.mono fun token member => ?_
    exact (List.mem_cons.1 member).elim (fun same => same ▸ List.mem_cons_self)
      fun later => List.mem_cons_of_mem _ (List.mem_cons_of_mem _ later)
  · exact ahead_cons (List.mem_cons_of_mem _ List.mem_cons_self)

theorem ahead_slice {keyword : String} {keywords : List String} {count : Option Nat}
    (ahead : Ahead (· ∈ clauseEnds keywords) more) :
    Ahead (· ∈ clauseEnds (keyword :: keywords))
      (visible (sliceLexemes keyword count) ++ more) := by
  cases count with
  | none => exact @ahead_clause _ _ _ [] [] ahead
  | some count => exact ahead_clause ahead

theorem visible_clause {words content : List Lexeme} (nonempty : content ≠ []) :
    visible (clauseLexemes words content) = visible words ++ visible content := by
  rw [clauseLexemes, if_neg fun empty => nonempty (List.isEmpty_iff.1 empty),
    List.cons_append, Lexeme.visible_newLine, Lexeme.visible_append]

theorem length_le_clause (words content : List Lexeme) :
    (visible content).length ≤ (visible (clauseLexemes words content)).length := by
  by_cases empty : content = []
  · rw [empty]
    exact Nat.zero_le _
  · rw [visible_clause empty, List.length_append]
    exact Nat.le_add_left _ _

theorem separated_ne_nil {separator part : List Lexeme} {parts : List (List Lexeme)}
    (nonempty : part ≠ []) : Lexeme.separated separator (part :: parts) ≠ [] := by
  obtain ⟨others, written⟩ := Lexeme.separated_cons separator part parts
  rw [written]
  exact List.append_ne_nil_of_left_ne_nil nonempty others

/-- The names that solutions are grouped by. -/
theorem takes_groupBy {names : List Variable}
    (ahead : Ahead (· ∈ clauseEnds ["ORDER", "LIMIT", "OFFSET"]) more) : ∃ found,
    Takes (clause "GROUP" do word "BY"; many (accept .operand Token.name?))
      (visible (clauseLexemes [.word "GROUP", .space, .word "BY", .space] (variableLexemes names)))
      found more ∧ found.getD [] = names := by
  cases names with
  | nil =>
    exact ⟨none, Takes.refused (ahead.mono (by decide)) (fun _ => rfl) (takes_pure none), rfl⟩
  | cons name rest =>
    refine ⟨some (name :: rest), ?_, rfl⟩
    have several : TakesMany (accept .operand Token.name?) more
        ((name :: rest).flatMap (fun found => [.var found]) ++ []) ((name :: rest).map id) :=
      takesMany_each (fun _ => True) _ id (fun _ _ _ _ => takes_accept rfl rfl)
        (fun _ _ => starts_cons trivial) (fun _ _ => trivial)
        (takes_refused (ahead.mono (by decide)) (fun _ => rfl) nofun)
    have nonempty : variableLexemes (name :: rest) ≠ [] := separated_ne_nil (List.cons_ne_nil _ _)
    rw [visible_clause nonempty, variableLexemes, Lexeme.visible_separated_space, List.flatMap_map]
    rw [List.append_nil, List.map_id] at several
    exact takes_behind rfl rfl (Takes.demanded rfl rfl several.many)

theorem natural?_toString (count : Nat) :
    Token.natural? (.number (toString count)) = some count := by
  have digits : (Nat.toDigits 10 count).all Char.isDigit = true :=
    List.all_eq_true.2 fun _ member => Nat.isDigit_of_mem_toDigits (by decide) (by decide) member
  rw [Token.natural?, Nat.toString_eq_repr, Nat.toList_repr, if_pos digits,
    Nat.ofDigitChars_toDigits (by decide) (by decide)]

/-- A count of solutions, if there is one. -/
theorem takes_slice {keyword : String} {count : Option Nat}
    (known : Token.word? keyword (.word keyword) = some ())
    (refused : Ahead (fun token => Token.word? keyword token = none) more) :
    Takes (clause keyword (demand .operand Token.natural?)) (visible (sliceLexemes keyword count))
      count more := by
  cases count with
  | none => exact Takes.refused refused (fun _ => rfl) (takes_pure none)
  | some count => exact takes_behind rfl known (takes_demand rfl (natural?_toString count))

namespace Grammar.Reads

variable {grammar : Grammar} {size : Nat} (reads : grammar.Reads size)

include reads

theorem takes_criterion {criterion : OrderCondition} (complete : criterion.Complete)
    (passes : Inspection.grammatical.passesCriterion criterion = true)
    (bounded : (visible criterion.lexemes).length ≤ size) :
    Takes grammar.criterion (visible criterion.lexemes) (some criterion.normal) more := by
  have keyed {key : Expression} {word : Lexeme} (complete : key.Complete)
      (passes : Inspection.grammatical.passes key = true)
      (bounded : (visible (callLexemes word key.lexemes)).length ≤ size) :
      Takes (parenthesised grammar.expression) (visible (Lexeme.parenthesised key.lexemes))
        key.normal more := by
    rw [callLexemes, Lexeme.visible_cons, Lexeme.visible_parenthesised, List.length_append,
      List.length_cons, List.length_append] at bounded
    rw [Lexeme.visible_parenthesised]
    exact takes_parenthesised (reads.expression key complete passes (by omega) _
      (ahead_cons (by decide)))
  cases criterion with
  | ascending key => exact Takes.accepted rfl rfl ((keyed complete passes bounded).returns rfl)
  | descending key => exact Takes.accepted rfl rfl ((keyed complete passes bounded).returns rfl)

/-- The criteria that solutions are ordered by. -/
theorem takes_orderBy {criteria : List OrderCondition}
    (complete : ∀ criterion ∈ criteria, criterion.Complete)
    (passes : Inspection.grammatical.passesCriteria criteria = true)
    (bounded : (visible (Lexeme.separated [.space] (criterionLexemes criteria))).length ≤ size)
    (ahead : Ahead (· ∈ clauseEnds ["LIMIT", "OFFSET"]) more) : ∃ found,
    Takes (clause "ORDER" do word "BY"; many grammar.criterion)
      (visible (clauseLexemes [.word "ORDER", .space, .word "BY", .space]
        (Lexeme.separated [.space] (criterionLexemes criteria))))
      found more ∧ found.getD [] = normalCriteria criteria := by
  rw [Inspection.passesCriteria_eq, List.all_eq_true] at passes
  rw [criterionLexemes_eq] at bounded ⊢
  rw [normalCriteria_eq]
  cases criteria with
  | nil =>
    exact ⟨none, Takes.refused (ahead.mono (by decide)) (fun _ => rfl) (takes_pure none), rfl⟩
  | cons criterion rest =>
    refine ⟨some ((criterion :: rest).map OrderCondition.normal), ?_, rfl⟩
    have several : TakesMany grammar.criterion more
        ((criterion :: rest).flatMap (fun found => visible found.lexemes) ++ [])
        ((criterion :: rest).map OrderCondition.normal) :=
      takesMany_each (fun _ => True) _ _ (fun found member _ _ =>
          reads.takes_criterion (complete found member) (passes found member)
            (Nat.le_trans (length_le_separated member) bounded))
        (fun found _ => by cases found <;> exact starts_cons trivial) (fun _ _ => trivial)
        (Takes.refused (ahead.mono (by decide)) (fun _ => rfl) (takes_pure none))
    have nonempty :
        Lexeme.separated [.space] ((criterion :: rest).map OrderCondition.lexemes) ≠ [] :=
      separated_ne_nil (by cases criterion <;> exact List.cons_ne_nil _ _)
    rw [visible_clause nonempty, Lexeme.visible_separated_space, List.flatMap_map]
    rw [List.append_nil] at several
    exact takes_behind rfl rfl (Takes.demanded rfl rfl several.many)

theorem takes_modifier {modifier : Modifier} (complete : modifier.Complete)
    (passes : Inspection.grammatical.passesModifier modifier = true)
    (bounded : (visible modifier.lexemes).length ≤ size) (ahead : Ahead (· ∈ clauseEnds []) more) :
    Takes grammar.modifier (visible modifier.lexemes) modifier.normal more := by
  obtain ⟨groupBy, orderBy, limit, offset⟩ := modifier
  have slices : Ahead (· ∈ clauseEnds ["OFFSET"])
      (visible (sliceLexemes "OFFSET" offset) ++ more) := ahead_slice ahead
  have limits : Ahead (· ∈ clauseEnds ["LIMIT", "OFFSET"])
      (visible (sliceLexemes "LIMIT" limit) ++ visible (sliceLexemes "OFFSET" offset) ++ more) := by
    rw [List.append_assoc]
    exact ahead_slice slices
  have orders : Ahead (· ∈ clauseEnds ["ORDER", "LIMIT", "OFFSET"])
      (visible (clauseLexemes [.word "ORDER", .space, .word "BY", .space]
        (Lexeme.separated [.space] (criterionLexemes orderBy))) ++
        (visible (sliceLexemes "LIMIT" limit) ++ visible (sliceLexemes "OFFSET" offset)) ++
        more) := by
    rw [List.append_assoc]
    exact ahead_clause limits
  rw [Modifier.lexemes] at bounded ⊢
  simp only [Lexeme.visible_append, List.append_assoc, List.length_append] at bounded ⊢
  have inside := Nat.le_trans (length_le_clause _ _) (by omega : (visible (clauseLexemes
    [.word "ORDER", .space, .word "BY", .space]
    (Lexeme.separated [.space] (criterionLexemes orderBy)))).length ≤ size)
  obtain ⟨groups, readGroups, namesFound⟩ := @takes_groupBy _ groupBy orders
  obtain ⟨criteria, readCriteria, criteriaFound⟩ :=
    reads.takes_orderBy complete passes inside limits
  refine Takes.bind readGroups (Takes.bind readCriteria
    (Takes.bind (takes_slice rfl (slices.mono (by decide)))
      ((takes_slice rfl (ahead.mono (by decide))).returns ?_)))
  rw [namesFound, criteriaFound, Modifier.normal]

/-! ### Selections -/

theorem takes_column {column : Projection} (complete : column.Complete)
    (passes : Inspection.grammatical.passesColumn column = true)
    (bounded : (visible column.lexemes).length ≤ size) :
    Takes grammar.column (visible column.lexemes) (some column.normal) more := by
  cases column with
  | var name => exact Takes.accepted rfl rfl (takes_pure _)
  | expression value target =>
    rw [Projection.lexemes, Lexeme.visible_parenthesised] at bounded ⊢
    simp only [List.length_cons, List.length_append, Lexeme.visible_append] at bounded
    exact Takes.refused (ahead_cons rfl) (fun _ => rfl) (Takes.accepted rfl rfl
      ((reads.takes_named complete passes (by omega)).returns rfl))

/-- The columns of a selection, in front of its pattern. -/
theorem takes_columns {columns : List Projection} (complete : ∀ column ∈ columns, column.Complete)
    (passes : Inspection.grammatical.passesColumns columns = true)
    (bounded : (visible (Lexeme.separated [.space] (columnLexemes columns))).length ≤ size) :
    Takes grammar.projection (visible (Lexeme.separated [.space] (columnLexemes columns)))
      (some (normalColumns columns)) (.word "WHERE" :: more) := by
  rw [Inspection.passesColumns_eq, List.all_eq_true] at passes
  rw [columnLexemes_eq] at bounded ⊢
  rw [normalColumns_eq]
  have starts (column : Projection) :
      Starts (fun token => Token.mark? "*" token = none) (visible column.lexemes) := by
    cases column <;> exact starts_cons rfl
  have several : TakesMany grammar.column (.word "WHERE" :: more)
      (columns.flatMap (fun column => visible column.lexemes) ++ [])
      (columns.map Projection.normal) :=
    takesMany_each (fun _ => True) _ _ (fun column member _ _ =>
        reads.takes_column (complete column member) (passes column member)
          (Nat.le_trans (length_le_separated member) bounded))
      (fun column _ => (starts column).mono fun _ _ => trivial) (fun _ _ => trivial)
      (Takes.refused (ahead_cons rfl) (fun _ => rfl)
        (Takes.refused (ahead_cons rfl) (fun _ => rfl) (takes_pure none)))
  rw [List.append_nil] at several
  rw [Lexeme.visible_separated_space, List.flatMap_map]
  exact Takes.refused (ahead_flatMap (fun column _ => starts column) (ahead_cons rfl))
    (fun _ => rfl) (several.many.returns rfl)

/-- What is read of a selection after its keyword. -/
theorem takes_selection {distinct : Bool} {columns : List Lexeme}
    {projection : Option (List Projection)} {pattern : Group} {modifier : Modifier}
    (refused : ∀ more, Ahead (fun token => Token.word? "DISTINCT" token = none)
      (visible columns ++ .word "WHERE" :: more))
    (takes : ∀ more, Takes grammar.projection (visible columns) projection (.word "WHERE" :: more))
    (complete : pattern.Complete ∧ modifier.Complete)
    (passes : Inspection.grammatical.passesGroup pattern = true ∧
      Inspection.grammatical.passesModifier modifier = true)
    (bounded : (visible pattern.lexemes).length ≤ size + 1 ∧
      (visible modifier.lexemes).length ≤ size) (ahead : Ahead (· ∈ clauseEnds []) more) :
    Takes grammar.select (visible (distinctLexemes distinct columns) ++
        .word "WHERE" :: (visible pattern.lexemes ++ visible modifier.lexemes))
      ⟨distinct, projection, normalGroup pattern, modifier.normal⟩ more := by
  have rest (found : Option Unit) : Takes (do
      let projection ← grammar.projection
      word "WHERE"
      let pattern ← grammar.group
      let modifier ← grammar.modifier
      return ⟨found.isSome, projection, pattern, modifier⟩)
      (visible columns ++ .word "WHERE" :: (visible pattern.lexemes ++ visible modifier.lexemes))
      (⟨found.isSome, projection, normalGroup pattern, modifier.normal⟩ : Select) more :=
    Takes.bind (takes _) (Takes.demanded rfl rfl
      (Takes.bind (reads.takes_group complete.1 passes.1 bounded.1)
        ((reads.takes_modifier complete.2 passes.2 bounded.2 ahead).returns rfl)))
  cases distinct with
  | true => exact Takes.accepted rfl rfl (rest (some ()))
  | false =>
    refine Takes.refused ?_ (fun _ => rfl) (rest none)
    rw [distinctLexemes, if_neg (by decide), List.nil_append, List.append_assoc]
    exact refused _

omit reads in
theorem visible_select {lexemes columns : List Lexeme} {distinct : Bool} {pattern : Group}
    {modifier : Modifier} (written : lexemes = [.word "SELECT", .space] ++
      distinctLexemes distinct columns ++ [.newLine, .word "WHERE", .space] ++ pattern.lexemes ++
      modifier.lexemes) :
    visible lexemes = .word "SELECT" :: (visible (distinctLexemes distinct columns) ++
      .word "WHERE" :: (visible pattern.lexemes ++ visible modifier.lexemes)) := by
  simp [written]

theorem takes_select {query : Select} (complete : query.defects = [])
    (passes : Inspection.grammatical.passesSelect query = true)
    (bounded : (visible query.lexemes).length ≤ size) (ahead : Ahead (· ∈ clauseEnds []) more) :
    ∃ tokens, visible query.lexemes = .word "SELECT" :: tokens ∧
      Takes grammar.select tokens query.normal more := by
  obtain ⟨distinct, projection, pattern, modifier⟩ := query
  cases projection with
  | none =>
    rw [Select.defects, List.nil_append, List.append_eq_nil_iff, groupDefects_eq_nil,
      Modifier.defects_eq_nil] at complete
    rw [Inspection.passesSelect, Bool.and_eq_true] at passes
    have written := @visible_select (Select.lexemes ⟨distinct, none, pattern, modifier⟩)
      [.mark "*"] distinct pattern modifier (by rw [Select.lexemes, Group.lexemes])
    rw [written] at bounded ⊢
    simp only [List.length_cons, List.length_append] at bounded
    exact ⟨_, rfl, reads.takes_selection (fun _ => ahead_cons rfl)
      (fun _ => Takes.accepted rfl rfl (takes_pure none)) complete passes
      ⟨by omega, by omega⟩ ahead⟩
  | some columns =>
    rw [Select.defects, List.append_assoc, List.append_eq_nil_iff, List.append_eq_nil_iff,
      groupDefects_eq_nil, Modifier.defects_eq_nil] at complete
    have members := columnDefects_eq_nil.1 (of_written complete.1).2
    rw [Inspection.passesSelect, Bool.and_eq_true, Bool.and_eq_true] at passes
    have written := @visible_select (Select.lexemes ⟨distinct, some columns, pattern, modifier⟩)
      (Lexeme.separated [.space] (columnLexemes columns)) distinct pattern modifier
      (by rw [Select.lexemes, Group.lexemes])
    rw [written] at bounded ⊢
    simp only [List.length_cons, List.length_append, distinctLexemes,
      Lexeme.visible_append] at bounded
    refine ⟨_, rfl, reads.takes_selection (fun more => ?_)
      (fun _ => reads.takes_columns members passes.1.1 (by omega)) complete.2 ⟨passes.1.2, passes.2⟩
      ⟨by omega, by omega⟩ ahead⟩
    rw [columnLexemes_eq, Lexeme.visible_separated_space, List.flatMap_map]
    refine ahead_flatMap (fun column _ => ?_) (ahead_cons rfl)
    cases column <;> exact starts_cons rfl

/-! ### What stands between braces -/

theorem takes_contentOfGroup {group : Group} (complete : group.Complete)
    (passes : Inspection.grammatical.passesGroup group = true)
    (bounded : group.shown.length ≤ size + 1) :
    Takes grammar.content group.shown (.group (normalGroup group)) more := by
  rw [Inspection.passesGroup_eq, List.all_eq_true] at passes
  have fits (element : Element) (member : element ∈ group) :
      (visible element.lexemes).length ≤ size + 1 := by
    have inside := (List.sublist_flatten_of_mem (List.mem_map_of_mem
      (f := fun element : Element => visible element.lexemes) member)).length_le
    rw [Group.shown, lineLexemes_eq, List.flatMap_map, List.length_append,
      List.flatMap_def] at bounded
    exact Nat.le_trans inside (Nat.le_of_add_right_le bounded)
  have starts (element : Element) (member : element ∈ group) :=
    Element.starts_lexemes (complete element member)
  have elements : Takes (upTo "\x7d" grammar.element)
      (group.flatMap (fun element => visible element.lexemes) ++ [.mark "\x7d"])
      (group.map Element.normal) more :=
    takes_upTo EndsElement _ _ rfl (fun element member more ahead =>
      reads.takes_element (complete element member) (passes element member) (fits element member)
        ahead) starts (by decide)
  rw [Group.shown, lineLexemes_eq, List.flatMap_map, normalGroup_eq]
  refine Takes.refused ?_ (fun _ => rfl) (elements.returns rfl)
  rw [List.append_assoc]
  exact ahead_flatMap (fun element member =>
    (starts element member).mono fun _ passes => passes.1.2) (ahead_cons rfl)

theorem takes_contentOfSelect {query : Select} (complete : query.defects = [])
    (passes : Inspection.grammatical.passesSelect query = true)
    (bounded : (visible query.lexemes).length ≤ size) :
    Takes grammar.content (visible query.lexemes ++ [.mark "\x7d"]) (.select query.normal)
      more := by
  have closed : Ahead (· ∈ clauseEnds []) (.mark "\x7d" :: more) := ahead_cons (by decide)
  obtain ⟨tokens, written, takes⟩ := reads.takes_select complete passes bounded closed
  rw [written]
  exact Takes.accepted rfl rfl (takes.bind ((takes_mark rfl).returns rfl))

/-- The rules on top of those that read everything up to a size read what is a little larger. -/
theorem step : (⟨grammar.disjunction, grammar.alternativePath, grammar.content⟩ : Grammar).Reads
    (size + 1) where
  path _ complete bounded _ ahead := reads.takes_path complete bounded ahead
  expression _ complete passes bounded _ ahead :=
    reads.takes_expression complete passes bounded ahead
  group _ complete passes bounded _ :=
    reads.takes_contentOfGroup complete passes bounded
  select _ complete passes bounded _ :=
    reads.takes_contentOfSelect complete passes (Nat.le_of_succ_le_succ bounded)

end Grammar.Reads

theorem Reader.Starts.not_length_le_zero {passes : Token → Prop} {tokens : List Token}
    (starts : Starts passes tokens) : ¬ tokens.length ≤ 0 :=
  Nat.not_le.2 (List.length_pos_iff.2 starts.ne_nil)

/-- Nothing is as small as nothing. -/
theorem Grammar.reads_zero (grammar : Grammar) : grammar.Reads 0 where
  path path complete bounded := absurd bounded (path.starts_lexemes complete).not_length_le_zero
  expression _ complete _ bounded :=
    absurd bounded (Expression.starts_lexemes complete).not_length_le_zero
  group _ _ _ bounded := absurd (List.length_eq_zero_iff.1 (Nat.le_zero.1 bounded))
    (List.append_ne_nil_of_right_ne_nil _ (List.cons_ne_nil _ _))
  select _ _ _ bounded := absurd bounded (Nat.not_succ_le_zero _)

/-- The rules for some depth read everything up to a size. -/
theorem grammar_reads (depth : Nat) : (grammar depth).Reads depth := by
  induction depth with
  | zero => exact Grammar.reads_zero _
  | succ depth inductionHypothesis => exact inductionHypothesis.step

end ShapeQuery.Sparql
