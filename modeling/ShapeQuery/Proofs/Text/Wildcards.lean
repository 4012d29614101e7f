/-
This file proves that the regular expression of a pattern with wildcards matches what the pattern
matches. What a pattern matches is told by rules of its own, which know nothing of regular
expressions. In between stand the pieces of the regular expression: the text of the expression is
read back as these pieces, and the pieces match one after another what the pattern asks for.
-/
import ShapeQuery.Proofs.Text.Regex

namespace ShapeQuery.Text

/-! ### Patterns -/

/-- What a pattern matches. Which characters are the same, and for which ones a wildcard stands, is
left to a reading. -/
inductive WildcardMatches (reading : Reading) : List Char → List Char → Prop where
  | nil : WildcardMatches reading [] []
  /-- A percent sign stands for any number of characters. -/
  | several {pattern run text : List Char} : (∀ found ∈ run, reading.any found) →
      WildcardMatches reading pattern text →
        WildcardMatches reading ('%' :: pattern) (run ++ text)
  /-- A low line stands for exactly one. -/
  | single {pattern text : List Char} {found : Char} : reading.any found →
      WildcardMatches reading pattern text →
        WildcardMatches reading ('_' :: pattern) (found :: text)
  /-- After a backslash every character stands for itself. -/
  | escaped {pattern text : List Char} {wanted found : Char} : reading.same wanted found →
      WildcardMatches reading pattern text →
        WildcardMatches reading ('\\' :: wanted :: pattern) (found :: text)
  /-- A backslash at the end stands for itself. -/
  | backslash {found : Char} : reading.same '\\' found → WildcardMatches reading ['\\'] [found]
  /-- So does every other character. -/
  | itself {pattern text : List Char} {wanted found : Char} : wanted ∉ ['%', '_', '\\'] →
      reading.same wanted found → WildcardMatches reading pattern text →
        WildcardMatches reading (wanted :: pattern) (found :: text)

/-- The reading that takes a character for itself only. -/
def Reading.exact (any : Char → Prop) : Reading where
  same := Eq
  any := any

/-! ### Pieces -/

variable {reading : Reading} {before matched after : List Char}

theorem matches_append {first second : List Piece} :
    Matches reading before matched after (first ++ second) ↔
      ∃ front back, matched = front ++ back ∧
        Matches reading before front (back ++ after) first ∧
        Matches reading (before ++ front) back after second := by
  induction first generalizing before matched with
  | nil =>
    constructor
    · intro all
      exact ⟨[], matched, rfl, rfl, (List.append_nil before).symm ▸ all⟩
    · rintro ⟨_, back, rfl, rfl, all⟩
      rwa [List.append_nil] at all
  | cons piece rest inductionHypothesis =>
    simp only [List.cons_append, Matches, inductionHypothesis]
    constructor
    · rintro ⟨own, _, rfl, matches', front, back, rfl, further, all⟩
      refine ⟨own ++ front, back, (List.append_assoc ..).symm, ⟨own, front, rfl, ?_, further⟩, ?_⟩
      · rwa [← List.append_assoc]
      · rwa [← List.append_assoc]
    · rintro ⟨_, back, rfl, ⟨own, front, rfl, matches', further⟩, all⟩
      refine ⟨own, front ++ back, List.append_assoc .., ?_, front, back, rfl, further, ?_⟩
      · rwa [List.append_assoc]
      · rwa [List.append_assoc]

/-- Repeating a wildcard takes any number of the characters for which it stands. -/
theorem repeats_any :
    Repeats (fun before matched after => Atom.any.Matches reading before matched after)
        before matched after ↔
      ∀ found ∈ matched, reading.any found := by
  constructor
  · intro repeats
    induction repeats with
    | done => exact fun _ member => absurd member List.not_mem_nil
    | next step _ inductionHypothesis =>
      obtain ⟨found, rfl, known⟩ := step
      exact List.forall_mem_cons.2 ⟨known, inductionHypothesis⟩
  · intro known
    induction matched generalizing before with
    | nil => exact .done before after
    | cons found rest inductionHypothesis =>
      rw [List.forall_mem_cons] at known
      exact @Repeats.next _ before [found] rest after ⟨found, rfl, known.1⟩
        (inductionHypothesis known.2)

/-! ### The pieces of a pattern -/

/-- The pieces of the regular expression of a pattern, less the ends of the text. -/
def wildcardPieces : List Char → List Piece
  | [] => []
  | ['\\'] => [⟨.character '\\', .once⟩]
  | '\\' :: character :: rest => ⟨.character character, .once⟩ :: wildcardPieces rest
  | '%' :: rest => ⟨.any, .repeated⟩ :: wildcardPieces rest
  | '_' :: rest => ⟨.any, .once⟩ :: wildcardPieces rest
  | character :: rest => ⟨.character character, .once⟩ :: wildcardPieces rest

/-- The text of a pattern's regular expression is read as its pieces. -/
theorem symbols_wildcardParts (pattern rest : List Char) :
    symbols? (wildcardParts pattern ++ rest) =
      (symbols? rest).map ((wildcardPieces pattern).flatMap Piece.symbols ++ ·) := by
  have itself {character : Char} {pattern : List Char}
      (further : symbols? (wildcardParts pattern ++ rest) =
        (symbols? rest).map ((wildcardPieces pattern).flatMap Piece.symbols ++ ·)) :
      symbols? (escapeRegexCharacter character ++ wildcardParts pattern ++ rest) =
        (symbols? rest).map ((⟨.character character, .once⟩ :: wildcardPieces pattern).flatMap
          Piece.symbols ++ ·) := by
    rw [List.append_assoc, symbols_escapeRegexCharacter, further, Option.map_map]
    rfl
  fun_induction wildcardParts pattern with
  | case1 => exact (congrFun Option.map_id _).symm
  | case2 => exact symbols_escapeRegexCharacter _ _
  | case3 character pattern inductionHypothesis => exact itself inductionHypothesis
  | case4 pattern inductionHypothesis =>
    rw [List.cons_append, List.cons_append, @symbols_cons '.' (.atom .any) rfl,
      @symbols_cons '*' (.quantity .repeated) rfl, inductionHypothesis, Option.map_map,
      Option.map_map]
    rfl
  | case5 pattern inductionHypothesis =>
    rw [List.cons_append, @symbols_cons '.' (.atom .any) rfl, inductionHypothesis, Option.map_map]
    rfl
  | case6 character pattern notLast notEscape notSeveral notSingle inductionHypothesis =>
    rw [wildcardPieces]
    · exact itself inductionHypothesis
    · exact notLast
    · exact notEscape
    · exact notSeveral
    · exact notSingle

/-- The regular expression of a pattern asks for its pieces from the start to the end of a text. -/
theorem regex_wildcardRegex (pattern : String) :
    regex? (wildcardRegex pattern) =
      some (⟨.start, .once⟩ :: (wildcardPieces pattern.toList ++ [⟨.finish, .once⟩])) := by
  rw [regex?, wildcardRegex, String.toList_ofList, List.cons_append,
    @symbols_cons '^' (.atom .start) rfl, symbols_wildcardParts,
    @symbols_cons '$' (.atom .finish) rfl]
  have pieces := pieces_symbols
    (⟨.start, .once⟩ :: (wildcardPieces pattern.toList ++ [⟨.finish, .once⟩]))
  rw [List.flatMap_cons, List.flatMap_append] at pieces
  exact pieces

/-! ### What the pieces match -/

/-- The pieces of a pattern match what the pattern does, wherever that stands. -/
theorem matches_wildcardPieces (pattern : List Char) :
    Matches reading before matched after (wildcardPieces pattern) ↔
      WildcardMatches reading pattern matched := by
  fun_induction wildcardPieces pattern generalizing before matched with
  | case1 =>
    constructor
    · rintro rfl
      exact .nil
    · rintro ⟨⟩
      rfl
  | case2 =>
    constructor
    · rintro ⟨_, _, rfl, ⟨found, rfl, same⟩, rfl⟩
      exact .backslash same
    · rintro (_ | _ | _ | _ | same | ⟨ordinary, -, -⟩)
      · exact ⟨_, [], rfl, ⟨_, rfl, same⟩, rfl⟩
      · exact absurd (by decide) ordinary
  | case3 character pattern inductionHypothesis =>
    constructor
    · rintro ⟨_, others, rfl, ⟨found, rfl, same⟩, further⟩
      exact .escaped same (inductionHypothesis.1 further)
    · rintro (_ | _ | _ | ⟨same, further⟩ | _ | ⟨ordinary, -, -⟩)
      · exact ⟨[_], _, rfl, ⟨_, rfl, same⟩, inductionHypothesis.2 further⟩
      · exact absurd (by decide) ordinary
  | case4 pattern inductionHypothesis =>
    constructor
    · rintro ⟨run, others, rfl, all, further⟩
      exact .several (repeats_any.1 all) (inductionHypothesis.1 further)
    · rintro (_ | ⟨all, further⟩ | _ | _ | _ | ⟨ordinary, -, -⟩)
      · exact ⟨_, _, rfl, repeats_any.2 all, inductionHypothesis.2 further⟩
      · exact absurd (by decide) ordinary
  | case5 pattern inductionHypothesis =>
    constructor
    · rintro ⟨_, others, rfl, ⟨found, rfl, any⟩, further⟩
      exact .single any (inductionHypothesis.1 further)
    · rintro (_ | _ | ⟨any, further⟩ | _ | _ | ⟨ordinary, -, -⟩)
      · exact ⟨[_], _, rfl, ⟨_, rfl, any⟩, inductionHypothesis.2 further⟩
      · exact absurd (by decide) ordinary
  | case6 character pattern notLast notEscape notSeveral notSingle inductionHypothesis =>
    have ordinary : character ∉ ['%', '_', '\\'] := by
      simp only [List.mem_cons, List.not_mem_nil, or_false, not_or]
      refine ⟨notSeveral, notSingle, fun backslash => ?_⟩
      cases pattern with
      | nil => exact notLast backslash rfl
      | cons next rest => exact notEscape next rest backslash rfl
    constructor
    · rintro ⟨_, others, rfl, ⟨found, rfl, same⟩, further⟩
      exact .itself ordinary same (inductionHypothesis.1 further)
    · rintro (_ | _ | _ | _ | _ | ⟨-, same, further⟩)
      · exact absurd rfl notSeveral
      · exact absurd rfl notSingle
      · exact absurd rfl (notEscape _ _ rfl)
      · exact absurd rfl (notLast rfl)
      · exact ⟨[_], _, rfl, ⟨_, rfl, same⟩, inductionHypothesis.2 further⟩

/-- Between the marks for the start and the end of a text, the pieces of a pattern match whole texts
only. -/
theorem matches_anchored (pattern : List Char) :
    Matches reading before matched after
        (⟨.start, .once⟩ :: (wildcardPieces pattern ++ [⟨.finish, .once⟩])) ↔
      before = [] ∧ after = [] ∧ WildcardMatches reading pattern matched := by
  constructor
  · rintro ⟨_, _, rfl, ⟨rfl, rfl⟩, further⟩
    obtain ⟨front, _, rfl, own, _, _, rfl, ⟨rfl, ended⟩, rfl⟩ := matches_append.1 further
    exact ⟨rfl, ended, by simpa using (matches_wildcardPieces pattern).1 own⟩
  · rintro ⟨rfl, rfl, own⟩
    refine ⟨[], matched, rfl, ⟨rfl, rfl⟩, matches_append.2 ⟨matched, [],
      (List.append_nil matched).symm, (matches_wildcardPieces pattern).2 own, [], [], rfl,
      ⟨rfl, rfl⟩, rfl⟩⟩

/-! ### Generated regular expressions -/

/-- Generated regular expressions mean what they were generated from, whichever characters are the
same and whatever the wildcard stands for. That of a pattern is valid, matches a whole text exactly
if the pattern does, and is found nowhere else in a text. That of a text is valid and matches a part
of a text exactly if the characters are the same; if only a character itself is the same, that part
is the text. -/
theorem generated_regex_matches :
    (∀ pattern : String, ∃ pieces, regex? (wildcardRegex pattern) = some pieces ∧
      ∀ (reading : Reading) (text : String),
        (Matches reading [] text.toList [] pieces ↔
          WildcardMatches reading pattern.toList text.toList) ∧
        (FoundIn reading pieces text ↔ WildcardMatches reading pattern.toList text.toList)) ∧
    ∀ literal : String, ∃ pieces, regex? (escapeRegex literal) = some pieces ∧
      (∀ (reading : Reading) (before matched after : List Char),
        Matches reading before matched after pieces ↔
          List.Forall₂ reading.same literal.toList matched) ∧
      ∀ (any : Char → Prop) (before matched after : List Char),
        Matches (.exact any) before matched after pieces ↔ matched = literal.toList := by
  refine ⟨fun pattern => ⟨_, regex_wildcardRegex pattern, fun reading text => ⟨?_, ?_⟩⟩,
    fun literal => ⟨_, regex_escapeRegex literal, fun _ _ _ _ => matches_literally,
      fun any before matched after => ?_⟩⟩
  · rw [matches_anchored, eq_self, true_and, true_and]
  · constructor
    · rintro ⟨before, matched, after, split, found⟩
      obtain ⟨rfl, rfl, matches'⟩ := (matches_anchored _).1 found
      rwa [split, List.nil_append, List.append_nil]
    · intro matches'
      exact ⟨[], text.toList, [], by rw [List.nil_append, List.append_nil],
        (matches_anchored _).2 ⟨rfl, rfl, matches'⟩⟩
  · rw [matches_literally]
    show List.Forall₂ Eq literal.toList matched ↔ _
    rw [List.forall₂_eq_eq_eq, eq_comm]

example : wildcardRegex "50\\%_(%" = "^50%.\\(.*$" := by decide

end ShapeQuery.Text
