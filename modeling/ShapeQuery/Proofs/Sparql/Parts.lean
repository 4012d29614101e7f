/-
This file proves that paths and terms are read back from their texts when these stand alone. A path
is read as its normal form, in which no list has a single member, and a term as itself; so terms
with the same text are the same. A literal without quotes is read by its spelling, and every other
one as in N-Triples.
-/
import ShapeQuery.Proofs.Sparql.LanguageTags
import ShapeQuery.Proofs.Sparql.Readability

namespace ShapeQuery.Sparql

open Lexeme (visible)
open Reader

/-! ### Paths -/

namespace Path

/-- The path that a whole text is, by the grammar. No path contains itself more often than its text
has characters. -/
def parse? (text : String) : Option Path :=
  (grammar (text.length + 1)).path.whole? text

/-- A path that has a text which can be read: no sequence and no alternative in it is empty, and no
IRI in it has a closing bracket. -/
structure Readable (path : Path) : Prop where
  complete : path.Complete
  closed : ∀ iri ∈ path.predicates, '>' ∉ iri.text.toList

theorem parse?_written {path : Path} (readable : path.Readable) :
    parse? (Lexeme.written path.lexemes) = some path.normal := by
  have named : ∀ lexeme ∈ path.lexemes, lexeme.IsNamed :=
    path.forall_lexemes (fun _ _ => trivial) readable.closed
  have shows := shows_written ((reads_path path readable.complete).1 [] nofun) named
  exact ((grammar_reads _).path path readable.complete (Nat.le_succ_of_le shows.length_le) []
    ahead_nil).whole? shows

/-- Collapsing leaves no list with a single member. -/
theorem plural_collapse {make : List Path → Path} {paths : List Path}
    (made : ∀ paths, (∀ path, paths ≠ [path]) →
      Inspection.plural.passesPath (make paths) = Inspection.plural.passesPaths paths)
    (members : Inspection.plural.passesPaths paths = true) :
    Inspection.plural.passesPath (collapse make paths) = true := by
  match paths with
  | [] => exact made [] nofun
  | [path] => exact (Bool.and_eq_true_iff.1 members).1
  | first :: second :: rest => exact (made (first :: second :: rest) nofun).trans members

mutual

/-- No list in a normal form has a single member. -/
theorem plural_normal (path : Path) : Inspection.plural.passesPath path.normal = true := by
  match path with
  | .predicate iri => rfl
  | .inverse inner | .zeroOrMore inner | .oneOrMore inner | .zeroOrOne inner =>
    exact inner.plural_normal
  | .sequence paths | .alternative paths =>
    refine plural_collapse (fun paths several => ?_) (plural_normals paths)
    match paths with
    | [] => rfl
    | [path] => exact absurd rfl (several path)
    | _ :: _ :: _ => rfl

theorem plural_normals (paths : List Path) :
    Inspection.plural.passesPaths (normals paths) = true := by
  match paths with
  | [] => rfl
  | path :: rest =>
    rw [normals, Inspection.passesPaths, path.plural_normal, plural_normals rest]
    rfl

end

/-- The text of a path can be read in one way. It is read as the normal form of the path, which has
no list with a single member and is the path itself if that has none; and every path with the same
text has the same normal form. -/
theorem render_unambiguous {path : Path} (readable : path.Readable) :
    ∃ text, path.render = .ok text ∧ parse? text = some path.normal ∧
      Inspection.plural.passesPath path.normal = true ∧
      (Inspection.plural.passesPath path = true → path.normal = path) ∧
      ∀ other : Path, other.Readable → other.render = .ok text → other.normal = path.normal := by
  have read := parse?_written readable
  refine ⟨Lexeme.written path.lexemes, ?_, read, path.plural_normal, path.normal_eq_self,
    fun other otherReadable same => ?_⟩
  · rw [render, readable.complete]
    rfl
  · have otherRead := parse?_written otherReadable
    rw [← (written_of_rendered same).2, read] at otherRead
    exact (Option.some.inj otherRead).symm

/-- A repetition of an inverse path keeps its parentheses, those of a sequence of one path go. -/
theorem render_unambiguous_repetition :
    (zeroOrMore (.sequence [.inverse (.predicate ⟨"p"⟩)])).Readable ∧
      (zeroOrMore (.sequence [.inverse (.predicate ⟨"p"⟩)])).render = .ok "(^<p>)*" ∧
      parse? "(^<p>)*" = some (.zeroOrMore (.inverse (.predicate ⟨"p"⟩))) ∧
      (inverse (.zeroOrMore (.predicate ⟨"p"⟩))).render = .ok "^<p>*" := by
  have readable : (zeroOrMore (.sequence [.inverse (.predicate ⟨"p"⟩)])).Readable :=
    ⟨rfl, by decide⟩
  obtain ⟨text, made, read, -⟩ := render_unambiguous readable
  have written : (zeroOrMore (.sequence [.inverse (.predicate ⟨"p"⟩)])).render = .ok "(^<p>)*" :=
    rfl
  obtain rfl := Except.ok.inj (made.symm.trans written)
  exact ⟨readable, written, read, rfl⟩

end Path

end ShapeQuery.Sparql

/-! ### Terms -/

namespace ShapeQuery.Literal

open Sparql (Lexeme)

/-- Whether the language or the datatype of a literal can be read back. -/
def Readable : Literal → Prop
  | .plain _ => True
  | .tagged _ tag => Sparql.Lexer.IsLanguageTag tag
  | .typed _ datatype => '>' ∉ datatype.text.toList

theorem named_lexemes {value : Literal} (readable : value.Readable) :
    ∀ lexeme ∈ value.lexemes, lexeme.IsNamed := by
  rcases value.lexemes_cases with ⟨lexeme, bare, written⟩ | ⟨-, written⟩
  · rw [written]
    cases bare <;> exact List.forall_mem_singleton.2 trivial
  · rw [written, List.forall_mem_cons]
    refine ⟨trivial, ?_⟩
    cases value with
    | plain value => exact fun _ member => absurd member List.not_mem_nil
    | tagged value tag =>
      exact List.forall_mem_singleton.2 (Sparql.Lexer.isTag_of_isLanguageTag readable)
    | typed value datatype =>
      exact List.forall_mem_cons.2 ⟨trivial, List.forall_mem_singleton.2 readable⟩

theorem written_of_isBare {value : Literal} (bare : value.IsBare) :
    Lexeme.written value.lexemes = value.value := by
  rcases value.lexemes_cases with ⟨lexeme, spelled, written⟩ | ⟨quoted, -⟩
  · rw [written]
    cases spelled <;> simp [Lexeme.written, Lexeme.text, Literal.value]
  · exact absurd bare quoted

/-- What cannot be spelled without quotes is written as in N-Triples. -/
theorem written_of_not_isBare {value : Literal} (quoted : ¬ value.IsBare) :
    Lexeme.written value.lexemes = value.text := by
  rcases value.lexemes_cases with ⟨lexeme, bare, -⟩ | ⟨-, written⟩
  · exact absurd ⟨lexeme, bare⟩ quoted
  · rw [written]
    cases value <;>
      simp [Lexeme.written, Lexeme.text, suffix, Literal.text, Literal.value, String.append_assoc]

end ShapeQuery.Literal

namespace ShapeQuery.Sparql.Term

/-- The term that a whole text is, by the grammar. -/
def parse? (text : String) : Option Term :=
  Sparql.term.whole? text

/-- Whether what a term names can be read back. -/
def Readable : Term → Prop
  | .var name => Lexer.IsVariableName name.name
  | .iri name => '>' ∉ name.text.toList
  | .literal value => value.Readable
  | .blank label => Lexer.IsLabel label

theorem named_lexemes {term : Term} (readable : term.Readable) :
    ∀ lexeme ∈ term.lexemes, lexeme.IsNamed := by
  cases term with
  | literal value => exact Literal.named_lexemes readable
  | _ => exact List.forall_mem_singleton.2 readable

theorem parse?_written {term : Term} (readable : term.Readable) :
    parse? term.text = some term :=
  (takes_term term Reader.ahead_nil).whole?
    (shows_written (reads_term term [] nofun) (named_lexemes readable))

/-- Nothing is lost in the text of a term: it is read as the term, no other term has the same text,
and the text of a literal is its lexical form if that can stand without quotes, and the one of
N-Triples otherwise. -/
theorem text_lossless {term : Term} (readable : term.Readable) :
    parse? term.text = some term ∧
      (∀ other : Term, other.Readable → other.text = term.text → other = term) ∧
      ∀ value, term = .literal value →
        (value.IsBare → term.text = value.value) ∧ (¬ value.IsBare → term.text = value.text) := by
  have read := parse?_written readable
  refine ⟨read, fun other otherReadable same => ?_, ?_⟩
  · have otherRead := parse?_written otherReadable
    rw [same, read] at otherRead
    exact (Option.some.inj otherRead).symm
  · rintro value rfl
    exact ⟨Literal.written_of_isBare, Literal.written_of_not_isBare⟩

/-- A text in a language keeps its quotes, its line and its tag. -/
theorem text_lossless_tagged :
    (literal (.tagged "a \"b\"\n" "en-gb")).Readable ∧
      (literal (.tagged "a \"b\"\n" "en-gb")).text = "\"a \\\"b\\\"\\n\"@en-gb" ∧
      parse? "\"a \\\"b\\\"\\n\"@en-gb" = some (.literal (.tagged "a \"b\"\n" "en-gb")) := by
  have readable : (literal (.tagged "a \"b\"\n" "en-gb")).Readable :=
    Lexer.isLanguageTag_of_isWellFormed (by decide)
  have written :
      (literal (.tagged "a \"b\"\n" "en-gb")).text = "\"a \\\"b\\\"\\n\"@en-gb" := by
    decide
  exact ⟨readable, written, written ▸ (text_lossless readable).1⟩

/-- A point needs a digit after it. -/
example : (literal (.typed "-.5" Vocabulary.xsdDecimal)).text = "-.5" ∧
    (literal (.typed "1." Vocabulary.xsdDecimal)).text =
      "\"1.\"^^<http://www.w3.org/2001/XMLSchema#decimal>" := by
  decide

end ShapeQuery.Sparql.Term
