/-
This file searches the texts of resources. A text matches a term on three tiers: when it equals the
term, when it starts with it, and when it contains it, case ignored. Each tier that is reached has
a weight, and the weights of a text are added up. A result is named by a hash of what it says, so
that the same search finds the same results again.
-/
import ShapeQuery.Listing.Page
import ShapeQuery.Listing.Selection
import ShapeQuery.Sparql.Query
import ShapeQuery.Text.Basic
import ShapeQuery.Text.Lowercase
import ShapeQuery.Text.Regex

namespace ShapeQuery.Listing

open Sparql (Term Variable Group Element Expression Projection Modifier Query TemplateTriple)

/-! ### Tiers -/

/-- How a text matches a term. -/
inductive Tier where
  | whole
  | start
  | part
deriving DecidableEq, Inhabited

namespace Tier

/-- The tiers in the order of a query. -/
def all : List Tier := [.whole, .start, .part]

/-- The weight of a tier. -/
def weight : Tier → Nat
  | .whole => 100
  | .start => 20
  | .part => 10

end Tier

namespace Search

/-! ### Variables -/

/-- The predicate of a text. -/
def predicate : Variable := ⟨"pred"⟩

/-- The text that matches. -/
def found : Variable := ⟨"match"⟩

/-- The weight of a tier. -/
def tierWeight : Variable := ⟨"w"⟩

/-- The sum of the weights of a text. -/
def weight : Variable := ⟨"weight"⟩

/-- The name of a result. -/
def name : Variable := ⟨"hashID"⟩

/-! ### Results -/

/-- Matches a text with a regular expression, case ignored. -/
def matching (regex : String) : Expression :=
  .call .regex [.var found, .literal (.plain regex), .literal (.plain "i")]

/-- The texts that match a term on a tier. -/
def condition (term : String) : Tier → Expression
  | .whole =>
    .compare (.call .lowercase [.var found]) .equal (.literal (.plain (Text.lowercase term)))
  | .start => matching ("^" ++ Text.escapeRegex term)
  | .part => matching (Text.escapeRegex term)

/-- The branch of a tier. -/
def branch (term : String) (tier : Tier) : Group :=
  [.ofTriple focus (.var predicate) (.var found),
    .bind (.literal (.ofInt tier.weight)) tierWeight,
    .filter (condition term tier)]

/-- What a result says. -/
def said : List Variable :=
  [Shape.focusNode, predicate, found, weight]

/-- The name of a result: a hash of the texts of what it says. -/
def hash : Expression :=
  .call .uri [.call .concat [.literal (.plain "urn:hash:"),
    .call .sha256 [.call .concat (said.map fun column => .call .str [.var column])]]]

/-- The columns of a result. -/
def columns : List Projection :=
  said.map .var ++ [.expression hash name]

/-- The triples that describe a result. -/
def template : List TemplateTriple :=
  [⟨.var name, .iri Vocabulary.prezSearchResultWeight, .var weight⟩,
    ⟨.var name, .iri Vocabulary.prezSearchResultPredicate, .var predicate⟩,
    ⟨.var name, .iri Vocabulary.prezSearchResultMatch, .var found⟩,
    ⟨.var name, .iri Vocabulary.prezSearchResultUri, focus⟩,
    ⟨.var name, .iri Vocabulary.rdfType, .iri Vocabulary.prezSearchResult⟩]

/-- The modifier of a page of results, the greatest weight first. One result more than the page
shows is asked for, so that it is known whether another page follows. -/
def pageModifier (page : Page) : Modifier :=
  ⟨[], [.descending (.var weight)], some (min (page.limit + 1) Number.greatestWord),
    some page.offset⟩

end Search

/-! ### Searches -/

/-- A search for a term among the values of some predicates, within a selection. -/
structure Search where
  term : String
  predicates : List Iri
  selection : Group
  term_not_blank : Text.isBlank term = false
  predicates_nonempty : predicates ≠ []

namespace Search

/-- A search among all resources. There has to be something to search for, and something to search
in. -/
def ofTerm (term : String) (predicates : List Iri) : Except BuildError Search :=
  if blank : Text.isBlank term then .error (.parameter .emptyTerm)
  else if missing : predicates = [] then .error (.parameter .noSearchPredicate)
  else .ok ⟨term, predicates, [], by simpa using blank, missing⟩

/-- Searches within a selection too. -/
def within (search : Search) (selection : Group) : Search :=
  { search with selection := search.selection ++ selection }

/-- The weighted matches: for each resource, predicate and text the sum of the weights. -/
def matched (search : Search) : Element :=
  let tiers : Element := .union (Tier.all.map (branch search.term))
  let group := search.selection ++ [.column predicate (search.predicates.map .iri), tiers]
  solutions
    [.var Shape.focusNode, .var predicate, .var found,
      .expression (.sum false (.var tierWeight)) weight]
    group ⟨[Shape.focusNode, predicate, found], [], none, none⟩

/-- The query of a page of results. -/
def query (search : Search) (page : Page) : Query :=
  .ofTemplate template [solutions columns [search.matched] (pageModifier page)] .empty

end Search

end ShapeQuery.Listing
