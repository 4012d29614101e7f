/-
This file says what a reader of the grammar does in terms of tokens. A text shows some tokens if it
is written from lexemes that can be told apart and have these tokens; a reader takes tokens if, on
every text that shows them in front of others, it returns its value and stops where the text shows
the others. White space is forgotten here, and so is the number of items that a list may have.
-/
import ShapeQuery.Proofs.Sparql.Grammar
import ShapeQuery.Proofs.Sparql.Rereading

namespace ShapeQuery.Sparql

open Rdf.Turtle (skip isSpace)
open Lexer (Begins next? token?)
open Lexeme (visible)

/-! ### Single tokens -/

/-- Whether what a lexeme names is read back at its place. An IRI goes on to its closing bracket. -/
def Lexeme.IsNamed : Lexeme → Prop
  | .var name => Lexer.IsVariableName name.name
  | .iri name => '>' ∉ name.text.toList
  | .blank label => Lexer.IsLabel label
  | .language tag => Lexer.IsTag tag
  | _ => True

/-- Whether a token is read as what it is at a place. -/
def Token.fits (place : Place) : Token → Bool
  | .mark text => place = .operator || (text ≠ "<" && text ≠ "<=")
  | .iri _ => place = .operand
  | _ => true

namespace Lexer

theorem skip_space {first : Char} (space : isSpace first = true) (rest : List Char) :
    skip false (first :: rest) = skip false rest := by
  rw [skip, if_neg (by decide), if_pos space]

theorem next?_space {first : Char} (space : isSpace first = true) (place : Place)
    (rest : List Char) : next? place (first :: rest) = next? place rest := by
  rw [next?, skip_space space, next?]

theorem begins_bracket :
    ∀ mark ∈ marks, mark.toList.head? = some '<' → mark = "<" ∨ mark = "<=" := by
  decide

/-- What begins with an angle bracket is an IRI or one of two marks. -/
theorem token?_bracket {rest after : List Char} {token : Token}
    (read : token? ('<' :: rest) = some (token, after)) :
    (∃ name, token = .iri name) ∨
      mark? ('<' :: rest) = some (token, after) ∧ token.fits .operand = false := by
  have number : number? ('<' :: rest) = none := number?_eq_none (by decide) rest
  rw [token?, number] at read
  cases reference : iri? rest with
  | some found =>
    have same : some found = some (token, after) := by
      rw [← read, ← reference]
      simp [word?, special?, reference]
    obtain rfl := Option.some.inj same
    unfold iri? at reference
    split at reference
    · exact .inl ⟨_, (Prod.mk.inj (Option.some.inj reference)).1.symm⟩
    · cases reference
  | none =>
    have marked : mark? ('<' :: rest) = some (token, after) := by
      rw [← read]
      simp [word?, special?, reference]
    refine .inr ⟨marked, ?_⟩
    obtain ⟨mark, found, same⟩ := Option.map_eq_some_iff.1 marked
    have listed := List.mem_of_find?_eq_some found
    have starts : mark.toList.head? = some '<' := by
      have before := List.find?_some found
      cases written : mark.toList with
      | nil =>
        have nonempty : ∀ mark ∈ marks, mark.toList ≠ [] := by decide
        exact absurd written (nonempty mark listed)
      | cons first others =>
        rw [written] at before
        have both : first = '<' ∧ others.isPrefixOf rest = true := by
          simpa [List.isPrefixOf] using before
        rw [both.1, List.head?_cons]
    obtain ⟨rfl, -⟩ := Prod.mk.inj same
    rcases begins_bracket mark listed starts with rfl | rfl <;> rfl

/-- A token that is no IRI is the next one where it fits. -/
theorem next?_of_token? {place : Place} {characters after : List Char} {token : Token}
    (read : token? characters = some (token, after)) (fits : token.fits place = true)
    (other : ∀ name, token ≠ .iri name) : next? place characters = some (token, after) := by
  cases characters with
  | nil => cases read
  | cons first rest =>
    rw [next?, skip_of_token? read]
    split
    · rename_i found same
      rw [same] at read
      rcases token?_bracket read with ⟨name, iri⟩ | ⟨marked, misfit⟩
      · exact absurd iri (other name)
      · cases place with
        | operand => exact absurd (fits.symm.trans misfit) (by decide)
        | operator => exact marked
    · exact read

theorem bracketed?_iri {name : Iri} (closed : '>' ∉ name.text.toList) (rest : List Char) :
    bracketed? (name.text.toList ++ '>' :: rest) = some (.iri name, rest) := by
  have inside : ∀ character ∈ name.text.toList, decide (character ≠ '>') = true :=
    fun character member => decide_eq_true fun same => closed (same ▸ member)
  have ends : Begins (fun character => !decide (character ≠ '>')) ('>' :: rest) := by
    rintro _ ⟨⟩
    decide
  rw [bracketed?, takeWhile_run inside ends, dropWhile_run inside ends, String.ofList_toList]
  rfl

/-- What follows an opening bracket where an operand is expected can only be an IRI. -/
theorem iri_of_bracketed? {characters : List Char} {found : Token × List Char}
    (read : bracketed? characters = some found) : ∃ name, found.1 = .iri name := by
  unfold bracketed? at read
  split at read
  · cases read
    exact ⟨_, rfl⟩
  · cases read

end Lexer

namespace Lexeme

theorem isHarmless_of_isNamed {lexeme : Lexeme} (regular : lexeme.IsRegular)
    (named : lexeme.IsNamed) (other : ∀ name, lexeme ≠ .iri name) :
    lexeme.IsHarmless .readable := by
  cases lexeme with
  | iri name => exact absurd rfl (other name)
  | var | blank | language => exact named
  | number | word | mark => exact regular
  | string | space | newLine => trivial

/-- A lexeme is the next token where it fits. -/
theorem next?_text {lexeme : Lexeme} (regular : lexeme.IsRegular) (named : lexeme.IsNamed)
    {token : Token} (shown : lexeme.token? = some token) {rest : List Char}
    (begins : Begins lexeme.ends rest) {place : Place} (fits : token.fits place = true) :
    next? place (lexeme.text.toList ++ rest) = some (token, rest) := by
  cases lexeme with
  | iri name =>
    obtain rfl := Option.some.inj shown
    obtain rfl : place = .operand := of_decide_eq_true fits
    rw [text, Iri.bracketed, String.toList_append, String.toList_append, List.append_assoc,
      List.append_assoc]
    exact Lexer.bracketed?_iri named rest
  | space => cases shown
  | newLine => cases shown
  | _ =>
    have harmless := isHarmless_of_isNamed regular named (by intro _ same; cases same)
    refine Lexer.next?_of_token? (token?_text harmless shown begins) fits fun name same => ?_
    cases shown.trans (congrArg some same)

/-- A lexeme that does not fit before an operand begins like an IRI. -/
theorem text_of_misfit {lexeme : Lexeme} {token : Token} (shown : lexeme.token? = some token)
    (misfit : token.fits .operand = false) : ∃ others, lexeme.text.toList = '<' :: others := by
  cases lexeme with
  | mark text =>
    obtain rfl := Option.some.inj shown
    have either : text = "<" ∨ text = "<=" := by
      by_contra neither
      rw [not_or] at neither
      simp [Token.fits, neither] at misfit
    rcases either with rfl | rfl
    · exact ⟨[], rfl⟩
    · exact ⟨['='], rfl⟩
  | space => cases shown
  | newLine => cases shown
  | _ =>
    obtain rfl := Option.some.inj shown
    cases misfit

end Lexeme

/-! ### Texts -/

/-- Whether a text is written from lexemes that can be told apart and have some tokens. -/
def Shows (text : List Char) (tokens : List Token) : Prop :=
  ∃ lexemes, Lexeme.characters lexemes = text ∧ Lexeme.Divided lexemes [] ∧
    (∀ lexeme ∈ lexemes, lexeme.IsNamed) ∧ visible lexemes = tokens

theorem shows_written {lexemes : List Lexeme} (divided : Lexeme.Divided lexemes [])
    (named : ∀ lexeme ∈ lexemes, lexeme.IsNamed) :
    Shows (Lexeme.written lexemes).toList (visible lexemes) :=
  ⟨lexemes, (Lexeme.toList_written lexemes).symm, divided, named, rfl⟩

namespace Shows

variable {text : List Char} {token : Token} {tokens : List Token}

/-- Nothing but white space is left. -/
theorem skip_nil (shows : Shows text []) : skip false text = [] := by
  obtain ⟨lexemes, rfl, -, -, shown⟩ := shows
  induction lexemes with
  | nil => rfl
  | cons lexeme rest inductionHypothesis =>
    rw [Lexeme.visible_cons, List.append_eq_nil_iff] at shown
    rw [Lexeme.characters_cons]
    cases lexeme with
    | space => exact (Lexer.skip_space rfl _).trans (inductionHypothesis shown.2)
    | newLine => exact (Lexer.skip_space rfl _).trans (inductionHypothesis shown.2)
    | _ => cases shown.1

theorem next?_nil (shows : Shows text []) (place : Place) : next? place text = none := by
  rw [next?, shows.skip_nil]
  rfl

/-- The first token is read wherever it fits, and where it does not, only an IRI can be. -/
theorem next?_cons (shows : Shows text (token :: tokens)) :
    (∃ rest, Shows rest tokens ∧
      ∀ place, token.fits place = true → next? place text = some (token, rest)) ∧
    (token.fits .operand = false →
      ∀ found, next? .operand text = some found → ∃ name, found.1 = .iri name) := by
  obtain ⟨lexemes, rfl, divided, named, shown⟩ := shows
  induction lexemes with
  | nil => cases shown
  | cons lexeme rest inductionHypothesis =>
    rw [List.forall_mem_cons] at named
    rw [Lexeme.characters_cons]
    cases same : lexeme.token? with
    | none =>
      have space (place : Place) :
          next? place (lexeme.text.toList ++ Lexeme.characters rest) =
            next? place (Lexeme.characters rest) := by
        cases lexeme with
        | space => exact Lexer.next?_space rfl place _
        | newLine => exact Lexer.next?_space rfl place _
        | _ => cases same
      rw [Lexeme.visible_cons, same] at shown
      simp only [space]
      exact inductionHypothesis divided.2.2 named.2 shown
    | some first =>
      rw [Lexeme.visible_cons, same, Option.toList_some, List.singleton_append] at shown
      obtain ⟨rfl, later⟩ := List.cons.inj shown
      have begins : Begins lexeme.ends (Lexeme.characters rest) := by
        simpa using divided.2.1
      refine ⟨⟨_, ⟨rest, rfl, divided.2.2, named.2, later⟩, fun place fits =>
        Lexeme.next?_text divided.1 named.1 same begins fits⟩, fun misfit found read => ?_⟩
      obtain ⟨others, written⟩ := Lexeme.text_of_misfit same misfit
      rw [written, List.cons_append] at read
      exact Lexer.iri_of_bracketed? read

theorem length_le (shows : Shows text tokens) : tokens.length ≤ text.length := by
  obtain ⟨lexemes, rfl, divided, -, rfl⟩ := shows
  induction lexemes with
  | nil => exact Nat.le_refl 0
  | cons lexeme rest inductionHypothesis =>
    have nonempty := List.length_pos_iff.2 (Lexeme.text_ne_nil divided.1)
    have further := inductionHypothesis divided.2.2
    have single : lexeme.token?.toList.length ≤ 1 := Option.length_toList_le
    rw [Lexeme.visible_cons, Lexeme.characters_cons, List.length_append, List.length_append]
    omega

end Shows

/-! ### Readers -/

namespace Reader

variable {Value Result : Type} {reader : Reader Value} {place : Place}
  {test : Token → Option Value} {token : Token} {tokens others more : List Token} {value : Value}

/-- Whether a reader takes some tokens in front of others, for a value. -/
def Takes (reader : Reader Value) (tokens : List Token) (value : Value) (more : List Token) :
    Prop :=
  ∀ text, Shows text (tokens ++ more) → ∃ rest, Shows rest more ∧ reader text = some (value, rest)

/-- Whether what comes next, if anything does, passes a test. -/
def Ahead (ends : Token → Prop) (more : List Token) : Prop :=
  ∀ token ∈ more.head?, ends token

theorem Ahead.mono {ends weaker : Token → Prop} (ahead : Ahead ends more)
    (implies : ∀ token, ends token → weaker token) : Ahead weaker more :=
  fun token member => implies token (ahead token member)

theorem Ahead.fewer {marks others : List Token} (ahead : Ahead (· ∉ marks) more)
    (within : ∀ token ∈ others, token ∈ marks) : Ahead (· ∉ others) more :=
  ahead.mono fun token apart member => apart (within token member)

theorem Ahead.apart {marks : List Token} {token : Token} (ahead : Ahead (· ∉ marks) more)
    (member : token ∈ marks) : Ahead (· ≠ token) more :=
  ahead.mono fun _ apart same => apart (same ▸ member)

theorem ahead_nil {ends : Token → Prop} : Ahead ends [] := by
  rintro _ ⟨⟩

theorem ahead_cons {ends : Token → Prop} (passes : ends token) : Ahead ends (token :: more) := by
  rintro _ ⟨⟩
  exact passes

/-- Whether some tokens begin with one that passes a test. -/
def Starts (test : Token → Prop) (tokens : List Token) : Prop :=
  ∃ first rest, tokens = first :: rest ∧ test first

namespace Starts

variable {test weaker : Token → Prop}

theorem ahead (starts : Starts test tokens) (more : List Token) : Ahead test (tokens ++ more) := by
  obtain ⟨first, rest, rfl, passes⟩ := starts
  exact ahead_cons passes

theorem append (starts : Starts test tokens) (more : List Token) :
    Starts test (tokens ++ more) := by
  obtain ⟨first, rest, rfl, passes⟩ := starts
  exact ⟨first, rest ++ more, rfl, passes⟩

theorem mono (starts : Starts test tokens) (implies : ∀ token, test token → weaker token) :
    Starts weaker tokens := by
  obtain ⟨first, rest, rfl, passes⟩ := starts
  exact ⟨first, rest, rfl, implies first passes⟩

theorem ne_nil (starts : Starts test tokens) : tokens ≠ [] := by
  obtain ⟨first, rest, rfl, -⟩ := starts
  exact List.cons_ne_nil first rest

end Starts

theorem starts_cons {test : Token → Prop} (passes : test token) : Starts test (token :: tokens) :=
  ⟨token, tokens, rfl, passes⟩

/-- A whole text is read as what its tokens are taken for. -/
theorem Takes.whole? {text : String} (takes : Takes reader tokens value [])
    (shows : Shows text.toList tokens) : reader.whole? text = some value := by
  obtain ⟨rest, shown, read⟩ := takes text.toList (by rwa [List.append_nil])
  rw [Reader.whole?, read, Option.bind_some, if_pos shown.skip_nil]

theorem takes_pure (value : Value) : Takes (pure value) [] value more :=
  fun text shows => ⟨text, shows, rfl⟩

theorem Takes.bind {next : Value → Reader Result} {result : Result}
    (first : Takes reader tokens value (others ++ more))
    (second : Takes (next value) others result more) :
    Takes (reader >>= next) (tokens ++ others) result more := by
  intro text shows
  rw [List.append_assoc] at shows
  obtain ⟨middle, shown, read⟩ := first text shows
  obtain ⟨rest, shownRest, readRest⟩ := second middle shown
  refine ⟨rest, shownRest, ?_⟩
  change (reader text).bind (fun found => next found.1 found.2) = _
  rw [read]
  exact readRest

theorem Takes.map (change : Value → Result) (takes : Takes reader tokens value more) :
    Takes (change <$> reader) tokens (change value) more := by
  intro text shows
  obtain ⟨rest, shown, read⟩ := takes text shows
  refine ⟨rest, shown, ?_⟩
  change (reader text).bind (fun found => some (change found.1, found.2)) = _
  rw [read]
  rfl

theorem takes_demand (fits : token.fits place = true) (passes : test token = some value) :
    Takes (demand place test) [token] value more := by
  intro text shows
  obtain ⟨⟨rest, shown, read⟩, -⟩ := shows.next?_cons
  refine ⟨rest, shown, ?_⟩
  rw [demand, read place fits, Option.bind_some, passes, Option.map_some]

theorem takes_accept (fits : token.fits place = true) (passes : test token = some value) :
    Takes (accept place test) [token] (some value) more := by
  intro text shows
  obtain ⟨rest, shown, read⟩ := takes_demand fits passes text shows
  refine ⟨rest, shown, ?_⟩
  rw [accept, read]

/-- A token is left where a test refuses it. Where it does not fit, the test must refuse what could
be read instead. -/
theorem takes_refused (refused : Ahead (fun token => test token = none) more)
    (iris : ∀ name, test (.iri name) = none)
    (fitting : place = .operator → Ahead (fun token => token.fits .operator = true) more) :
    Takes (accept place test) [] none more := by
  intro text shows
  refine ⟨text, shows, ?_⟩
  have failed : demand place test text = none := by
    cases more with
    | nil => rw [demand, shows.next?_nil, Option.bind_none]
    | cons token tokens =>
      obtain ⟨⟨rest, -, read⟩, instead⟩ := shows.next?_cons
      by_cases fits : token.fits place = true
      · rw [demand, read place fits, Option.bind_some, refused token rfl, Option.map_none]
      · cases place with
        | operator => exact absurd (fitting rfl token rfl) fits
        | operand =>
          rw [demand]
          cases found : next? .operand text with
          | none => rfl
          | some pair =>
            obtain ⟨name, iri⟩ := instead (Bool.eq_false_iff.2 fits) pair found
            rw [Option.bind_some, iri, iris, Option.map_none]
  rw [accept, failed]

/-! ### Sequences -/

/-- A reader that takes its tokens, and then returns something. -/
theorem Takes.returns {next : Value → Reader Result} {result : Result}
    (takes : Takes reader tokens value more) (made : next value = pure result) :
    Takes (reader >>= next) tokens result more := by
  rw [← List.append_nil tokens]
  exact Takes.bind takes (made ▸ takes_pure result)

theorem Takes.demanded {next : Value → Reader Result} {result : Result}
    (fits : token.fits place = true) (passes : test token = some value)
    (further : Takes (next value) tokens result more) :
    Takes (demand place test >>= next) (token :: tokens) result more :=
  Takes.bind (takes_demand fits passes) further

theorem Takes.accepted {next : Option Value → Reader Result} {result : Result}
    (fits : token.fits place = true) (passes : test token = some value)
    (further : Takes (next (some value)) tokens result more) :
    Takes (accept place test >>= next) (token :: tokens) result more :=
  Takes.bind (takes_accept fits passes) further

/-- What goes on if a test refuses what stands before an operand. -/
theorem Takes.refused {next : Option Value → Reader Result} {result : Result}
    (refused : Ahead (fun token => test token = none) (tokens ++ more))
    (iris : ∀ name, test (.iri name) = none) (further : Takes (next none) tokens result more) :
    Takes (accept .operand test >>= next) tokens result more :=
  @Takes.bind _ _ _ [] _ _ _ _ _ (takes_refused refused iris fun same => nomatch same) further

/-- What goes on if a test refuses what stands after an operand. -/
theorem Takes.refusedAfter {next : Option Value → Reader Result} {result : Result}
    (refused : Ahead (fun token => test token = none ∧ token.fits .operator = true)
      (tokens ++ more)) (iris : ∀ name, test (.iri name) = none)
    (further : Takes (next none) tokens result more) :
    Takes (accept .operator test >>= next) tokens result more :=
  @Takes.bind _ _ _ [] _ _ _ _ _ (takes_refused (refused.mono fun _ => And.left) iris
    fun _ => refused.mono fun _ => And.right) further

/-! ### Items -/

/-- Whether a reader of single items takes some tokens, item by item, up to where it finds none. -/
inductive TakesMany (item : Reader (Option Value)) (more : List Token) :
    List Token → List Value → Prop where
  | last {tokens : List Token} (takes : Takes item tokens none more) :
      TakesMany item more tokens []
  | next {part tokens : List Token} {value : Value} {values : List Value} (nonempty : part ≠ [])
      (takes : Takes item part (some value) (tokens ++ more))
      (further : TakesMany item more tokens values) :
      TakesMany item more (part ++ tokens) (value :: values)

namespace TakesMany

variable {item : Reader (Option Value)} {values : List Value}

theorem length_le (takes : TakesMany item more tokens values) : values.length ≤ tokens.length := by
  induction takes with
  | last => exact Nat.zero_le _
  | next nonempty _ _ inductionHypothesis =>
    have := List.length_pos_iff.2 nonempty
    rw [List.length_cons, List.length_append]
    omega

theorem within (takes : TakesMany item more tokens values) {bound : Nat}
    (enough : values.length < bound) : Takes (manyWithin item bound) tokens values more := by
  induction takes generalizing bound with
  | last takes =>
    obtain ⟨bound, rfl⟩ := Nat.exists_eq_add_of_lt enough
    exact takes.returns rfl
  | next _ takes _ inductionHypothesis =>
    obtain ⟨bound, rfl⟩ := Nat.exists_eq_add_one_of_ne_zero (Nat.ne_zero_of_lt enough)
    exact takes.bind ((inductionHypothesis (Nat.lt_of_succ_lt_succ enough)).returns rfl)

/-- No text has more items than characters. -/
theorem many (takes : TakesMany item more tokens values) :
    Takes (many item) tokens values more := by
  intro text shows
  have bound := shows.length_le
  have items := takes.length_le
  rw [List.length_append] at bound
  exact takes.within (by omega : values.length < text.length + 1) text shows

end TakesMany

/-! ### Marks and keywords -/

theorem takes_mark {text : String} (fits : (Token.mark text).fits .operand = true) :
    Takes (mark text) [.mark text] () more :=
  takes_demand fits (if_pos rfl)

theorem takes_name (found : Variable) : Takes name [.var found] found more :=
  @takes_demand _ .operand _ (.var found) more found rfl rfl

/-- What stands behind a certain token. -/
theorem takes_behind {test : Token → Option Unit} (fits : token.fits place = true)
    (passes : test token = some ()) (takes : Takes reader tokens value more) :
    Takes (behind place test reader) (token :: tokens) (some value) more :=
  Takes.accepted fits passes (takes.returns rfl)

theorem takes_parenthesised (takes : Takes reader tokens value (.mark ")" :: more)) :
    Takes (parenthesised reader) (.mark "(" :: (tokens ++ [.mark ")"])) value more :=
  Takes.bind (takes_mark rfl) (takes.bind ((takes_mark rfl).returns rfl))

/-! ### Lists -/

variable {Item : Type} {ends : Token → Prop} {part : Item → List Token} {result : Item → Value}
  {items : List Item}

theorem ahead_flatMap (starts : ∀ item ∈ items, Starts ends (part item)) (ahead : Ahead ends more) :
    Ahead ends (items.flatMap part ++ more) := by
  cases items with
  | nil => exact ahead
  | cons item rest =>
    rw [List.flatMap_cons, List.append_assoc]
    exact (starts item List.mem_cons_self).ahead _

/-- Items one after another, and what ends them. -/
theorem takesMany_each {item : Reader (Option Value)} {final : List Token} (ends : Token → Prop)
    (part : Item → List Token) (result : Item → Value)
    (each : ∀ single ∈ items, ∀ more, Ahead ends more →
      Takes item (part single) (some (result single)) more)
    (starts : ∀ single ∈ items, Starts ends (part single)) (ahead : Ahead ends (final ++ more))
    (last : Takes item final none more) :
    TakesMany item more (items.flatMap part ++ final) (items.map result) := by
  induction items with
  | nil => exact .last last
  | cons single rest inductionHypothesis =>
    rw [List.forall_mem_cons] at each starts
    have further : Ahead ends (rest.flatMap part ++ final ++ more) := by
      rw [List.append_assoc]
      exact ahead_flatMap starts.2 ahead
    rw [List.flatMap_cons, List.append_assoc, List.map_cons]
    exact .next starts.1.ne_nil (each.1 _ further) (inductionHypothesis each.2 starts.2)

/-- A mark is refused where there is another one, or none. -/
theorem mark?_eq_none {text : String} {token : Token} (other : token ≠ .mark text) :
    Token.mark? text token = none := by
  cases token with
  | mark found => exact if_neg fun same : found = text => other (same ▸ rfl)
  | _ => rfl

/-- Items up to a closing mark, none of which begins with it. -/
theorem takes_upTo (ends : Token → Prop) (part : Item → List Token) (result : Item → Value)
    {closing : String} (fits : (Token.mark closing).fits .operand = true)
    (each : ∀ item ∈ items, ∀ more, Ahead ends more → Takes reader (part item) (result item) more)
    (starts : ∀ item ∈ items, Starts (fun token => ends token ∧ token ≠ .mark closing) (part item))
    (closes : ends (.mark closing)) :
    Takes (upTo closing reader) (items.flatMap part ++ [.mark closing]) (items.map result)
      more := by
  refine (takesMany_each ends part result (fun item member more ahead => ?_)
    (fun item member => (starts item member).mono fun _ => And.left) (ahead_cons closes)
    (Takes.accepted fits (if_pos rfl) (takes_pure none))).many
  have other := (starts item member).mono fun _ apart => mark?_eq_none apart.2
  exact Takes.refused (other.ahead more) (fun _ => rfl) ((each item member more ahead).returns rfl)

/-- Items behind a certain token each. -/
theorem takesMany_behind {test : Token → Option Unit} (ends : Token → Prop)
    (part : Item → List Token) (result : Item → Value) (fits : token.fits place = true)
    (passes : test token = some ()) (separates : ends token)
    (each : ∀ item ∈ items, ∀ more, Ahead ends more → Takes reader (part item) (result item) more)
    (ahead : Ahead ends more) (stops : Takes (accept place test) [] none more) :
    TakesMany (behind place test reader) more (items.flatMap fun item => token :: part item)
      (items.map result) := by
  rw [← List.append_nil (items.flatMap _)]
  exact takesMany_each ends (fun item => token :: part item) result
    (fun item member more ahead => takes_behind fits passes (each item member more ahead))
    (fun _ _ => starts_cons separates) ahead (stops.returns rfl)

theorem visible_separated (separator part : List Lexeme) (parts : List (List Lexeme)) :
    visible (Lexeme.separated separator (part :: parts)) =
      visible part ++ parts.flatMap fun part => visible separator ++ visible part := by
  induction parts generalizing part with
  | nil => rw [Lexeme.separated, List.flatMap_nil, List.append_nil]
  | cons next rest inductionHypothesis =>
    rw [Lexeme.separated, Lexeme.visible_append, Lexeme.visible_append, inductionHypothesis,
      List.flatMap_cons]
    · simp only [List.append_assoc]
    · exact List.cons_ne_nil _ _

/-- Items with a mark between each two. -/
theorem takes_separated (ends : Token → Prop) (lexemes : Item → List Lexeme)
    (result : Item → Value) {separator : List Lexeme} {text : String}
    (shown : visible separator = [.mark text]) (fits : (Token.mark text).fits place = true)
    (separates : ends (.mark text))
    (each : ∀ item ∈ items, ∀ more, Ahead ends more →
      Takes reader (visible (lexemes item)) (result item) more) (nonempty : items ≠ [])
    (ahead : Ahead ends more) (stops : Ahead (fun token => token ≠ .mark text) more)
    (fitting : place = .operator → Ahead (fun token => token.fits .operator = true) more) :
    Takes (separated place text reader) (visible (Lexeme.separated separator (items.map lexemes)))
      (items.map result) more := by
  obtain ⟨first, rest, rfl⟩ := List.exists_cons_of_ne_nil nonempty
  rw [List.forall_mem_cons] at each
  rw [List.map_cons, visible_separated, List.flatMap_map, shown]
  have stopped : Takes (accept place (Token.mark? text)) [] none more :=
    takes_refused (stops.mono fun _ => mark?_eq_none) (fun _ => rfl) fitting
  have later := takesMany_behind ends (fun item => visible (lexemes item)) result fits (if_pos rfl)
    separates each.2 ahead stopped
  exact (each.1 _ (ahead_flatMap (fun _ _ => starts_cons separates) ahead)).bind
    (later.many.returns rfl)

end Reader

end ShapeQuery.Sparql
