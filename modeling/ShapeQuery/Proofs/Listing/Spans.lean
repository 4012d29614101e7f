/-
This file proves that a span of time restricts a listing like the relation `t_intersects` of the
filters. The text of a span stands for a period, whose bounds are the texts around the first slash;
a moment is compared with the bounds exactly so that it intersects the period, and a text is refused
if its period has no bound, or one that is not a datetime.
-/
import ShapeQuery.Listing.Restriction
import ShapeQuery.Listing.Selection
import ShapeQuery.Proofs.Calendar.Lexical
import ShapeQuery.Proofs.Filter.Periods

namespace ShapeQuery

namespace Text

/-! ### Texts with a separator -/

variable {separator : Char}

theorem splitOnce_eq_none {text : String} :
    splitOnce separator text = none ↔ separator ∉ text.toList := by
  have dropped : text.toList.dropWhile (· ≠ separator) = [] ↔ separator ∉ text.toList := by
    rw [List.dropWhile_eq_nil_iff]
    exact ⟨fun all member => of_decide_eq_true (all separator member) rfl,
      fun apart other member => decide_eq_true fun same => apart (same ▸ member)⟩
  rw [← dropped, splitOnce]
  split
  · rename_i none
    exact iff_of_true rfl none
  · rename_i some
    exact iff_of_false nofun (by rw [some]; nofun)

theorem splitOnce_append {start finish : String} (apart : separator ∉ start.toList) :
    splitOnce separator (start ++ String.singleton separator ++ finish) = some (start, finish) := by
  have before : ∀ character ∈ start.toList, decide (character ≠ separator) = true :=
    fun character member => decide_eq_true fun same => apart (same ▸ member)
  have written : (start ++ String.singleton separator ++ finish).toList =
      start.toList ++ separator :: finish.toList := by
    simp
  rw [splitOnce, written, List.dropWhile_append_of_pos before, List.takeWhile_append_of_pos before]
  simp

theorem splitOnce_ok {text start finish : String}
    (split : splitOnce separator text = some (start, finish)) :
    separator ∉ start.toList ∧ text = start ++ String.singleton separator ++ finish := by
  unfold splitOnce at split
  split at split
  · cases split
  · rename_i mark after found
    cases split
    have stopped := List.head?_dropWhile_not (· ≠ separator) text.toList
    rw [found] at stopped
    obtain rfl : mark = separator := by simpa using stopped
    refine ⟨fun member => ?_, ?_⟩
    · rw [String.toList_ofList] at member
      exact absurd (List.mem_takeWhile_imp member) (by simp)
    · rw [← String.toList_inj]
      have parts := @List.takeWhile_append_dropWhile _ (· ≠ mark) text.toList
      rw [found] at parts
      simpa using parts.symm

end Text

namespace Listing.TimeSpan

open ShapeQuery.Filter (Period TemporalRelation)
open Sparql (Expression Engine Solution Term)

/-! ### Periods of texts -/

/-- A text as a moment. -/
def momentOf (text : String) : Expression :=
  .literal (.typed text Vocabulary.xsdDateTime)

/-- A text as a bound, which the empty text and two points leave open. -/
def boundOf (text : String) : Option Expression :=
  if text = "" ∨ text = ".." then none else some (momentOf text)

/-- What a text stands for: a moment, or the period between what is before and after its first
slash. -/
inductive Denotes : String → Period → Prop where
  | moment {text : String} : '/' ∉ text.toList → Denotes text (.instant (momentOf text))
  | period {start finish : String} : '/' ∉ start.toList →
      Denotes (start ++ "/" ++ finish) ⟨boundOf start, boundOf finish⟩

/-- The period of a span. -/
def period : TimeSpan → Period
  | .instant moment => .instant (.literal moment)
  | .until finish => ⟨none, some (.literal finish)⟩
  | .since start => ⟨some (.literal start), none⟩
  | .between start finish => ⟨some (.literal start), some (.literal finish)⟩

/-- The period of a text. -/
def periodOf (text : String) : Period :=
  match Text.splitOnce '/' text with
  | none => .instant (momentOf text)
  | some (start, finish) => ⟨boundOf start, boundOf finish⟩

/-- Every text stands for one period. -/
theorem denotes_iff {text : String} {period : Period} :
    Denotes text period ↔ period = periodOf text := by
  constructor
  · rintro (whole | @⟨start, finish, apart⟩)
    · rw [periodOf, Text.splitOnce_eq_none.2 whole]
    · have split : Text.splitOnce '/' (start ++ "/" ++ finish) = some (start, finish) :=
        Text.splitOnce_append apart
      rw [periodOf, split]
  · rintro rfl
    unfold periodOf
    split
    · rename_i whole
      exact .moment (Text.splitOnce_eq_none.1 whole)
    · rename_i start finish split
      obtain ⟨apart, rfl⟩ := Text.splitOnce_ok split
      exact .period apart

/-! ### Reading -/

theorem period_bounds_ne_nil (span : TimeSpan) : span.period.bounds ≠ [] := by
  cases span <;> exact List.cons_ne_nil _ _

/-- Whether a text is read as a datetime. -/
def Reads (text : String) : Prop :=
  ∃ value, Calendar.readDateTime text = .ok value

theorem moment_ok {text : String} {literal : Literal} :
    moment text = .ok literal ↔ Reads text ∧ .typed text Vocabulary.xsdDateTime = literal := by
  unfold moment Reads
  cases Calendar.readDateTime text with
  | ok value => simp
  | error fault => simp

theorem bound_ok {text : String} {found : Option Literal} :
    bound text = .ok found ↔
      (∀ side, boundOf text = some (momentOf side) → Reads side) ∧
        found.map .literal = boundOf text := by
  unfold bound boundOf
  split
  · cases found <;> simp
  · rw [Success.map_ok]
    simp only [moment_ok]
    cases found <;> simp [momentOf, eq_comm]

theorem mem_bounds {period : Period} {bound : Expression} :
    bound ∈ period.bounds ↔ period.start = some bound ∨ period.finish = some bound := by
  simp [Period.bounds]

/-- A text without a slash is read if it is a datetime. -/
theorem ofText_moment {text : String} (whole : '/' ∉ text.toList) {span : TimeSpan} :
    ofText text = .ok span ↔ Reads text ∧ .instant (.typed text Vocabulary.xsdDateTime) = span := by
  have read : ofText text = moment text >>= fun moment => .ok (.instant moment) := by
    rw [ofText, Text.splitOnce_eq_none.2 whole]
    rfl
  rw [read, Success.bind_ok]
  simp [moment_ok]

/-- A text with a slash is read if its sides are, unless both are open. -/
theorem ofText_period {start finish : String} (apart : '/' ∉ start.toList) {span : TimeSpan} :
    ofText (start ++ "/" ++ finish) = .ok span ↔
      (∀ side, boundOf start = some (momentOf side) ∨ boundOf finish = some (momentOf side) →
        Reads side) ∧
        span.period = ⟨boundOf start, boundOf finish⟩ ∧ ∀ moment, span ≠ .instant moment := by
  have split : Text.splitOnce '/' (start ++ "/" ++ finish) = some (start, finish) :=
    Text.splitOnce_append apart
  rw [ofText, split]
  constructor
  · intro read
    obtain ⟨first, firstRead, read⟩ := Success.bind_ok.1 read
    obtain ⟨last, lastRead, made⟩ := Success.bind_ok.1 read
    obtain ⟨firstKnown, firstSame⟩ := bound_ok.1 firstRead
    obtain ⟨lastKnown, lastSame⟩ := bound_ok.1 lastRead
    refine ⟨fun side either => either.elim (firstKnown side) (lastKnown side), ?_⟩
    rw [← firstSame, ← lastSame]
    cases first <;> cases last <;> cases made <;> exact ⟨rfl, nofun⟩
  · rintro ⟨known, same, other⟩
    have both {first last : Option Literal} (starts : first.map .literal = span.period.start)
        (finishes : last.map .literal = span.period.finish) :
        bound start = .ok first ∧ bound finish = .ok last := by
      rw [same] at starts finishes
      exact ⟨bound_ok.2 ⟨fun side given => known side (.inl given), starts⟩,
        bound_ok.2 ⟨fun side given => known side (.inr given), finishes⟩⟩
    cases span with
    | instant moment => exact absurd rfl (other moment)
    | «until» last =>
      obtain ⟨firstRead, lastRead⟩ := @both none (some last) rfl rfl
      exact Success.bind_ok.2 ⟨_, firstRead, Success.bind_ok.2 ⟨_, lastRead, rfl⟩⟩
    | since first =>
      obtain ⟨firstRead, lastRead⟩ := @both (some first) none rfl rfl
      exact Success.bind_ok.2 ⟨_, firstRead, Success.bind_ok.2 ⟨_, lastRead, rfl⟩⟩
    | between first last =>
      obtain ⟨firstRead, lastRead⟩ := @both (some first) (some last) rfl rfl
      exact Success.bind_ok.2 ⟨_, firstRead, Success.bind_ok.2 ⟨_, lastRead, rfl⟩⟩

theorem exists_span {start finish : String}
    (bounded : (Period.mk (boundOf start) (boundOf finish)).bounds ≠ []) :
    ∃ span : TimeSpan, span.period = ⟨boundOf start, boundOf finish⟩ ∧
      ∀ moment, span ≠ .instant moment := by
  revert bounded
  rw [boundOf, boundOf]
  split <;> split
  · exact absurd rfl
  · exact fun _ => ⟨.until _, rfl, nofun⟩
  · exact fun _ => ⟨.since _, rfl, nofun⟩
  · exact fun _ => ⟨.between _ _, rfl, nofun⟩

/-- A text is read as a span of its period, if that has a bound and its bounds are datetimes. -/
theorem Denotes.ofText {text : String} {period : Period} (denotes : Denotes text period) :
    (∀ span, ofText text = .ok span → span.period = period) ∧
      ((∃ span, ofText text = .ok span) ↔
        period.bounds ≠ [] ∧ ∀ side, momentOf side ∈ period.bounds → Reads side) := by
  cases denotes with
  | moment whole =>
    refine ⟨fun span read => ?_, ?_⟩
    · obtain ⟨-, rfl⟩ := (ofText_moment whole).1 read
      rfl
    · simp [ofText_moment whole, Period.bounds, Period.instant, momentOf]
  | period apart =>
    refine ⟨fun span read => ((ofText_period apart).1 read).2.1, ?_, ?_⟩
    · rintro ⟨span, read⟩
      obtain ⟨known, same, -⟩ := (ofText_period apart).1 read
      exact ⟨same ▸ period_bounds_ne_nil span, fun side member => known side (mem_bounds.1 member)⟩
    · rintro ⟨bounded, known⟩
      obtain ⟨span, same, other⟩ := exists_span bounded
      exact ⟨span, (ofText_period apart).2
        ⟨fun side member => known side (mem_bounds.2 member), same, other⟩⟩

/-! ### Comparisons -/

/-- The conditions on a moment. -/
def conditions (span : TimeSpan) : List Expression :=
  span.comparisons.map fun (comparison, literal) =>
    .compare (.var datetime) comparison (.literal literal)

theorem lower_eq (span : TimeSpan) (predicate : Iri) (focus : Term) :
    span.lower predicate focus =
      [.filter (.exists (.ofTriple focus (.predicate predicate) (.var datetime) ::
        span.conditions.map .filter))] := by
  rw [lower, conditions, List.map_map]
  rfl

/-- A moment is compared with bounds only. -/
theorem literal_mem_bounds {span : TimeSpan} {comparison : Sparql.Comparison} {literal : Literal}
    (member : (comparison, literal) ∈ span.comparisons) :
    .literal literal ∈ span.period.bounds := by
  cases span with
  | between start finish =>
    rcases List.mem_pair.1 member with same | same
    · cases same
      exact List.mem_cons_self
    · cases same
      exact List.mem_cons_of_mem _ List.mem_cons_self
  | _ =>
    cases List.mem_singleton.1 member
    exact List.mem_cons_self

section

variable {α : Type*} [LinearOrder α] (place : Expression → α)

/-- A moment meets all conditions exactly if it intersects the period. -/
theorem holdsAt_conditions (span : TimeSpan) :
    (Expression.and span.conditions).holdsAt place =
      (TemporalRelation.intersects.filter (.instant (.var datetime)) span.period).holdsAt
        place := by
  rw [Bool.eq_iff_iff, TemporalRelation.holdsAt_filter, Expression.holdsAt_and]
  cases span <;>
    simp only [conditions, comparisons, List.map_cons, List.map_nil, List.all_cons, List.all_nil,
      Bool.and_true, Bool.and_eq_true, Expression.holdsAt, Sparql.Comparison.holds,
      decide_eq_true_eq, period, TemporalRelation.Means, Period.startMoment, Period.finishMoment,
      Period.startPoint, Period.finishPoint, Period.instant, Option.map_some, Option.map_none,
      Option.getD_some, Option.getD_none, Filter.Endpoint.moment, WithBot.coe_le_coe,
      WithTop.coe_le_coe, bot_le, le_top, and_true, true_and]
  case instant => exact le_antisymm_iff
  case between => exact and_comm

/-- In a query that compares by places, the conditions have the value that the relation has. -/
theorem value_conditions {engine : Engine} {graph : Rdf.Graph} {rows : List Solution}
    {view : Solution} (span : TimeSpan)
    (compared : (Period.instant (.var datetime)).ComparedBy place engine graph rows view
      span.period) :
    (Expression.and span.conditions).value engine graph rows view =
      (TemporalRelation.intersects.filter (.instant (.var datetime)) span.period).value engine
        graph rows view := by
  have conditions : (Expression.and span.conditions).Agrees place engine graph rows view := by
    refine .and place fun condition member => ?_
    obtain ⟨⟨comparison, literal⟩, inside, rfl⟩ := List.mem_map.1 member
    exact compared _ List.mem_cons_self _ (literal_mem_bounds inside) comparison
  rw [conditions, TemporalRelation.agrees_filter place .intersects compared, holdsAt_conditions]

end

/-! ### The datetime parameter -/

/-- The `datetime` parameter means `t_intersects`: a text stands for one period, and is read exactly
if the period has a bound and all its bounds are read as datetimes. The restriction of a text that
was read compares the moment so that the conditions hold exactly if the moment intersects the
period, in every order of the moments. -/
theorem lower_means_intersects (text : String) :
    ∃ period, Denotes text period ∧ (∀ other, Denotes text other → other = period) ∧
      ((∃ span, ofText text = .ok span) ↔
        period.bounds ≠ [] ∧ ∀ side, momentOf side ∈ period.bounds → Reads side) ∧
      (period.bounds = [] ∨
          (∃ side, momentOf side ∈ period.bounds ∧ ¬ Calendar.IsDateTime side) →
        ∃ error, ofText text = .error error) ∧
      ∀ span, ofText text = .ok span → ∀ (predicate : Iri) (focus : Term), ∃ conditions,
        span.lower predicate focus = [.filter (.exists
          (.ofTriple focus (.predicate predicate) (.var datetime) :: conditions.map .filter))] ∧
        ∀ {α : Type*} [LinearOrder α] (place : Expression → α),
          (Expression.and conditions).holdsAt place =
            (TemporalRelation.intersects.filter (.instant (.var datetime)) period).holdsAt place ∧
          ∀ {engine : Engine} {graph : Rdf.Graph} {rows : List Solution} {view : Solution},
            (Period.instant (.var datetime)).ComparedBy place engine graph rows view period →
              (Expression.and conditions).value engine graph rows view =
                (TemporalRelation.intersects.filter (.instant (.var datetime)) period).value engine
                  graph rows view := by
  have denotes : Denotes text (periodOf text) := denotes_iff.2 rfl
  obtain ⟨same, accepts⟩ := denotes.ofText
  refine ⟨periodOf text, denotes, fun other => denotes_iff.1, accepts, fun refused => ?_,
    fun span read predicate focus => ⟨span.conditions, span.lower_eq predicate focus,
      fun place => ?_⟩⟩
  · cases read : ofText text with
    | error error => exact ⟨error, rfl⟩
    | ok span =>
      obtain ⟨bounded, known⟩ := accepts.1 ⟨span, read⟩
      rcases refused with none | ⟨side, member, other⟩
      · exact absurd none bounded
      · obtain ⟨value, found⟩ := known side member
        exact absurd (Calendar.isDateTime_of_readDateTime found) other
  · rw [← same span read]
    exact ⟨span.holdsAt_conditions place, fun compared => span.value_conditions place compared⟩

/-- The places of a moment and of literals that are told by their texts. -/
def placeAt (moment : String) : Expression → String
  | .literal value => value.text
  | _ => (Literal.typed moment Vocabulary.xsdDateTime).text

/-- The solution that gives a moment to a resource. -/
def viewAt (moment : String) : Solution :=
  Function.update Solution.empty (.var datetime)
    (some (.literal (.typed moment Vocabulary.xsdDateTime)))

theorem agrees_moment (moment : String) (comparison : Sparql.Comparison) (literal : Literal) :
    (Expression.compare (.var datetime) comparison (.literal literal)).Agrees (placeAt moment)
      TemporalRelation.textEngine .empty [] (viewAt moment) := rfl

/-- The period since a moment, and one with a bound that is not a datetime. -/
theorem lower_means_intersects_since :
    ¬ Calendar.IsDateTime "soon" ∧
    (∃ error, ofText "2020-01-01T00:00:00Z/soon" = .error error) ∧
    ofText "2020-01-01T00:00:00Z/.." =
      .ok (.since (.typed "2020-01-01T00:00:00Z" Vocabulary.xsdDateTime)) ∧
    (Period.instant (.var datetime)).ComparedBy (placeAt "2020-06-01T00:00:00Z")
      TemporalRelation.textEngine .empty [] (viewAt "2020-06-01T00:00:00Z")
      ⟨some (momentOf "2020-01-01T00:00:00Z"), none⟩ ∧
    ∃ conditions : List Expression,
      (TimeSpan.since (.typed "2020-01-01T00:00:00Z" Vocabulary.xsdDateTime)).lower
          Vocabulary.schemaTemporal focus = [.filter (.exists
        (.ofTriple focus (.predicate Vocabulary.schemaTemporal) (.var datetime) ::
          conditions.map .filter))] ∧
      (Expression.and conditions).value TemporalRelation.textEngine .empty []
          (viewAt "2020-06-01T00:00:00Z") =
        (TemporalRelation.intersects.filter (.instant (.var datetime))
          ⟨some (momentOf "2020-01-01T00:00:00Z"), none⟩).value
            TemporalRelation.textEngine .empty [] (viewAt "2020-06-01T00:00:00Z") := by
  have refused : ¬ Calendar.IsDateTime "soon" := by
    rintro ⟨date, time, zone, -, -, -, written⟩
    have letter : 'T' ∈ "soon".toList := by
      rw [written]
      simp
    exact absurd letter (by decide)
  have read : ofText "2020-01-01T00:00:00Z/.." =
      .ok (.since (.typed "2020-01-01T00:00:00Z" Vocabulary.xsdDateTime)) := rfl
  have compared : (Period.instant (.var datetime)).ComparedBy (placeAt "2020-06-01T00:00:00Z")
      TemporalRelation.textEngine .empty [] (viewAt "2020-06-01T00:00:00Z")
      ⟨some (momentOf "2020-01-01T00:00:00Z"), none⟩ := by
    intro first among second other comparison
    obtain rfl : first = .var datetime := by simpa [Period.bounds, Period.instant] using among
    obtain rfl : second = momentOf "2020-01-01T00:00:00Z" := by
      simpa [Period.bounds] using other
    exact agrees_moment _ _ _
  obtain ⟨_, -, one, -, refuses, -⟩ := lower_means_intersects.{0} "2020-01-01T00:00:00Z/soon"
  obtain rfl := one _ (@Denotes.period "2020-01-01T00:00:00Z" "soon" (by decide))
  obtain ⟨_, -, one, -, -, means⟩ := lower_means_intersects "2020-01-01T00:00:00Z/.."
  obtain rfl := one _ (@Denotes.period "2020-01-01T00:00:00Z" ".." (by decide))
  obtain ⟨conditions, lowered, same⟩ := means _ read Vocabulary.schemaTemporal focus
  exact ⟨refused, refuses (.inr ⟨"soon", mem_bounds.2 (.inr rfl), refused⟩), read, compared,
    conditions, lowered, (same _).2 compared⟩

end Listing.TimeSpan

end ShapeQuery
