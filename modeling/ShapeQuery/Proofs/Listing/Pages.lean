/-
This file computes pages in words of 64 bits. A request is refused exactly when its limit is zero,
or when it counts on the number of a page that is zero or too large; the slice of every other
request is what the arithmetic of words gives, and nothing is wrapped on the way. The pages of a
limit tile the results, and a page of search results asks for one result more than a page without a
search.
-/
import Mathlib.Data.UInt
import ShapeQuery.Listing.Assembly
import ShapeQuery.Proofs.Success

namespace ShapeQuery.Listing

open Number (greatestWord)
open Sparql (Query)
open Success (bind_ok)

/-! ### Words -/

theorem succ_greatestWord : greatestWord + 1 = UInt64.size := by
  decide

/-- A product that fits into a word is not wrapped. -/
theorem toNat_mul_of_le {first second : UInt64}
    (fits : first.toNat * second.toNat ≤ greatestWord) :
    (first * second).toNat = first.toNat * second.toNat := by
  rw [UInt64.toNat_mul]
  exact Nat.mod_eq_of_lt (Nat.lt_of_lt_of_eq (Nat.lt_succ_of_le fits) succ_greatestWord)

theorem toNat_pos {word : UInt64} (nonzero : word ≠ 0) : 0 < word.toNat :=
  Nat.pos_of_ne_zero fun zero => nonzero (UInt64.toNat_inj.1 zero)

/-- A word that is not zero is not wrapped when it is lowered. -/
theorem toNat_pred {word : UInt64} (nonzero : word ≠ 0) : (word - 1).toNat = word.toNat - 1 :=
  UInt64.toNat_sub_of_le word 1 (UInt64.le_iff_toNat_le.2 (toNat_pos nonzero))

/-! ### Slices -/

/-- The limit that counts: the given or the standard one, but at most the greatest. -/
def limitOf (limit : Option UInt64) (standard greatest : UInt64) : UInt64 :=
  min (limit.getD standard) greatest

namespace Parameters

/-- Parameters with other numbers, given as words. -/
def numbered (parameters : Parameters) (page : UInt64) (limit start : Option UInt64) : Parameters :=
  { parameters with
    page := page.toNat, limit := limit.map UInt64.toNat, startIndex := start.map UInt64.toNat }

variable (parameters : Parameters) {page : UInt64} {limit start : Option UInt64}
  {standard greatest : UInt64}

theorem limit_numbered :
    min ((parameters.numbered page limit start).limit.getD standard.toNat) greatest.toNat =
      (limitOf limit standard greatest).toNat := by
  cases limit <;> exact (UInt64.toNat_min _ _).symm

/-- A request without a limit to count on is refused. -/
theorem toPage_of_no_limit (zero : limitOf limit standard greatest = 0) :
    (parameters.numbered page limit start).toPage standard.toNat greatest.toNat =
      .error (.parameter .noLimit) := by
  rw [toPage, limit_numbered, zero]
  rfl

/-- A start index counts whatever the number of the page is. -/
theorem toPage_of_start {offset : UInt64} (nonzero : limitOf limit standard greatest ≠ 0) :
    (parameters.numbered page limit (some offset)).toPage standard.toNat greatest.toNat =
      .ok ⟨(limitOf limit standard greatest).toNat, offset.toNat⟩ := by
  rw [toPage, limit_numbered]
  exact if_neg (Nat.ne_of_gt (toNat_pos nonzero))

/-- Without a start index the pages before this one are left out, if they can be counted. -/
theorem toPage_of_page (nonzero : limitOf limit standard greatest ≠ 0) :
    (parameters.numbered page limit none).toPage standard.toNat greatest.toNat =
      if page = 0 then .error (.parameter .noPage)
      else if greatestWord < (limitOf limit standard greatest).toNat * (page.toNat - 1) then
        .error (.parameter .pageTooLarge)
      else .ok ⟨(limitOf limit standard greatest).toNat,
        (limitOf limit standard greatest).toNat * (page.toNat - 1)⟩ := by
  have number : (parameters.numbered page limit none).page = 0 ↔ page = 0 :=
    show page.toNat = UInt64.toNat 0 ↔ page = 0 from UInt64.toNat_inj
  rw [toPage, limit_numbered, if_neg (Nat.ne_of_gt (toNat_pos nonzero))]
  simp only [number]
  rfl

/-- The slice of a page is told by the number of the pages before it. -/
theorem toPage_ok (nonzero : limitOf limit standard greatest ≠ 0) {slice : Page} :
    (parameters.numbered page limit none).toPage standard.toNat greatest.toNat = .ok slice ↔
      page ≠ 0 ∧ (limitOf limit standard greatest).toNat * (page.toNat - 1) ≤ greatestWord ∧
        ⟨(limitOf limit standard greatest).toNat,
          (limitOf limit standard greatest).toNat * (page.toNat - 1)⟩ = slice := by
  rw [toPage_of_page parameters nonzero]
  split
  · rename_i zero
    simp [zero]
  · rename_i counted
    split
    · rename_i large
      simp [Nat.not_le_of_gt large]
    · rename_i small
      simp [counted, Nat.le_of_not_lt small]

end Parameters

/-! ### Tiling -/

/-- Whether a slice shows the result with an index. -/
def Page.Shows (slice : Page) (index : Nat) : Prop :=
  slice.offset ≤ index ∧ index < slice.offset + slice.limit

/-- A slice behind whole pages shows the results that as many pages are before. -/
theorem Page.shows_iff {limit pages index : Nat} (positive : 0 < limit) :
    Page.Shows ⟨limit, limit * pages⟩ index ↔ index / limit = pages := by
  rw [Nat.div_eq_iff positive, Nat.mul_comm pages limit]
  show limit * pages ≤ index ∧ index < limit * pages + limit ↔ _
  omega

/-- The result with an index is shown on exactly one page, if that has a number. -/
theorem Parameters.existsUnique_page (parameters : Parameters) {limit : Option UInt64}
    {standard greatest : UInt64} (nonzero : limitOf limit standard greatest ≠ 0) (index : UInt64)
    (numbered : index.toNat / (limitOf limit standard greatest).toNat + 1 < UInt64.size) :
    ∃! page : UInt64, ∃ slice,
      (parameters.numbered page limit none).toPage standard.toNat greatest.toNat = .ok slice ∧
        slice.Shows index.toNat := by
  have positive := toNat_pos nonzero
  have number := UInt64.toNat_ofNat_of_lt' numbered
  refine ⟨.ofNat (index.toNat / (limitOf limit standard greatest).toNat + 1), ⟨_,
    (toPage_ok parameters nonzero).2 ⟨fun zero => ?_, ?_, rfl⟩, ?_⟩, ?_⟩
  · rw [zero] at number
    exact absurd number.symm (Nat.succ_ne_zero _)
  · rw [number, Nat.add_sub_cancel]
    exact (Nat.mul_div_le _ _).trans
      (Nat.le_of_lt_succ (Nat.lt_of_lt_of_eq index.toNat_lt succ_greatestWord.symm))
  · rw [number]
    exact (Page.shows_iff positive).2 rfl
  · rintro page ⟨slice, made, shows⟩
    obtain ⟨counted, -, rfl⟩ := (toPage_ok parameters nonzero).1 made
    rw [← UInt64.toNat_inj, number, (Page.shows_iff positive).1 shows]
    exact (Nat.sub_add_cancel (toNat_pos counted)).symm

/-! ### Searches -/

/-- Whether a query selects a number of results behind others. -/
def AsksFor (query : Query) (limit offset : Nat) : Prop :=
  ∃ selected described, query.pattern = .select selected :: described ∧
    selected.modifier.limit = some limit ∧ selected.modifier.offset = some offset

/-- A page of search results asks for one result more than it shows. -/
theorem asksFor_search (search : Search) (slice : Page) :
    AsksFor (search.query slice) (min (slice.limit + 1) greatestWord) slice.offset :=
  ⟨_, [], rfl, rfl, rfl⟩

/-- The slice of a listing, one result longer if it searches. -/
theorem sliced_limit {assembly : Assembly} {slice : Page} (paged : assembly.page = some slice) :
    assembly.sliced.limit =
        some (if assembly.search.isSome then min (slice.limit + 1) greatestWord else slice.limit) ∧
      assembly.sliced.offset = some slice.offset := by
  rw [Assembly.sliced, paged]
  cases assembly.search <;> exact ⟨rfl, rfl⟩

/-- An order does not change the slice. -/
theorem pageSelection_sliced {assembly : Assembly} {element : Sparql.Element}
    (selected : assembly.pageSelection = .ok element) :
    ∃ query, element = .select query ∧ query.modifier.limit = assembly.sliced.limit ∧
      query.modifier.offset = assembly.sliced.offset := by
  unfold Assembly.pageSelection at selected
  cases ordered : assembly.order with
  | none =>
    rw [ordered] at selected
    cases selected
    exact ⟨_, rfl, rfl, rfl⟩
  | some order =>
    rw [ordered] at selected
    obtain ⟨predicate, -, further⟩ := bind_ok.1 selected
    cases predicate <;> cases further <;> exact ⟨_, rfl, rfl, rfl⟩

/-- The page of a listing asks for one result more than it shows if it searches. -/
theorem asksFor_assembly {assembly : Assembly} {slice : Page} {query : Query}
    (paged : assembly.page = some slice) (assembled : assembly.query = .ok query) :
    AsksFor query
      (if assembly.search.isSome then min (slice.limit + 1) greatestWord else slice.limit)
      slice.offset := by
  rw [Assembly.query, if_neg (by simp [Assembly.isWhole, paged])] at assembled
  obtain ⟨element, selected, made⟩ := bind_ok.1 assembled
  obtain ⟨select, rfl, limited, offset⟩ := pageSelection_sliced selected
  cases made
  exact ⟨select, _, rfl, limited.trans (sliced_limit paged).1, offset.trans (sliced_limit paged).2⟩

/-! ### Requests -/

/-- What the numbers of a request, given as words, come to. -/
structure Paged (parameters : Parameters) (page : UInt64) (limit start : Option UInt64)
    (standard greatest : UInt64) : Prop where
  /-- A request is refused for want of a limit or of a page that can be counted. -/
  refused : (∃ fault, (parameters.numbered page limit start).toPage standard.toNat
      greatest.toNat = .error fault) ↔
    limitOf limit standard greatest = 0 ∨ start = none ∧ (page = 0 ∨
      greatestWord < (limitOf limit standard greatest).toNat * (page.toNat - 1))
  /-- The slice of any other is what the arithmetic of words gives; where it counts pages, nothing
  is taken from zero and no product is wrapped. -/
  unwrapped : ∀ slice, (parameters.numbered page limit start).toPage standard.toNat
      greatest.toNat = .ok slice →
    slice.limit = (limitOf limit standard greatest).toNat ∧
    slice.offset = (start.getD (limitOf limit standard greatest * (page - 1))).toNat ∧
    (start = none → page ≠ 0 ∧
      slice.offset = (limitOf limit standard greatest).toNat * (page.toNat - 1))
  /-- Every result is on exactly one of the pages of the limit. -/
  tiled : limitOf limit standard greatest ≠ 0 → ∀ index : UInt64,
    index.toNat / (limitOf limit standard greatest).toNat + 1 < UInt64.size →
    ∃! number : UInt64, ∃ slice, (parameters.numbered number limit none).toPage standard.toNat
        greatest.toNat = .ok slice ∧ slice.Shows index.toNat
  /-- A search asks for one result more than the slice shows, if there is a word for that. -/
  searched : ∀ slice, (parameters.numbered page limit start).toPage standard.toNat
      greatest.toNat = .ok slice →
    (∀ search : Search, AsksFor (search.query slice) (min (slice.limit + 1) greatestWord)
      slice.offset) ∧
    ∀ (assembly : Assembly) (query : Query), assembly.page = some slice →
      assembly.query = .ok query → AsksFor query
        (if assembly.search.isSome then min (slice.limit + 1) greatestWord else slice.limit)
        slice.offset

/-- Pages tile the results, and no number of a request is wrapped on the way to its slice. -/
theorem paged_of_words (parameters : Parameters) (page : UInt64) (limit start : Option UInt64)
    (standard greatest : UInt64) : Paged parameters page limit start standard greatest where
  refused := by
    by_cases zero : limitOf limit standard greatest = 0
    · exact iff_of_true ⟨_, parameters.toPage_of_no_limit zero⟩ (.inl zero)
    · cases start with
      | some offset =>
        rw [parameters.toPage_of_start zero]
        simp [zero]
      | none =>
        rw [parameters.toPage_of_page zero]
        split
        · simp [*]
        · split <;> simp [*]
  unwrapped slice made := by
    by_cases zero : limitOf limit standard greatest = 0
    · cases made.symm.trans (parameters.toPage_of_no_limit zero)
    · cases start with
      | some offset =>
        cases made.symm.trans (parameters.toPage_of_start zero)
        exact ⟨rfl, rfl, nofun⟩
      | none =>
        obtain ⟨counted, fits, rfl⟩ := (Parameters.toPage_ok parameters zero).1 made
        refine ⟨rfl, ?_, fun _ => ⟨counted, rfl⟩⟩
        rw [← toNat_pred counted] at fits
        rw [Option.getD_none, toNat_mul_of_le fits, toNat_pred counted]
  tiled nonzero index numbered := parameters.existsUnique_page nonzero index numbered
  searched slice _ := ⟨fun search => asksFor_search search slice,
    fun _ _ paged assembled => asksFor_assembly paged assembled⟩

end ShapeQuery.Listing
