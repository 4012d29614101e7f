/-
This file finds the slice of the results that a page shows.
-/
import ShapeQuery.Listing.Error
import ShapeQuery.Listing.Parameters

namespace ShapeQuery.Listing

/-- A slice of the results. -/
structure Page where
  limit : Nat
  offset : Nat
deriving DecidableEq, Inhabited

/-- The slice that a request asks for. The limit is at most `greatest`; a start index counts more
than the number of the page, which starts at one. -/
def Parameters.toPage (parameters : Parameters) (standard greatest : Nat) :
    Except BuildError Page :=
  let limit := min (parameters.limit.getD standard) greatest
  if limit = 0 then .error (.parameter .noLimit)
  else
    match parameters.startIndex with
    | some offset => .ok ⟨limit, offset⟩
    | none =>
      if parameters.page = 0 then .error (.parameter .noPage)
      else
        let offset := limit * (parameters.page - 1)
        if Number.greatestWord < offset then .error (.parameter .pageTooLarge)
        else .ok ⟨limit, offset⟩

end ShapeQuery.Listing
