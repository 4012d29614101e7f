/-
This file says in which ways computations fail. What a chain of computations fails with is what one
of its links fails with.
-/
import ShapeQuery.Proofs.Success

namespace ShapeQuery

variable {ε φ α β : Type}

/-- Whether a computation that fails does so in one of the given ways. -/
def FailsOnly (ways : ε → Prop) (computed : Except ε α) : Prop :=
  ∀ fault, computed = .error fault → ways fault

namespace FailsOnly

variable {ways : ε → Prop}

theorem ok (value : α) : FailsOnly ways (.ok value : Except ε α) := by
  intro fault failed
  cases failed

theorem error {fault : ε} (way : ways fault) : FailsOnly ways (.error fault : Except ε α) := by
  intro other failed
  cases failed
  exact way

theorem mono {computed : Except ε α} {others : ε → Prop} (fails : FailsOnly ways computed)
    (more : ∀ fault, ways fault → others fault) : FailsOnly others computed :=
  fun fault failed => more fault (fails fault failed)

theorem bind {first : Except ε α} {next : α → Except ε β} (here : FailsOnly ways first)
    (later : ∀ value, FailsOnly ways (next value)) : FailsOnly ways (first >>= next) := by
  cases first with
  | error fault => exact error (here fault rfl)
  | ok value => exact later value

theorem map {computed : Except ε α} (fails : FailsOnly ways computed) (change : α → β) :
    FailsOnly ways (computed.map change) := by
  cases computed with
  | error fault => exact error (fails fault rfl)
  | ok value => exact ok (change value)

theorem mapError {computed : Except φ α} {change : φ → ε}
    (fails : FailsOnly (fun fault => ways (change fault)) computed) :
    FailsOnly ways (computed.mapError change) := by
  cases computed with
  | error fault => exact error (fails fault rfl)
  | ok value => exact ok value

theorem mapM {read : α → Except ε β} {sources : List α}
    (fails : ∀ source ∈ sources, FailsOnly ways (read source)) :
    FailsOnly ways (sources.mapM read) := by
  induction sources with
  | nil => exact ok []
  | cons source rest inductionHypothesis =>
    rw [List.forall_mem_cons] at fails
    rw [List.mapM_cons]
    exact fails.1.bind fun first => (inductionHypothesis fails.2).bind fun others =>
      ok (first :: others)

end FailsOnly

end ShapeQuery
