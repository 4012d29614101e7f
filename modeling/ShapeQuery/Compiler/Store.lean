/-
This file defines stores, which keep a value for each of finitely many IRIs. Looking up what was
put into a store finds the latest value.
-/
import ShapeQuery.Iri.Basic

namespace ShapeQuery

/-- A finite map from IRIs. -/
structure Store (α : Type) where
  entries : List (Iri × α)

namespace Store

variable {α : Type}

/-- The store without values. -/
def empty : Store α := ⟨[]⟩

/-- The value for an IRI. -/
def get? (store : Store α) (iri : Iri) : Option α :=
  (store.entries.find? fun entry => entry.1 = iri).map Prod.snd

/-- Whether there is a value for an IRI. -/
def contains (store : Store α) (iri : Iri) : Bool :=
  (store.get? iri).isSome

/-- The store without a value for an IRI. -/
def erase (store : Store α) (iri : Iri) : Store α :=
  ⟨store.entries.filter fun entry => entry.1 ≠ iri⟩

/-- The store with a value for an IRI, in place of an earlier one. -/
def insert (store : Store α) (iri : Iri) (value : α) : Store α :=
  ⟨(iri, value) :: (store.erase iri).entries⟩

/-- The store with some more values; of several values for one IRI the last counts. -/
def insertAll (store : Store α) (entries : List (Iri × α)) : Store α :=
  entries.foldl (fun store entry => store.insert entry.1 entry.2) store

/-- Those of some IRIs without a value. -/
def missing (store : Store α) (iris : List Iri) : List Iri :=
  iris.filter fun iri => !store.contains iri

/-! ### Looking up -/

@[simp] theorem get?_empty (iri : Iri) : (empty : Store α).get? iri = none := rfl

theorem get?_cons (entry : Iri × α) (entries : List (Iri × α)) (iri : Iri) :
    (Store.mk (entry :: entries)).get? iri =
      if entry.1 = iri then some entry.2 else (Store.mk entries).get? iri := by
  by_cases same : entry.1 = iri <;> simp [get?, same]

@[simp] theorem get?_erase (store : Store α) (erased iri : Iri) :
    (store.erase erased).get? iri = if iri = erased then none else store.get? iri := by
  obtain ⟨entries⟩ := store
  induction entries with
  | nil => simp [erase, get?]
  | cons entry rest inductionHypothesis =>
    simp only [erase] at inductionHypothesis
    by_cases dropped : entry.1 = erased
    · rw [get?_cons]
      simp only [erase, List.filter_cons, dropped, ne_eq, not_true_eq_false, decide_false,
        Bool.false_eq_true, if_false]
      rw [inductionHypothesis]
      grind
    · simp only [erase, List.filter_cons, dropped, ne_eq, not_false_eq_true, decide_true, if_true]
      rw [get?_cons, get?_cons, inductionHypothesis]
      grind

@[simp] theorem get?_insert (store : Store α) (inserted iri : Iri) (value : α) :
    (store.insert inserted value).get? iri =
      if iri = inserted then some value else store.get? iri := by
  rw [insert, get?_cons, get?_erase]
  grind

end Store

end ShapeQuery
