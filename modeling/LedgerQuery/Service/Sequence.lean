/-
  LedgerQuery.Service.Sequence

  Typed results of a query. Nothing is asked before a result is wanted, and each time one is
  wanted the backend is asked exactly once, for the page of the query.
-/
import LedgerQuery.Backend.Basic
import LedgerQuery.Service.Error

namespace LedgerQuery

/-- The records of one type that a query finds. -/
structure ResultSequence (σ α : Type) where
  backend : Backend σ
  query : Query

/-- The views of records, the first with each reference, in ascending order of references. -/
def Versioned.distinct {α : Type} (views : List (Versioned α)) : List (Versioned α) :=
  let insert (v : Versioned α) (sorted : List (Versioned α)) : List (Versioned α) :=
    sorted.takeWhile (fun w => (compare w.reference v.reference).isLT) ++
      v :: sorted.dropWhile (fun w => (compare w.reference v.reference).isLE)
  views.foldr insert []

namespace ResultSequence

variable {σ α : Type} [RecordState α]

/-- Ask for the page and view its records. -/
def page (s : ResultSequence σ α) : Attempt σ QueryError (Page (Versioned α)) := do
  let page ← (s.backend.query s.query).mapError .backend
  .known ((page.mapM (StoredRecord.view α)).mapError .record)

/-- The views of the page in order. -/
def toList (s : ResultSequence σ α) : Attempt σ QueryError (List (Versioned α)) :=
  return (← s.page).records

/-- The views of the page, one for each reference, in ascending order of references. -/
def toSet (s : ResultSequence σ α) : Attempt σ QueryError (List (Versioned α)) :=
  return Versioned.distinct (← s.toList)

def any (s : ResultSequence σ α) : Attempt σ QueryError Bool :=
  return !(← s.toList).isEmpty

def count (s : ResultSequence σ α) : Attempt σ QueryError Nat :=
  return (← s.toList).length

/-- A result that has to be there. -/
def required (found : Option (Versioned α)) : Attempt σ QueryError (Versioned α) :=
  match found with
  | some v => return v
  | none => throw .emptyResult

def firstOrNone (s : ResultSequence σ α) : Attempt σ QueryError (Option (Versioned α)) :=
  return (← s.toList).head?

def first (s : ResultSequence σ α) : Attempt σ QueryError (Versioned α) := do
  required (← s.firstOrNone)

def lastOrNone (s : ResultSequence σ α) : Attempt σ QueryError (Option (Versioned α)) :=
  return (← s.toList).getLast?

def last (s : ResultSequence σ α) : Attempt σ QueryError (Versioned α) := do
  required (← s.lastOrNone)

/-- The only result, if there is one; more than one are a failure. -/
def singleOrNone (s : ResultSequence σ α) : Attempt σ QueryError (Option (Versioned α)) := do
  match ← s.toList with
  | [] => return none
  | [v] => return some v
  | found => throw (.multipleMatches found.length)

/-- The only result. -/
def single (s : ResultSequence σ α) : Attempt σ QueryError (Versioned α) := do
  required (← s.singleOrNone)

end ResultSequence

end LedgerQuery
