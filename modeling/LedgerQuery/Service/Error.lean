/-
  LedgerQuery.Service.Error

  Why a typed query has no answer.
-/
import LedgerQuery.Query.Predicate
import LedgerQuery.Wire.Error

namespace LedgerQuery

/-- A failure of a typed query, of one of its results, or of an observer. -/
inductive QueryError where
  | projection (e : ProjectionError)
  | backend (e : BackendError)
  | record (e : RecordError)
  | multipleMatches (count : Nat)
  | emptyResult
  | observer (reason : String)
  deriving DecidableEq

namespace QueryError

/-- The wording of a failure, with the words in which the reader of payloads refuses one. -/
def message (wording : Bytes → String) : QueryError → String
  | .projection e => "projection error: " ++ e.message
  | .backend e => "backend error: " ++ e.message wording
  | .record e => "record type error: " ++ e.message
  | .multipleMatches count =>
    "expected at most one result, found " ++ Numeral.render count
  | .emptyResult => "expected at least one result, found none"
  | .observer reason => "observer failed: " ++ reason

end QueryError

end LedgerQuery
