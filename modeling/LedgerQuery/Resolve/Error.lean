/-
  LedgerQuery.Resolve.Error

  Why a link between records cannot be followed.
-/
import LedgerQuery.Service.Error

namespace LedgerQuery

/-- A failure to follow a link. -/
inductive ResolveError where
  | multipleMatches (count : Nat)
  | missingDependency (message : String)
  | query (e : QueryError)
  | record (e : RecordError)
  deriving DecidableEq

namespace ResolveError

/-- The wording of a failure, with the words in which the reader of payloads refuses one. -/
def message (wording : Bytes → String) : ResolveError → String
  | .multipleMatches count =>
    "expected at most one linked record, found " ++ Numeral.render count
  | .missingDependency message => message
  | .query e => "query failed: " ++ e.message wording
  | .record e => "record type error: " ++ e.message

end ResolveError

end LedgerQuery
