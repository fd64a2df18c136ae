/-
  LedgerQuery.Service.Notification

  Changes as a subscriber to one record type sees them: one notification for every record of the
  type that was consumed, then one for every record of the type that was produced.
-/
import LedgerQuery.Query.Criteria
import LedgerQuery.Record.Update
import LedgerQuery.Service.Error

namespace LedgerQuery

/-- A record that a transaction has made current or superseded. -/
structure Notification (α : Type) where
  record : Versioned α
  status : RecordStatus
  transaction : TransactionId

namespace Notification

variable (α : Type) [RecordState α]

/-- The notifications for records of the type; those of other types are passed over. -/
def ofRecords (status : RecordStatus) (transaction : TransactionId)
    (records : List StoredRecord) : Except QueryError (List (Notification α)) :=
  let ofType := records.filter fun r => r.isAssignableTo (RecordState.recordType α)
  let notice (r : StoredRecord) : Except RecordError (Notification α) :=
    (r.view α).map fun v => ⟨v, status, transaction⟩
  (ofType.mapM notice).mapError .record

/-- The notifications of a change. A subscriber to unconsumed records is not told of consumed
    ones, and a subscriber to consumed records not of produced ones. -/
def ofUpdate (status : StatusFilter) (u : Update) : Except QueryError (List (Notification α)) := do
  let consumed ← if status = .unconsumed then .ok [] else
    ofRecords α .consumed u.transaction u.consumed
  let produced ← if status = .consumed then .ok [] else
    ofRecords α .unconsumed u.transaction u.produced
  return consumed ++ produced

end Notification

end LedgerQuery
