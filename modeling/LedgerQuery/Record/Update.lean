/-
  LedgerQuery.Record.Update

  What one transaction changed: the records it consumed and the records it produced.
-/
import LedgerQuery.Record.Stored

namespace LedgerQuery

/-- The change that a transaction made. -/
structure Update where
  transaction : TransactionId
  consumed : List StoredRecord
  produced : List StoredRecord

namespace Update

def isEmpty (u : Update) : Bool := u.consumed.isEmpty && u.produced.isEmpty

/-- The change as far as it concerns the records that a test accepts. -/
def restrict (keep : StoredRecord → Bool) (u : Update) : Update :=
  { u with consumed := u.consumed.filter keep, produced := u.produced.filter keep }

section

variable {keep : StoredRecord → Bool} {u : Update} {r : StoredRecord}

@[simp] theorem mem_consumed_restrict :
    r ∈ (u.restrict keep).consumed ↔ r ∈ u.consumed ∧ keep r = true := List.mem_filter

@[simp] theorem mem_produced_restrict :
    r ∈ (u.restrict keep).produced ↔ r ∈ u.produced ∧ keep r = true := List.mem_filter

end

/-- Whether two changes agree in everything. -/
def same (a b : Update) : Bool :=
  let lists (xs ys : List StoredRecord) : Bool :=
    xs.length = ys.length && (xs.zip ys).all fun (x, y) => x.same y
  decide (a.transaction = b.transaction) && lists a.consumed b.consumed &&
    lists a.produced b.produced

end Update

end LedgerQuery
