/-
  LedgerQuery.Resolve.Chain

  The links along chains of record versions.
-/
import LedgerQuery.Record.Chain
import LedgerQuery.Resolve.Basic

namespace LedgerQuery.Resolver

variable {α : Type}

/-- The record that a record evolved from, given the reference it names; the first of a chain
    names none and has no predecessor. -/
def predecessorOf (back : Option RecordRef) : Resolver α where
  restrict b := .ok (b.set (.references back.toList))
  pointsTo v := back = some v.reference
  status := .all

/-- The records that evolved from the record with a reference. -/
def successorsOf (target : RecordRef) : Resolver α where
  restrict b := (Field.backReference.compile (.equalTo (some target) false)).map b.filter
  pointsTo v := v.link.pointsTo target
  status := .all

end LedgerQuery.Resolver
