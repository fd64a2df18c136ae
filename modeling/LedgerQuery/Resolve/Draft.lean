/-
  LedgerQuery.Resolve.Draft

  Transactions under construction. A draft holds whole records, in three positions: those it will
  consume, those it will produce, and those it only refers to.
-/
import LedgerQuery.Record.Stored

namespace LedgerQuery

/-- A place in a draft. -/
inductive Position where
  | input
  | output
  | reference
  deriving DecidableEq, Repr

/-- The written form. -/
def Position.render : Position → String
  | .input => "input"
  | .output => "output"
  | .reference => "reference"

/-- A transaction under construction. -/
structure Draft where
  id : TransactionId
  inputs : List StoredRecord := []
  outputs : List StoredRecord := []
  references : List StoredRecord := []

namespace Draft

def addInput (d : Draft) (r : StoredRecord) : Draft := { d with inputs := d.inputs ++ [r] }

def addReference (d : Draft) (r : StoredRecord) : Draft :=
  { d with references := d.references ++ [r] }

/-- Add an output that holds a state; its reference is the one it has once committed. -/
def addOutput {α : Type} [RecordState α] (d : Draft) (back : Option RecordRef) (state : α)
    (now : Instant) : RecordRef × Draft :=
  let reference : RecordRef := ⟨d.id, UInt32.ofNat d.outputs.length⟩
  (reference, { d with outputs := d.outputs ++ [.ofState reference back state now] })

/-- The records in a position. -/
def records (d : Draft) : Position → List StoredRecord
  | .input => d.inputs
  | .output => d.outputs
  | .reference => d.references

/-- The records in a position that are of a type, viewed as it. -/
def candidates (α : Type) [RecordState α] (d : Draft) (p : Position) :
    Except RecordError (List (Versioned α)) :=
  ((d.records p).filter fun r => r.isAssignableTo (RecordState.recordType α)).mapM
    (StoredRecord.view α)

end Draft

end LedgerQuery
