/-
  LedgerQuery.Vault.Store

  The records of a vault. A transaction consumes recorded records and produces new ones; either
  all of it is applied or none. Records keep the slots that they were first put into.
-/
import LedgerQuery.Query.Builder
import LedgerQuery.Query.Sorting
import LedgerQuery.Record.Update
import LedgerQuery.Vault.Error

namespace LedgerQuery

/-! ## Transactions -/

/-- A record that a transaction is about to produce; committing gives it its reference. -/
structure Output where
  back : Option RecordRef
  lineage : List RecordType
  payload : Json
  participants : List Party
  linearId : Option LinearId

/-- The output that holds a state. -/
def Output.ofState {α : Type} [RecordState α] (back : Option RecordRef) (state : α) : Output where
  back := back
  lineage := RecordState.lineage α
  payload := toJson state
  participants := RecordState.participants state
  linearId := RecordState.linearId state

/-- A transaction ready to be committed. -/
structure Transaction where
  id : TransactionId
  inputs : List RecordRef
  outputs : List Output

namespace Transaction

/-- The reference of an output. -/
def outputRef (t : Transaction) (index : Nat) : RecordRef := ⟨t.id, UInt32.ofNat index⟩

end Transaction

/-! ## Records -/

/-- What a vault has recorded: the records in their slots, the slot of each reference, and the
    transactions. -/
structure Store where
  records : List StoredRecord := []
  slots : List (RecordRef × Nat) := []
  transactions : List TransactionId := []

namespace Store

def empty : Store := {}

/-- The slot of a reference. -/
def slot? (s : Store) (r : RecordRef) : Option Nat := s.slots.lookup r

/-- The record with a reference. -/
def get? (s : Store) (r : RecordRef) : Option StoredRecord :=
  (s.slot? r).bind fun slot => s.records[slot]?

/-- The record with a reference, or the error that there is none. -/
def get (s : Store) (r : RecordRef) : Except VaultError StoredRecord :=
  match s.get? r with
  | some record => .ok record
  | none => .error (.recordNotFound r)

/-! ## Checks -/

/-- Check inputs in order: each is recorded, not consumed, and not among those before it. -/
def checkInputs (s : Store) (seen : List RecordRef) : List RecordRef → Except VaultError Unit
  | [] => .ok ()
  | input :: rest =>
    match s.get? input with
    | none => .error (.recordNotFound input)
    | some record =>
      -- An input that is named twice would be consumed twice by the same transaction.
      if record.status = .consumed ∨ input ∈ seen then .error (.alreadyConsumed input)
      else s.checkInputs (input :: seen) rest

/-- Check that the predecessors of outputs are recorded; `index` is the place of the first. -/
def checkOutputs (s : Store) (id : TransactionId) (index : Nat) :
    List Output → Except VaultError Unit
  | [] => .ok ()
  | output :: rest =>
    match output.back with
    | none => s.checkOutputs id (index + 1) rest
    | some back =>
      if (s.slot? back).isSome then s.checkOutputs id (index + 1) rest
      else
        .error (.chainViolation ⟨id, UInt32.ofNat index⟩
          ("predecessor " ++ back.render ++ " is not recorded"))

/-- Check a transaction against what is recorded. -/
def check (s : Store) (t : Transaction) : Except VaultError Unit :=
  if t.id ∈ s.transactions then .error (.duplicateTransaction t.id)
  else
    match s.checkInputs [] t.inputs with
    | .ok () => s.checkOutputs t.id 0 t.outputs
    | .error e => .error e

/-! ## Committing -/

/-- A record as it is after being consumed. -/
def consumed (now : Instant) (r : StoredRecord) : StoredRecord :=
  { r with status := .consumed, consumedAt := some now }

/-- Consume the record with a reference; it comes with the records after the change. -/
def consume (now : Instant) (s : Store) (input : RecordRef) : Option StoredRecord × Store :=
  match s.slot? input with
  | none => (none, s)
  | some slot =>
    let records := s.records.modify slot (consumed now)
    (records[slot]?, { s with records })

/-- Consume records in order. -/
def consumeAll (now : Instant) (s : Store) : List RecordRef → List StoredRecord × Store
  | [] => ([], s)
  | input :: rest =>
    let (record, s) := s.consume now input
    let (records, s) := s.consumeAll now rest
    (record.toList ++ records, s)

/-- The record that an output becomes. -/
def produced (relevant : List Party → Bool) (now : Instant) (id : TransactionId) (index : Nat)
    (o : Output) : StoredRecord where
  reference := ⟨id, UInt32.ofNat index⟩
  back := o.back
  lineage := o.lineage
  payload := o.payload
  participants := o.participants
  linearId := o.linearId
  relevant := relevant o.participants
  status := .unconsumed
  recordedAt := now
  consumedAt := none

/-- Put a new record into the next slot. -/
def append (s : Store) (r : StoredRecord) : Store :=
  { s with records := s.records ++ [r], slots := (r.reference, s.records.length) :: s.slots }

/-- Commit a transaction that passes the checks. `relevant` says of which parties the records
    concern the local node. -/
def commit (relevant : List Party → Bool) (now : Instant) (s : Store) (t : Transaction) :
    Except VaultError (Update × Store) :=
  match s.check t with
  | .error e => .error e
  | .ok () =>
    -- Nothing below can fail, so that a transaction is never applied in part.
    let (consumed, s) := s.consumeAll now t.inputs
    let produced := t.outputs.mapIdx (produced relevant now t.id)
    let s := produced.foldl append s
    .ok (⟨t.id, consumed, produced⟩, { s with transactions := t.id :: s.transactions })

/-! ## Queries -/

/-- All records that a query matches, in its order. -/
def select (s : Store) (q : Query) : List StoredRecord :=
  q.sort.arrange (s.records.filter q.criteria.admits)

/-- The page that a query asks for. -/
def page (s : Store) (q : Query) : Page StoredRecord :=
  let found := s.select q
  ⟨(found.drop q.paging.offset.toNat).take q.paging.size.toNat, UInt64.ofNat found.length⟩

end Store

end LedgerQuery
