/-
  LedgerQuery.Record.Stored

  Records as a store holds them, and typed views of them. The payload is JSON; where a record is
  written down as a whole the payload stands as a JSON text inside it.
-/
import LedgerQuery.Json.Read
import LedgerQuery.Json.Render
import LedgerQuery.Record.Kind
import LedgerQuery.Record.Reference
import LedgerQuery.Time.Rfc3339

namespace LedgerQuery

open Std

/-! ## Status and time -/

/-- Whether a record version is current or superseded. -/
inductive RecordStatus where
  | unconsumed
  | consumed
  deriving DecidableEq, Repr

namespace RecordStatus

def name : RecordStatus → String
  | .unconsumed => "Unconsumed"
  | .consumed => "Consumed"

instance : JsonForm RecordStatus where
  toJson s := .text s.name
  ofJson? := Json.named? [("Unconsumed", .unconsumed), ("Consumed", .consumed)]

end RecordStatus

instance : TransOrd Instant := inferInstanceAs (TransCmp (compareOn Instant.key))

instance : JsonForm Instant :=
  ⟨fun t => .text (Rfc3339.render t), fun j => j.text?.bind Rfc3339.read?⟩

/-! ## Records -/

/-- One version of a record. -/
structure StoredRecord where
  reference : RecordRef
  back : Option RecordRef
  lineage : List RecordType
  payload : Json
  participants : List Party
  linearId : Option LinearId
  relevant : Bool
  status : RecordStatus
  recordedAt : Instant
  consumedAt : Option Instant

namespace StoredRecord

/-- The unconsumed record that holds a state. -/
def ofState {α : Type} [RecordState α] (reference : RecordRef) (back : Option RecordRef)
    (state : α) (now : Instant) : StoredRecord where
  reference := reference
  back := back
  lineage := RecordState.lineage α
  payload := toJson state
  participants := RecordState.participants state
  linearId := RecordState.linearId state
  relevant := true
  status := .unconsumed
  recordedAt := now
  consumedAt := none

/-- The record's own type, which heads its lineage. -/
def recordType (r : StoredRecord) : RecordType := r.lineage.headD .any

/-- Whether the record may be viewed as a type. -/
def isAssignableTo (r : StoredRecord) (t : RecordType) : Bool :=
  decide (t = .any ∨ t ∈ r.lineage)

/-- One step along a path into a payload: a name in an object, a place in an array. -/
def stepInto (value : Json) (segment : List Char) : Option Json :=
  match value with
  | .object fields => fields.lookup (String.ofList segment)
  | .array items => (Numeral.read? UInt64.size segment).bind fun i => items[i]?
  | _ => none

/-- The segments of a path, which points separate. -/
def segments (path : String) : List (List Char) := path.toList.splitOn '.'

/-- The value at a dotted path of the payload. -/
def field (r : StoredRecord) (path : String) : Option Json :=
  (segments path).foldlM stepInto r.payload

/-- Whether two records agree in everything, payload numbers compared by value. -/
def same (a b : StoredRecord) : Bool :=
  a.payload.same b.payload &&
    decide (a.reference = b.reference ∧ a.back = b.back ∧ a.lineage = b.lineage ∧
      a.participants = b.participants ∧ a.linearId = b.linearId ∧ a.relevant = b.relevant ∧
      a.status = b.status ∧ a.recordedAt = b.recordedAt ∧ a.consumedAt = b.consumedAt)

instance : JsonForm StoredRecord where
  toJson r := .ofFields [("reference", toJson r.reference), ("back_reference", toJson r.back),
    ("lineage", toJson r.lineage), ("payload", .text r.payload.render),
    ("participants", toJson r.participants), ("linear_id", toJson r.linearId),
    ("relevant", toJson r.relevant), ("status", toJson r.status),
    ("recorded_at", toJson r.recordedAt), ("consumed_at", toJson r.consumedAt)]
  ofJson? j := do
    match ← j.fields? ["reference", "back_reference", "lineage", "payload", "participants",
        "linear_id", "relevant", "status", "recorded_at", "consumed_at"] with
    | [reference, back, lineage, payload, participants, linearId, relevant, status, recordedAt,
        consumedAt] =>
      return {
        reference := ← required? reference
        back := ← optional? back
        lineage := ← required? lineage
        payload := ← Json.read? (← required? payload)
        participants := ← required? participants
        linearId := ← optional? linearId
        relevant := ← required? relevant
        status := ← required? status
        recordedAt := ← required? recordedAt
        consumedAt := ← optional? consumedAt }
    | _ => none

end StoredRecord

/-! ## Typed views -/

/-- A record version whose payload has been read as a state. -/
structure Versioned (α : Type) where
  reference : RecordRef
  back : Option RecordRef
  state : α
  recordType : RecordType
  participants : List Party
  linearId : Option LinearId
  status : RecordStatus
  recordedAt : Instant
  consumedAt : Option Instant

namespace Versioned

def isConsumed {α : Type} (v : Versioned α) : Bool := v.status = .consumed

/-- A reference names one immutable version, so views with one reference are the same. -/
def same {α : Type} (a b : Versioned α) : Bool := a.reference = b.reference

end Versioned

/-- View a record as a type: the type has to be in its lineage, and the payload has to read as
    a state of it. -/
def StoredRecord.view (α : Type) [RecordState α] (r : StoredRecord) :
    Except RecordError (Versioned α) :=
  let wanted := RecordState.recordType α
  if r.isAssignableTo wanted then
    match (ofJson? r.payload : Option α) with
    | some state =>
      .ok { reference := r.reference, back := r.back, state, recordType := r.recordType,
            participants := r.participants, linearId := r.linearId, status := r.status,
            recordedAt := r.recordedAt, consumedAt := r.consumedAt }
    | none => .error (.unreadableState (RecordState.unreadable α r.payload))
  else .error (.notAssignable wanted.name r.recordType.name)

end LedgerQuery
