/-
  LedgerQuery.Wire.Record

  The binary form of records and of what is in them. Identifiers of transactions, references,
  times and payloads are texts; an identifier of sixteen bytes is a byte string with its length.
-/
import LedgerQuery.Record.Page
import LedgerQuery.Record.Stored
import LedgerQuery.Wire.Binary

namespace LedgerQuery

open Binary

instance : BinaryForm TransactionId :=
  textual TransactionId.render fun text => (TransactionId.read text).toOption

instance : BinaryForm RecordRef :=
  textual RecordRef.render fun text => (RecordRef.read text).toOption

instance : BinaryForm RecordType := textual RecordType.name fun name => some ⟨name⟩

instance : BinaryForm Party := textual Party.name fun name => some ⟨name⟩

instance : BinaryForm Instant := textual Rfc3339.render Rfc3339.read?

instance : BinaryForm Json := textual Json.render Json.read?

instance : BinaryForm Uuid where
  write id := writeLength id.bytes.length ++ id.bytes
  read := do Uuid.ofBytes? (← take (← word 8))

instance : BinaryForm LinearId where
  write l := write l.id ++ write l.externalId
  read := return ⟨← read, ← read⟩

instance : BinaryForm RecordStatus := listed [.unconsumed, .consumed]

instance : BinaryForm StoredRecord where
  write r := write r.reference ++ write r.back ++ write r.lineage ++ write r.payload ++
    write r.participants ++ write r.linearId ++ write r.relevant ++ write r.status ++
    write r.recordedAt ++ write r.consumedAt
  read := return {
    reference := ← read
    back := ← read
    lineage := ← read
    payload := ← read
    participants := ← read
    linearId := ← read
    relevant := ← read
    status := ← read
    recordedAt := ← read
    consumedAt := ← read }

/-! ## Pages and orders -/

instance : BinaryForm PageSpec where
  write p := write p.number ++ write p.size
  read := do (PageSpec.ofParts (← read) (← read)).toOption

instance {α : Type} [BinaryForm α] : BinaryForm (Page α) where
  write p := write p.records ++ write p.total
  read := return ⟨← read, ← read⟩

instance : BinaryForm Direction := listed [.ascending, .descending]

instance : BinaryForm SortKey where
  write
    | .recordedAt => writeCase 0
    | .consumedAt => writeCase 1
    | .reference => writeCase 2
    | .field path => writeCase 3 ++ write path
  read := do
    match ← word 4 with
    | 0 => return .recordedAt
    | 1 => return .consumedAt
    | 2 => return .reference
    | 3 => return .field (← read)
    | _ => failure

instance : BinaryForm SortColumn where
  write c := write c.key ++ write c.direction
  read := return ⟨← read, ← read⟩

instance : BinaryForm SortOrder := ⟨fun s => write s.columns, SortOrder.mk <$> read⟩

end LedgerQuery
