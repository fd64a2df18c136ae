/-
  LedgerQuery.Proofs.Wire.Message

  The binary forms of records, queries and messages are read back. Only the payload of a record
  puts a condition on its value, since it travels as text; everything else is read back whatever
  it is, expressions and criteria however deep they are nested.
-/
import LedgerQuery.Proofs.Json.Read
import LedgerQuery.Proofs.Record.Reference
import LedgerQuery.Proofs.Time.Rfc3339
import LedgerQuery.Proofs.Wire.Binary
import LedgerQuery.Wire.Message

namespace LedgerQuery

open Binary

/-! ## Parts of records -/

instance : LosslessForm TransactionId where
  reads id := reads_textual (by rw [id.read_render]; rfl)

instance : LosslessForm RecordRef where
  reads r := reads_textual (by rw [r.read_render]; rfl)

instance : LosslessForm RecordType where
  reads _ := reads_textual rfl

instance : LosslessForm Party where
  reads _ := reads_textual rfl

instance : LosslessForm Instant where
  reads t := reads_textual (Rfc3339.read?_render t)

instance : LosslessForm Uuid where
  reads id := by
    refine reads_counted (Nat.le_refl _) fun short rest => ?_
    have bytes := splitAt?_append id.bytes rest
    simp only [take, Bind.bind, StateT.bind, bytes, Option.bind_some, Uuid.ofBytes?,
      dif_pos id.length_eq]
    rfl

instance : LosslessForm LinearId where
  reads l := (reads l.id).bind ((reads l.externalId).settle fun _ => rfl)

instance : LosslessForm RecordStatus where
  reads s := reads_listed (by cases s <;> decide) (by decide)

instance : LosslessForm PageSpec where
  reads p := (reads p.number).bind ((reads p.size).settle fun _ => by
    have valid : PageSpec.ofParts p.number p.size = .ok p :=
      dif_pos ⟨p.number_ne_zero, p.size_ne_zero⟩
    rw [valid]
    rfl)

instance : LosslessForm Direction where
  reads d := reads_listed (by cases d <;> decide) (by decide)

instance : LosslessForm SortKey where
  reads
    | .recordedAt => (reads_case 0).settle fun _ => rfl
    | .consumedAt => (reads_case 1).settle fun _ => rfl
    | .reference => (reads_case 2).settle fun _ => rfl
    | .field path => (reads_case 3).bind ((reads path).settle fun _ => rfl)

instance : LosslessForm SortColumn where
  reads c := (reads c.key).bind ((reads c.direction).settle fun _ => rfl)

instance : LosslessForm SortOrder where
  reads s := (reads s.columns).map SortOrder.mk

/-! ## Records -/

theorem reads_payload {j : Json} (h : j.Portable Json.deepest) : Reads read (write j) j :=
  reads_textual h.read?_render

/-- A record is read back if its payload survives as text. -/
theorem reads_record {r : StoredRecord} (h : r.payload.Portable Json.deepest) :
    Reads read (write r) r := by
  show Reads _ (write r.reference ++ write r.back ++ write r.lineage ++ write r.payload ++
    write r.participants ++ write r.linearId ++ write r.relevant ++ write r.status ++
    write r.recordedAt ++ write r.consumedAt) _
  simp only [List.append_assoc]
  exact (reads r.reference).bind <| (reads r.back).bind <| (reads r.lineage).bind <|
    (reads_payload h).bind <| (reads r.participants).bind <| (reads r.linearId).bind <|
    (reads r.relevant).bind <| (reads r.status).bind <| (reads r.recordedAt).bind <|
    (reads r.consumedAt).settle fun _ => rfl

theorem reads_page {p : Page StoredRecord}
    (h : ∀ r ∈ p.records, r.payload.Portable Json.deepest) : Reads read (write p) p := by
  have hrecords : Reads read (write p.records) p.records :=
    reads_list fun r hr => reads_record (h r hr)
  exact hrecords.bind ((reads p.total).settle fun _ => rfl)

/-! ## Expressions -/

instance : LosslessForm Attribute where
  reads a := reads_listed (by cases a <;> decide) (by decide)

instance : LosslessForm FieldPath where
  reads
    | .payload path => (reads_case 0).bind ((reads path).settle fun _ => rfl)
    | .ofRecord a => (reads_case 1).bind ((reads a).settle fun _ => rfl)

instance : LosslessForm Scalar where
  reads
    | .bool b => (reads_case 0).bind ((reads b).settle fun _ => rfl)
    | .int n => (reads_case 1).bind ((reads n).settle fun _ => rfl)
    | .float x => (reads_case 2).bind ((reads x).settle fun _ => rfl)
    | .text s => (reads_case 3).bind ((reads s).settle fun _ => rfl)

instance : LosslessForm CompareOp where
  reads op := reads_listed (by
    cases op with
    | equal => decide
    | notEqual => decide
    | order op => cases op <;> decide) (by decide)

namespace Expression

/-- An expression is read back by any reader that may go deeper than there are bytes, since each
    level takes at least one. -/
theorem reads_ofBinary {depth : Nat} (e : Expression) (hfits : e.toBinary.length < depth) :
    Reads (ofBinary depth) e.toBinary e := by
  -- On the depth that is left to the reader, which reads the parts with one level less.
  induction depth generalizing e with
  | zero => cases hfits
  | succ depth ih =>
    cases e with
    | isNull field =>
      exact (reads_case 0).bind ((reads field).settle fun _ => rfl)
    | notNull field =>
      exact (reads_case 1).bind ((reads field).settle fun _ => rfl)
    | compare field op value ignoreCase =>
      rw [toBinary, ofBinary]
      simp only [List.append_assoc]
      exact (reads_case 2).bind <| (reads field).bind <| (reads op).bind <|
        (reads value).bind <| (reads ignoreCase).settle fun _ => rfl
    | between field low high =>
      rw [toBinary, ofBinary]
      simp only [List.append_assoc]
      exact (reads_case 3).bind <| (reads field).bind <| (reads low).bind <|
        (reads high).settle fun _ => rfl
    | within field values ignoreCase =>
      rw [toBinary, ofBinary]
      simp only [List.append_assoc]
      exact (reads_case 4).bind <| (reads field).bind <| (reads values).bind <|
        (reads ignoreCase).settle fun _ => rfl
    | notWithin field values ignoreCase =>
      rw [toBinary, ofBinary]
      simp only [List.append_assoc]
      exact (reads_case 5).bind <| (reads field).bind <| (reads values).bind <|
        (reads ignoreCase).settle fun _ => rfl
    | like field pattern ignoreCase =>
      rw [toBinary, ofBinary]
      simp only [List.append_assoc]
      exact (reads_case 6).bind <| (reads field).bind <| (reads pattern).bind <|
        (reads ignoreCase).settle fun _ => rfl
    | notLike field pattern ignoreCase =>
      rw [toBinary, ofBinary]
      simp only [List.append_assoc]
      exact (reads_case 7).bind <| (reads field).bind <| (reads pattern).bind <|
        (reads ignoreCase).settle fun _ => rfl
    | and left right =>
      rw [toBinary, List.length_append, List.length_append, length_writeCase] at hfits
      rw [toBinary, ofBinary]
      simp only [List.append_assoc]
      exact (reads_case 8).bind <| (ih left (by omega)).bind <|
        (ih right (by omega)).settle fun _ => rfl
    | or left right =>
      rw [toBinary, List.length_append, List.length_append, length_writeCase] at hfits
      rw [toBinary, ofBinary]
      simp only [List.append_assoc]
      exact (reads_case 9).bind <| (ih left (by omega)).bind <|
        (ih right (by omega)).settle fun _ => rfl
    | not inner =>
      rw [toBinary, List.length_append, length_writeCase] at hfits
      rw [toBinary, ofBinary]
      exact (reads_case 10).bind <| (ih inner (by omega)).settle fun _ => rfl

instance : LosslessForm Expression where
  reads e := reads_of_depth fun _ => e.reads_ofBinary

end Expression

/-! ## Criteria -/

instance : LosslessForm StatusFilter where
  reads f := reads_listed (by cases f <;> decide) (by decide)

instance : LosslessForm Relevancy where
  reads r := reads_listed (by cases r <;> decide) (by decide)

instance {α : Type} [Ord α] [BinaryForm α] [Std.TransOrd α] [Std.LawfulEqOrd α] [LosslessForm α] :
    LosslessForm (SortedSet α) where
  reads s := by
    have members := (reads s.toList).map SortedSet.ofList
    rwa [SortedSet.ofList_toList] at members

instance : LosslessForm StructuralFilter where
  reads f := by
    show Reads _ (write f.status ++ write f.recordTypes ++ write f.references ++
      write f.participants ++ write f.relevancy) _
    simp only [List.append_assoc]
    exact (reads f.status).bind <| (reads f.recordTypes).bind <| (reads f.references).bind <|
      (reads f.participants).bind <| (reads f.relevancy).settle fun _ => rfl

instance : LosslessForm LinearFilter where
  reads f := (reads f.ids).bind ((reads f.externalIds).settle fun _ => rfl)

namespace Criteria

/-- Criteria are read back by any reader that may go deeper than there are bytes. -/
theorem reads_ofBinary {depth : Nat} (c : Criteria) (hfits : c.toBinary.length < depth) :
    Reads (ofBinary depth) c.toBinary c := by
  -- As for expressions, which stand in criteria as leaves.
  induction depth generalizing c with
  | zero => cases hfits
  | succ depth ih =>
    cases c with
    | structural filter =>
      exact (reads_case 0).bind ((reads filter).settle fun _ => rfl)
    | linear filter =>
      exact (reads_case 1).bind ((reads filter).settle fun _ => rfl)
    | expression e =>
      exact (reads_case 2).bind ((reads e).settle fun _ => rfl)
    | and left right =>
      rw [toBinary, List.length_append, List.length_append, length_writeCase] at hfits
      rw [toBinary, ofBinary]
      simp only [List.append_assoc]
      exact (reads_case 3).bind <| (ih left (by omega)).bind <|
        (ih right (by omega)).settle fun _ => rfl
    | or left right =>
      rw [toBinary, List.length_append, List.length_append, length_writeCase] at hfits
      rw [toBinary, ofBinary]
      simp only [List.append_assoc]
      exact (reads_case 4).bind <| (ih left (by omega)).bind <|
        (ih right (by omega)).settle fun _ => rfl
    | not inner =>
      rw [toBinary, List.length_append, length_writeCase] at hfits
      rw [toBinary, ofBinary]
      exact (reads_case 5).bind <| (ih inner (by omega)).settle fun _ => rfl

instance : LosslessForm Criteria where
  reads c := reads_of_depth fun _ => c.reads_ofBinary

end Criteria

instance : LosslessForm Query where
  reads q := by
    show Reads _ (write q.criteria ++ write q.paging ++ write q.sort) _
    simp only [List.append_assoc]
    exact (reads q.criteria).bind <| (reads q.paging).bind <| (reads q.sort).settle fun _ => rfl

/-! ## Messages -/

namespace Message

/-- The records that a message carries. -/
def records : Message → List StoredRecord
  | .queryResponse page | .subscribeAck page _ => page.records
  | _ => []

/-- Whether every payload in a message survives as text. -/
def Portable (m : Message) : Prop := ∀ r ∈ m.records, r.payload.Portable Json.deepest

/-- A message is read back if its payloads survive as text. -/
theorem Portable.reads {m : Message} (h : m.Portable) : Reads read (write m) m := by
  cases m with
  | queryRequest query =>
    exact (reads_case 0).bind ((LosslessForm.reads query).settle fun _ => rfl)
  | queryResponse page =>
    exact (reads_case 1).bind ((reads_page h).settle fun _ => rfl)
  | subscribeRequest query =>
    exact (reads_case 2).bind ((LosslessForm.reads query).settle fun _ => rfl)
  | subscribeAck page feed =>
    show Reads _ (writeCase 3 ++ write page ++ write feed) _
    simp only [List.append_assoc]
    exact (reads_case 3).bind <| (reads_page h).bind <|
      (LosslessForm.reads feed).settle fun _ => rfl
  | error code message =>
    show Reads _ (writeCase 4 ++ write code ++ write message) _
    simp only [List.append_assoc]
    exact (reads_case 4).bind <| (LosslessForm.reads code).bind <|
      (LosslessForm.reads message).settle fun _ => rfl

end Message

end LedgerQuery
