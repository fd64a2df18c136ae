/-
  LedgerQuery.Wire.Query

  The binary form of queries. Expressions and criteria may be nested to any depth; a reader of
  them never goes deeper than there are bytes.
-/
import LedgerQuery.Query.Builder
import LedgerQuery.Wire.Record

namespace LedgerQuery

open Binary

/-! ## Fields and scalars -/

instance : BinaryForm Attribute :=
  listed [.reference, .backReference, .recordType, .linearId, .externalId]

instance : BinaryForm FieldPath where
  write
    | .payload path => writeCase 0 ++ write path
    | .ofRecord a => writeCase 1 ++ write a
  read := do
    match ← word 4 with
    | 0 => return .payload (← read)
    | 1 => return .ofRecord (← read)
    | _ => failure

instance : BinaryForm Scalar where
  write
    | .bool b => writeCase 0 ++ write b
    | .int n => writeCase 1 ++ write n
    | .float x => writeCase 2 ++ write x
    | .text s => writeCase 3 ++ write s
  read := do
    match ← word 4 with
    | 0 => return .bool (← read)
    | 1 => return .int (← read)
    | 2 => return .float (← read)
    | 3 => return .text (← read)
    | _ => failure

instance : BinaryForm CompareOp :=
  listed [.equal, .notEqual, .order .greaterThan, .order .greaterOrEqual, .order .lessThan,
    .order .lessOrEqual]

/-! ## Expressions -/

namespace Expression

/-- The bytes of an expression. -/
def toBinary : Expression → Bytes
  | .isNull field => writeCase 0 ++ write field
  | .notNull field => writeCase 1 ++ write field
  | .compare field op value ignoreCase =>
    writeCase 2 ++ write field ++ write op ++ write value ++ write ignoreCase
  | .between field low high => writeCase 3 ++ write field ++ write low ++ write high
  | .within field values ignoreCase =>
    writeCase 4 ++ write field ++ write values ++ write ignoreCase
  | .notWithin field values ignoreCase =>
    writeCase 5 ++ write field ++ write values ++ write ignoreCase
  | .like field pattern ignoreCase =>
    writeCase 6 ++ write field ++ write pattern ++ write ignoreCase
  | .notLike field pattern ignoreCase =>
    writeCase 7 ++ write field ++ write pattern ++ write ignoreCase
  | .and left right => writeCase 8 ++ left.toBinary ++ right.toBinary
  | .or left right => writeCase 9 ++ left.toBinary ++ right.toBinary
  | .not inner => writeCase 10 ++ inner.toBinary

/-- An expression that is nested less deep than given. -/
def ofBinary : (depth : Nat) → Reader Expression
  | 0 => failure
  | depth + 1 => do
    match ← word 4 with
    | 0 => return .isNull (← read)
    | 1 => return .notNull (← read)
    | 2 => return .compare (← read) (← read) (← read) (← read)
    | 3 => return .between (← read) (← read) (← read)
    | 4 => return .within (← read) (← read) (← read)
    | 5 => return .notWithin (← read) (← read) (← read)
    | 6 => return .like (← read) (← read) (← read)
    | 7 => return .notLike (← read) (← read) (← read)
    | 8 => return .and (← ofBinary depth) (← ofBinary depth)
    | 9 => return .or (← ofBinary depth) (← ofBinary depth)
    | 10 => return .not (← ofBinary depth)
    | _ => failure

instance : BinaryForm Expression :=
  ⟨toBinary, fun bytes => ofBinary (bytes.length + 1) bytes⟩

end Expression

/-! ## Criteria -/

instance : BinaryForm StatusFilter := listed [.unconsumed, .consumed, .all]

instance : BinaryForm Relevancy := listed [.all, .relevant, .notRelevant]

instance {α : Type} [Ord α] [BinaryForm α] [Std.TransOrd α] [Std.LawfulEqOrd α] :
    BinaryForm (SortedSet α) :=
  ⟨fun s => write s.toList, SortedSet.ofList <$> read⟩

instance : BinaryForm StructuralFilter where
  write f := write f.status ++ write f.recordTypes ++ write f.references ++
    write f.participants ++ write f.relevancy
  read := return ⟨← read, ← read, ← read, ← read, ← read⟩

instance : BinaryForm LinearFilter where
  write f := write f.ids ++ write f.externalIds
  read := return ⟨← read, ← read⟩

namespace Criteria

/-- The bytes of criteria. -/
def toBinary : Criteria → Bytes
  | .structural filter => writeCase 0 ++ write filter
  | .linear filter => writeCase 1 ++ write filter
  | .expression e => writeCase 2 ++ write e
  | .and left right => writeCase 3 ++ left.toBinary ++ right.toBinary
  | .or left right => writeCase 4 ++ left.toBinary ++ right.toBinary
  | .not inner => writeCase 5 ++ inner.toBinary

/-- Criteria that are nested less deep than given. -/
def ofBinary : (depth : Nat) → Reader Criteria
  | 0 => failure
  | depth + 1 => do
    match ← word 4 with
    | 0 => return .structural (← read)
    | 1 => return .linear (← read)
    | 2 => return .expression (← read)
    | 3 => return .and (← ofBinary depth) (← ofBinary depth)
    | 4 => return .or (← ofBinary depth) (← ofBinary depth)
    | 5 => return .not (← ofBinary depth)
    | _ => failure

instance : BinaryForm Criteria :=
  ⟨toBinary, fun bytes => ofBinary (bytes.length + 1) bytes⟩

end Criteria

instance : BinaryForm Query where
  write q := write q.criteria ++ write q.paging ++ write q.sort
  read := return ⟨← read, ← read, ← read⟩

end LedgerQuery
