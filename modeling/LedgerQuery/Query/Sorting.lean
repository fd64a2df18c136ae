/-
  LedgerQuery.Query.Sorting

  The order that sort columns give to records. A column that is missing a value in a record puts
  that record first; records that all columns find equal keep their places.
-/
import LedgerQuery.Query.Field
import LedgerQuery.Record.Page

namespace LedgerQuery

/-- The order of two optional scalars, none first. -/
def Scalar.sortCompareOption : Option Scalar → Option Scalar → Ordering
  | none, none => .eq
  | none, some _ => .lt
  | some _, none => .gt
  | some a, some b => a.sortCompare b

/-- The order that a key gives to records. -/
def SortKey.order (a b : StoredRecord) : SortKey → Ordering
  | .recordedAt => compare a.recordedAt b.recordedAt
  | .consumedAt => compare a.consumedAt b.consumedAt
  | .reference => compare a.reference b.reference
  | .field path =>
    Scalar.sortCompareOption ((FieldPath.payload path).read a) ((FieldPath.payload path).read b)

/-- An order, or its reverse. -/
def Direction.apply : Direction → Ordering → Ordering
  | .ascending, o => o
  | .descending, o => o.swap

namespace SortOrder

/-- The order that columns give to records; the first that tells them apart decides. -/
def order (s : SortOrder) (a b : StoredRecord) : Ordering :=
  s.columns.foldr (fun c rest => (c.direction.apply (c.key.order a b)).then rest) .eq

/-- Records in order; without columns they keep their places. -/
def arrange (s : SortOrder) (records : List StoredRecord) : List StoredRecord :=
  if s.isUnsorted then records else records.mergeSort fun a b => (s.order a b).isLE

end SortOrder

end LedgerQuery
