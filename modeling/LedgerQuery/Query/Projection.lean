/-
  LedgerQuery.Query.Projection

  How operands become scalars. A type's own projection of a value is the scalar that a payload
  field holding the value in its JSON form is read as; none stands for null.
-/
import LedgerQuery.Query.Scalar
import LedgerQuery.Record.Kind
import LedgerQuery.Record.Reference

namespace LedgerQuery

/-- A type whose values have a scalar of their own. -/
class Projectable (α : Type) where
  project : α → Option Scalar

export Projectable (project)

/-! ## Projections of the types themselves -/

instance : Projectable Int8 := ⟨fun n => some (.int n.toInt64)⟩

instance : Projectable Int16 := ⟨fun n => some (.int n.toInt64)⟩

instance : Projectable Int32 := ⟨fun n => some (.int n.toInt64)⟩

instance : Projectable Int64 := ⟨fun n => some (.int n)⟩

instance : Projectable UInt8 := ⟨fun n => some (.ofInt n.toNat)⟩

instance : Projectable UInt16 := ⟨fun n => some (.ofInt n.toNat)⟩

instance : Projectable UInt32 := ⟨fun n => some (.ofInt n.toNat)⟩

instance : Projectable UInt64 := ⟨fun n => some (.ofInt n.toNat)⟩

instance : Projectable Binary64 := ⟨fun x => some (.float x)⟩

instance : Projectable Bool := ⟨fun b => some (.bool b)⟩

instance : Projectable String := ⟨fun s => some (.text s)⟩

instance : Projectable RecordRef := ⟨fun r => some (.text r.render)⟩

instance : Projectable TransactionId := ⟨fun id => some (.text id.render)⟩

instance : Projectable Party := ⟨fun p => some (.text p.name)⟩

instance : Projectable RecordType := ⟨fun t => some (.text t.name)⟩

instance : Projectable Uuid := ⟨fun id => some (.text id.render)⟩

instance {α : Type} [Projectable α] : Projectable (Option α) := ⟨fun x => x.bind project⟩

/-! ## JSON forms of the machine integers -/

/-- The form of an integer type that holds the integers from `low` up to `high`. -/
@[reducible] def integerForm {α : Type} (low high : Int) (toInt : α → Int)
    (ofInt : Int → α) : JsonForm α :=
  ⟨fun n => .integer (toInt n), fun j => (j.integerIn? low (high + 1)).map ofInt⟩

instance : JsonForm Int8 := integerForm (-128) 127 Int8.toInt Int8.ofInt

instance : JsonForm Int16 := integerForm (-32768) 32767 Int16.toInt Int16.ofInt

instance : JsonForm Int32 := integerForm (-2147483648) 2147483647 Int32.toInt Int32.ofInt

instance : JsonForm Int64 :=
  integerForm (-9223372036854775808) 9223372036854775807 Int64.toInt Int64.ofInt

instance : JsonForm UInt8 := integerForm 0 255 (fun n => n.toNat) fun n => UInt8.ofNat n.toNat

instance : JsonForm UInt16 :=
  integerForm 0 65535 (fun n => n.toNat) fun n => UInt16.ofNat n.toNat

/-! ## Other projections -/

/-- An amount as a whole number of hundredths, a half going away from zero. -/
def hundredths (x : Binary64) : Option Scalar :=
  some (.int (Int64.ofInt (x.mul (Binary64.ofInt 100)).toInt64))

/-- A text, of which the empty one counts as null. -/
def nonBlank (s : String) : Option Scalar := if s.isEmpty then none else some (.text s)

end LedgerQuery
