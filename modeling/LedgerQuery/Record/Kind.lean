/-
  LedgerQuery.Record.Kind

  Record types. Every record carries its lineage: its own type, the supertypes it may be viewed
  as, and the root type that every record belongs to. A typed view reads the payload of a record
  as a state of the type viewed.
-/
import LedgerQuery.Record.Identity

namespace LedgerQuery

open Std

/-- The name of a record type. -/
structure RecordType where
  name : String
  deriving DecidableEq, Repr

namespace RecordType

instance : Ord RecordType := ⟨compareOn name⟩

instance : TransOrd RecordType := inferInstanceAs (TransCmp (compareOn name))

instance : LawfulEqOrd RecordType :=
  lawfulEqCmp_compareOn name fun a b h => by cases a; cases b; cases h; rfl

instance : JsonForm RecordType := ⟨fun t => .text t.name, fun j => j.text?.map RecordType.mk⟩

/-- The root type, which every record is assignable to. -/
def any : RecordType := ⟨"*"⟩

/-- The form for traces. -/
def trace (t : RecordType) : String := "RecordType(" ++ t.name ++ ")"

/-- Add a type at the end of a lineage, unless it is there. -/
def extend (lineage : List RecordType) (t : RecordType) : List RecordType :=
  if t ∈ lineage then lineage else lineage ++ [t]

/-- A type, its declared supertypes in order of first occurrence, and the root. -/
def lineage (t : RecordType) (supertypes : List RecordType) : List RecordType :=
  extend (supertypes.foldl extend [t]) any

end RecordType

/-- What a type of record states has to say about itself: its name, its supertypes, how a state
    becomes a payload and is read from one, the words in which a payload is refused, and whom and
    what a state concerns. -/
class RecordState (α : Type) extends JsonForm α where
  recordType : RecordType
  unreadable : Json → String
  supertypes : List RecordType := []
  participants : α → List Party := fun _ => []
  linearId : α → Option LinearId := fun _ => none

/-- The lineage of the records that hold such states. -/
def RecordState.lineage (α : Type) [RecordState α] : List RecordType :=
  (RecordState.recordType α).lineage (RecordState.supertypes α)

/-- The untyped view, which takes any payload. -/
structure AnyRecord where
  payload : Json

instance : RecordState AnyRecord where
  toJson := AnyRecord.payload
  ofJson? j := some ⟨j⟩
  recordType := .any
  -- No payload is refused, so that there is nothing to say.
  unreadable _ := ""

end LedgerQuery
