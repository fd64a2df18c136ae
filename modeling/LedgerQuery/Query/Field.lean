/-
  LedgerQuery.Query.Field

  Where a comparison reads its left side: at a dotted path of the payload, or among the attributes
  of the record itself. A field together with a projection turns operands into scalars.
-/
import LedgerQuery.Query.Projection
import LedgerQuery.Record.Stored

namespace LedgerQuery

/-- What a record has outside its payload. -/
inductive Attribute where
  | reference
  | backReference
  | recordType
  | linearId
  | externalId
  deriving DecidableEq, Repr

namespace Attribute

/-- The written form, with a mark that no payload path needs. -/
def render : Attribute → String
  | .reference => "@reference"
  | .backReference => "@back_reference"
  | .recordType => "@record_type"
  | .linearId => "@linear_id"
  | .externalId => "@external_id"

def names : List (String × Attribute) :=
  [("Reference", .reference), ("BackReference", .backReference), ("RecordType", .recordType),
    ("LinearId", .linearId), ("ExternalId", .externalId)]

def name : Attribute → String
  | .reference => "Reference"
  | .backReference => "BackReference"
  | .recordType => "RecordType"
  | .linearId => "LinearId"
  | .externalId => "ExternalId"

instance : JsonForm Attribute := ⟨fun a => .text a.name, Json.named? names⟩

end Attribute

/-- A place in a record. -/
inductive FieldPath where
  | payload (path : String)
  | ofRecord (a : Attribute)
  deriving DecidableEq, Repr

namespace FieldPath

def render : FieldPath → String
  | .payload path => path
  | .ofRecord a => a.render

/-- The form for traces. -/
def trace (p : FieldPath) : String := "Field(" ++ p.render ++ ")"

instance : JsonForm FieldPath where
  toJson
    | .payload path => .holding "Payload" (.text path)
    | .ofRecord a => .holding "Attribute" (toJson a)
  ofJson? j := do
    match ← j.case? with
    | ("Payload", some held) => return .payload (← held.text?)
    | ("Attribute", some held) => return .ofRecord (← ofJson? held)
    | _ => none

/-- The scalar at a place in a record; none if it is null or missing. -/
def read (r : StoredRecord) : FieldPath → Option Scalar
  | .payload path => (r.field path).bind Scalar.ofPayload
  | .ofRecord .reference => some (.text r.reference.render)
  | .ofRecord .backReference => r.back.map fun b => .text b.render
  | .ofRecord .recordType => some (.text r.recordType.name)
  | .ofRecord .linearId => r.linearId.map fun l => .text l.id.render
  | .ofRecord .externalId => r.linearId.bind fun l => l.externalId.map .text

end FieldPath

/-- A place in a record that holds values of a type, with the projection of such values. -/
structure Field (α : Type) where
  path : FieldPath
  project : α → Option Scalar

namespace Field

/-- A payload field, with the type's own projection. -/
def ofPath {α : Type} [Projectable α] (path : String) : Field α :=
  ⟨.payload path, Projectable.project⟩

/-- An attribute, with the type's own projection. -/
def ofAttribute {α : Type} [Projectable α] (a : Attribute) : Field α :=
  ⟨.ofRecord a, Projectable.project⟩

/-- The record's own reference. -/
def reference : Field RecordRef := ofAttribute .reference

/-- The reference of the record's predecessor. -/
def backReference : Field RecordRef := ofAttribute .backReference

end Field

end LedgerQuery
