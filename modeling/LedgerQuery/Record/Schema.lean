/-
  LedgerQuery.Record.Schema

  Record types that are given as data: the fields of a state with what they hold, the words in which
  a payload is refused, the supertypes, and the fields that name the participants and the linear
  identity. A state is kept as the JSON value of its payload; reading one drops fields that the
  schema does not name.
-/
import LedgerQuery.Query.Projection
import LedgerQuery.Record.Stored

namespace LedgerQuery

/-- What a field of a state holds; an identity and a number may be missing. -/
inductive FieldType where
  | text
  | texts
  | integer
  | count
  | identity
  | number
  deriving DecidableEq, Repr

/-- The value of a field in its own form, if the field holds what it has to. -/
def FieldType.read? : FieldType → Option Json → Option Json
  | .text, j => (required? j : Option String).map toJson
  | .texts, j => (required? j : Option (List String)).map toJson
  | .integer, j => (required? j : Option Int64).map toJson
  | .count, j => (required? j : Option UInt32).map toJson
  | .identity, j => (optional? j : Option (Option LinearId)).map toJson
  | .number, j => (optional? j : Option (Option Binary64)).map toJson

/-- A record type as data. Without fields it takes any payload. -/
structure Schema where
  name : String
  fields : Option (List (String × FieldType)) := none
  unreadable : Json → String
  supertypes : List String := []
  partyFields : List String := []
  identityField : Option String := none

namespace Schema

/-- The schema that every payload fits. -/
def any : Schema := { name := RecordType.any.name, unreadable := fun _ => "" }

/-- The payload of a state, if a JSON value is the form of one. -/
def read? (s : Schema) (j : Json) : Option Json :=
  match s.fields with
  | none => some j
  | some fields => do
    let values ← j.fields? (fields.map Prod.fst)
    let parts ← (fields.zip values).mapM fun ((name, type), value) =>
      (type.read? value).map (name, ·)
    return .ofFields parts

/-- The parties that a value names. -/
def partiesIn : Json → List Party
  | .text name => [⟨name⟩]
  | j => (ofJson? j).getD []

/-- A state of the record type. -/
structure State (s : Schema) where
  payload : Json

instance (s : Schema) : RecordState s.State where
  toJson := State.payload
  ofJson? j := (s.read? j).map State.mk
  recordType := ⟨s.name⟩
  unreadable := s.unreadable
  supertypes := s.supertypes.map RecordType.mk
  participants state :=
    s.partyFields.flatMap fun name => ((state.payload.get? name).map partiesIn).getD []
  linearId state := (s.identityField.bind fun name => state.payload.get? name).bind ofJson?

end Schema

end LedgerQuery
