/-
  LedgerQuery.Record.Identity

  Parties, the named participants of records, and linear identities, which stay the same across
  all versions of one logical entity. A linear identity may carry an external name.
-/
import LedgerQuery.Json.Form
import LedgerQuery.Order
import LedgerQuery.Record.Uuid

namespace LedgerQuery

open Std

/-! ## Parties -/

/-- A participant, known by name. -/
structure Party where
  name : String
  deriving DecidableEq, Repr

namespace Party

instance : Ord Party := ⟨compareOn name⟩

instance : TransOrd Party := inferInstanceAs (TransCmp (compareOn name))

instance : LawfulEqOrd Party :=
  lawfulEqCmp_compareOn name fun a b h => by cases a; cases b; cases h; rfl

instance : JsonForm Party := ⟨fun p => .text p.name, fun j => j.text?.map Party.mk⟩

/-- The form for traces. -/
def trace (p : Party) : String := "Party(" ++ p.name ++ ")"

end Party

/-! ## Identifiers -/

instance : TransOrd Uuid := inferInstanceAs (TransCmp (compareOn Uuid.bytes))

instance : LawfulEqOrd Uuid :=
  lawfulEqCmp_compareOn Uuid.bytes fun a b h => by cases a; cases b; cases h; rfl

instance : JsonForm Uuid := ⟨fun id => .text id.render, fun j => j.text?.bind Uuid.read?⟩

/-! ## Linear identities -/

/-- The identity of a logical entity. -/
structure LinearId where
  id : Uuid
  externalId : Option String
  deriving DecidableEq

namespace LinearId

instance : Ord LinearId := ⟨compareLex (compareOn id) (compareOn externalId)⟩

instance : TransOrd LinearId :=
  inferInstanceAs (TransCmp (compareLex (compareOn id) (compareOn externalId)))

/-- The written form: the external name, if there is one, stands first. -/
def render (l : LinearId) : String :=
  match l.externalId with
  | some external => external ++ "_" ++ l.id.render
  | none => l.id.render

/-- The first eight digits of the identifier. -/
def short (l : LinearId) : String := l.id.short

/-- The form for traces. -/
def trace (l : LinearId) : String :=
  match l.externalId with
  | some external => "LinearId(" ++ l.short ++ ", " ++ external ++ ")"
  | none => "LinearId(" ++ l.short ++ ")"

instance : JsonForm LinearId where
  toJson l := .ofFields [("id", toJson l.id), ("external_id", toJson l.externalId)]
  ofJson? j := do
    match ← j.fields? ["id", "external_id"] with
    | [id, external] => return ⟨← required? id, ← optional? external⟩
    | _ => none

end LinearId

end LedgerQuery
