/-
  LedgerQuery.Query.Criteria

  What a query matches: structural filters, linear filters and expressions, joined by and, or and
  not. The leftmost structural filter is the base of the criteria. A change to the base is made
  to every structural filter, so that copies of the base in nested parts stay equal to it.
-/
import LedgerQuery.Query.Expression
import LedgerQuery.SortedSet

namespace LedgerQuery

/-! ## Filters -/

/-- Which states of a record's life are admitted. -/
inductive StatusFilter where
  | unconsumed
  | consumed
  | all
  deriving DecidableEq, Repr

namespace StatusFilter

def admits : StatusFilter → RecordStatus → Bool
  | .unconsumed, s => s = .unconsumed
  | .consumed, s => s = .consumed
  | .all, _ => true

def names : List (String × StatusFilter) :=
  [("Unconsumed", .unconsumed), ("Consumed", .consumed), ("All", .all)]

instance : JsonForm StatusFilter where
  toJson s := .text (match s with
    | .unconsumed => "Unconsumed"
    | .consumed => "Consumed"
    | .all => "All")
  ofJson? := Json.named? names

end StatusFilter

/-- Whether records have to concern the local node. -/
inductive Relevancy where
  | all
  | relevant
  | notRelevant
  deriving DecidableEq, Repr

namespace Relevancy

def admits : Relevancy → Bool → Bool
  | .all, _ => true
  | .relevant, concerned => concerned
  | .notRelevant, concerned => !concerned

instance : JsonForm Relevancy where
  toJson r := .text (match r with
    | .all => "All"
    | .relevant => "Relevant"
    | .notRelevant => "NotRelevant")
  ofJson? := Json.named? [("All", .all), ("Relevant", .relevant), ("NotRelevant", .notRelevant)]

end Relevancy

/-- Restrictions outside the payload. A missing set restricts nothing; a record passes a set of
    types if it is assignable to one of them, and a set of parties if one of them takes part. -/
structure StructuralFilter where
  status : StatusFilter := .unconsumed
  recordTypes : Option (SortedSet RecordType) := none
  references : Option (SortedSet RecordRef) := none
  participants : Option (SortedSet Party) := none
  relevancy : Relevancy := .all
  deriving DecidableEq

namespace StructuralFilter

/-- The filter that every record passes. -/
def any : StructuralFilter := { status := .all }

/-- The filter for one record type. -/
def forType (t : RecordType) (status : StatusFilter) : StructuralFilter :=
  { status, recordTypes := some (.singleton t) }

/-- Whether a record passes all restrictions but that on its status. -/
def admitsIgnoringStatus (f : StructuralFilter) (r : StoredRecord) : Bool :=
  (f.recordTypes.all fun types => types.toList.any r.isAssignableTo) &&
    (f.references.all fun references => references.contains r.reference) &&
    (f.participants.all fun parties => r.participants.any parties.contains) &&
    f.relevancy.admits r.relevant

/-- Whether a record passes, its status checked or not. -/
def admits (f : StructuralFilter) (checkStatus : Bool) (r : StoredRecord) : Bool :=
  (!checkStatus || f.status.admits r.status) && f.admitsIgnoringStatus r

end StructuralFilter

/-- Restriction to linear identities that are listed by identifier or by external name. -/
structure LinearFilter where
  ids : SortedSet Uuid := ∅
  externalIds : SortedSet String := ∅
  deriving DecidableEq

namespace LinearFilter

/-- The filter for the identifiers of linear identities; external names do not count. -/
def ofIds (ids : List LinearId) : LinearFilter := { ids := .ofList (ids.map LinearId.id) }

/-- The filter for external names. -/
def ofExternalIds (names : List String) : LinearFilter := { externalIds := .ofList names }

/-- Whether a record with the given linear identity passes. -/
def admits (f : LinearFilter) : Option LinearId → Bool
  | none => false
  | some l => f.ids.contains l.id || l.externalId.any f.externalIds.contains

end LinearFilter

/-! ## Criteria -/

/-- What a query matches. -/
inductive Criteria where
  | structural (filter : StructuralFilter)
  | linear (filter : LinearFilter)
  | expression (e : Expression)
  | and (left right : Criteria)
  | or (left right : Criteria)
  | not (inner : Criteria)
  deriving DecidableEq

namespace Criteria

/-- The criteria for one record type. -/
def forType (t : RecordType) (status : StatusFilter) : Criteria :=
  .structural (.forType t status)

/-- The leftmost structural filter, unless it stands under a not. -/
def base? : Criteria → Option StructuralFilter
  | .structural filter => some filter
  | .and left _ | .or left _ => left.base?
  | _ => none

/-- All structural filters, from the left. -/
def filters : Criteria → List StructuralFilter
  | .structural filter => [filter]
  | .and left right | .or left right => left.filters ++ right.filters
  | .not inner => inner.filters
  | _ => []

/-- Change every structural filter. -/
def mapFilters (update : StructuralFilter → StructuralFilter) : Criteria → Criteria
  | .structural filter => .structural (update filter)
  | .and left right => .and (left.mapFilters update) (right.mapFilters update)
  | .or left right => .or (left.mapFilters update) (right.mapFilters update)
  | .not inner => .not (inner.mapFilters update)
  | c => c

/-- Change every structural filter; if there is none, put one in front. -/
def withBase (update : StructuralFilter → StructuralFilter) (c : Criteria) : Criteria :=
  if c.filters.isEmpty then .and (.structural (update .any)) c else c.mapFilters update

/-- The status of the base, and any status without one. -/
def status (c : Criteria) : StatusFilter := (c.base?.map StructuralFilter.status).getD .all

/-! ## Matching -/

/-- Whether a record satisfies criteria, status filters checked or taken as passed. -/
def eval (checkStatus : Bool) (r : StoredRecord) : Criteria → Bool
  | .structural filter => filter.admits checkStatus r
  | .linear filter => filter.admits r.linearId
  | .expression e => e.holds r
  | .and left right => left.eval checkStatus r && right.eval checkStatus r
  | .or left right => left.eval checkStatus r || right.eval checkStatus r
  | .not inner => !inner.eval checkStatus r

/-- Whether a record satisfies criteria. -/
def admits (c : Criteria) (r : StoredRecord) : Bool := c.eval true r

/-- Whether a record satisfies criteria, whatever its status. Changes are passed on by this rule,
    since a record that is consumed changes its status by being reported. -/
def admitsIgnoringStatus (c : Criteria) (r : StoredRecord) : Bool := c.eval false r

end Criteria

/-! ## Form -/

instance {α : Type} [Ord α] [JsonForm α] [Std.TransOrd α] [Std.LawfulEqOrd α] :
    JsonForm (SortedSet α) :=
  ⟨fun s => toJson s.toList, fun j => (listOf? j).map SortedSet.ofList⟩

instance : JsonForm StructuralFilter where
  toJson f := .ofFields [("status", toJson f.status), ("record_types", toJson f.recordTypes),
    ("references", toJson f.references), ("participants", toJson f.participants),
    ("relevancy", toJson f.relevancy)]
  ofJson? j := do
    match ← j.fields? ["status", "record_types", "references", "participants", "relevancy"] with
    | [status, recordTypes, references, participants, relevancy] =>
      return {
        status := ← required? status
        recordTypes := ← optional? recordTypes
        references := ← optional? references
        participants := ← optional? participants
        relevancy := ← required? relevancy }
    | _ => none

instance : JsonForm LinearFilter where
  toJson f := .ofFields [("ids", toJson f.ids), ("external_ids", toJson f.externalIds)]
  ofJson? j := do
    match ← j.fields? ["ids", "external_ids"] with
    | [ids, externalIds] => return ⟨← required? ids, ← required? externalIds⟩
    | _ => none

namespace Criteria

/-- The JSON form. -/
def toForm : Criteria → Json
  | .structural filter => .holding "Structural" (toJson filter)
  | .linear filter => .holding "Linear" (toJson filter)
  | .expression e => .holding "Expression" (toJson e)
  | .and left right => .holding "And" (.array [left.toForm, right.toForm])
  | .or left right => .holding "Or" (.array [left.toForm, right.toForm])
  | .not inner => .holding "Not" inner.toForm

/-- The criteria that a JSON form stands for. -/
def ofForm? : Json → Option Criteria
  | .object [("And", .array [left, right])] => do
    return .and (← ofForm? left) (← ofForm? right)
  | .object [("Or", .array [left, right])] => do
    return .or (← ofForm? left) (← ofForm? right)
  | .object [("Not", inner)] => do return .not (← ofForm? inner)
  | .object [("Structural", filter)] => (ofJson? filter).map .structural
  | .object [("Linear", filter)] => (ofJson? filter).map .linear
  | .object [("Expression", e)] => (ofJson? e).map .expression
  | _ => none

instance : JsonForm Criteria := ⟨toForm, ofForm?⟩

end Criteria

end LedgerQuery
