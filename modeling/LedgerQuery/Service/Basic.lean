/-
  LedgerQuery.Service.Basic

  Typed queries and subscriptions over a backend.
-/
import LedgerQuery.Query.Step
import LedgerQuery.Service.Feed
import LedgerQuery.Service.Sequence

namespace LedgerQuery

/-- What a subscription starts with, and how it goes on: the records that matched, the feed of
    notifications, and the stream that the feed reads. -/
structure Subscription (α : Type) where
  snapshot : List (Versioned α)
  feed : Feed α
  stream : StreamId

/-- Queries for one type of records over a backend. -/
structure Service (σ α : Type) where
  backend : Backend σ

namespace Service

variable {σ α : Type} [RecordState α]

/-- A builder for current records of the type. -/
def builder (_ : Service σ α) : Builder := .forType (RecordState.recordType α) .unconsumed

/-- A builder for records of the type, whatever their status. -/
def subscriptionBuilder (_ : Service σ α) : Builder :=
  .forType (RecordState.recordType α) .all

/-- The results of a query. -/
def sequence (s : Service σ α) (q : Query) : ResultSequence σ α := ⟨s.backend, q⟩

/-- Ask for the page of a query. -/
def query (s : Service σ α) (q : Query) : Attempt σ QueryError (Page (Versioned α)) :=
  (s.sequence q).page

/-- The results of the query that a block of steps builds on the builder for current records. -/
def filter {ε : Type} (s : Service σ α) (block : Builder → Except ε Builder) :
    Except ε (ResultSequence σ α) :=
  (block s.builder).map fun b => s.sequence b.build

/-- Subscribe to a query. Its notifications go by the status of the query's base. The stream is
    let go again if a record of the first page cannot be viewed. -/
def subscribe (s : Service σ α) (q : Query) : Attempt σ QueryError (Subscription α) := do
  let (page, stream) ← (s.backend.subscribe q).mapError .backend
  match page.mapM (StoredRecord.view α) with
  | .ok page => return ⟨page.records, { status := q.criteria.status }, stream⟩
  | .error e =>
    modify (s.backend.release stream)
    throw (.record e)

end Service

end LedgerQuery
