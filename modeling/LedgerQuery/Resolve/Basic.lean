/-
  LedgerQuery.Resolve.Basic

  Links between records. A resolver says twice which records a link leads to: as criteria for a
  backend, and as a test of a single record. With a backend it goes by the criteria; in a draft
  it goes through the records in one position and tests each.
-/
import LedgerQuery.Resolve.Draft
import LedgerQuery.Resolve.Error
import LedgerQuery.Service.Basic

namespace LedgerQuery

/-- Where a link is followed: through a backend, on the other side of the wire or on the node
    itself, or inside a draft. -/
inductive Context (σ : Type) where
  | remote (backend : Backend σ)
  | host (backend : Backend σ)
  | draft (draft : Draft) (position : Position)

/-- The name of a kind of context. -/
def Context.kind {σ : Type} : Context σ → String
  | .remote _ => "remote"
  | .host _ => "host"
  | .draft _ _ => "draft"

/-- A link to records of a type. -/
structure Resolver (α : Type) where
  /-- Restrict a builder for records of the type. -/
  restrict : Builder → Except ProjectionError Builder
  /-- Whether the link leads to a record. -/
  pointsTo : Versioned α → Bool
  /-- Which records are looked at by the criteria. -/
  status : StatusFilter := .unconsumed

namespace Resolver

variable {σ α : Type} [RecordState α]

/-- The records of a draft that the link leads to. -/
def inDraft (r : Resolver α) (d : Draft) (p : Position) :
    Except ResolveError (List (Versioned α)) :=
  ((d.candidates α p).map (List.filter r.pointsTo)).mapError .record

/-- The builder for the records that the link leads to. -/
def builder (r : Resolver α) : Except ResolveError Builder :=
  (r.restrict (.forType (RecordState.recordType α) r.status)).mapError (.query ∘ .projection)

/-- Ask a backend for one page. -/
def fetch (backend : Backend σ) (b : Builder) :
    Attempt σ ResolveError (Page (Versioned α)) :=
  .mapError .query (ResultSequence.page ⟨backend, b.build⟩)

/-! ## Links to at most one record -/

/-- The first page of a size, which zero is not. -/
def firstPage (size : UInt32) : Except ResolveError PageSpec :=
  (PageSpec.first size).mapError .record

/-- At most one record; more are a failure with their number. -/
def atMostOne (found : List (Versioned α)) : Except ResolveError (Option (Versioned α)) :=
  if 1 < found.length then .error (.multipleMatches found.length) else .ok found.getLast?

/-- Follow a link through a backend. Two records are enough to ask for, since the page says how
    many there are. -/
def singleThrough (r : Resolver α) (backend : Backend σ) :
    Attempt σ ResolveError (Option (Versioned α)) := do
  let b ← Attempt.known r.builder
  let paging ← Attempt.look fun s => firstPage (min (max (backend.maxPageSize s) 1) 2)
  let page ← fetch backend (b.page paging)
  if 1 < page.total then throw (.multipleMatches page.total.toNat)
  else .known (atMostOne page.records)

/-- Follow a link to at most one record. -/
def single (r : Resolver α) : Context σ → Attempt σ ResolveError (Option (Versioned α))
  | .remote backend | .host backend => r.singleThrough backend
  | .draft d p => .known ((r.inDraft d p).bind atMostOne)

/-- Follow a link to a record that has to be there; without it, fail with a message. -/
def singleOrFail (r : Resolver α) (context : Context σ) (message : String) :
    Attempt σ ResolveError (Versioned α) := do
  match ← r.single context with
  | some v => return v
  | none => throw (.missingDependency message)

/-! ## Links to any number of records -/

/-- Ask for pages from one on, until one is not full or all that were announced have come. The page
    with the last number comes after itself. -/
def fetchFrom (backend : Backend σ) (b : Builder) (paging : PageSpec)
    (found : List (Versioned α)) : Attempt σ ResolveError (List (Versioned α)) := do
  let page ← fetch backend (b.page paging)
  let found := found ++ page.records
  -- The announced total may change between two pages, so a page that is not full ends it too.
  if page.records.length < paging.size.toNat ∨ page.total.toNat ≤ found.length then return found
  else fetchFrom backend b paging.next found
termination_by UInt64.size - found.length
decreasing_by
  -- A page that another one follows is full, and a total has room for what has come so far.
  rename_i before hmore
  have hsize : paging.size.toNat ≠ 0 := fun h => paging.size_ne_zero (UInt32.toNat_inj.1 h)
  have hbound := page.total.toNat_lt
  have hlength : found.length = before.length + page.records.length := List.length_append
  have hcount : UInt64.size = 18446744073709551616 := rfl
  show UInt64.size - found.length < UInt64.size - before.length
  omega

/-- Follow a link through a backend, page after page in the order of references. -/
def allThrough (r : Resolver α) (backend : Backend σ) :
    Attempt σ ResolveError (List (Versioned α)) := do
  let b ← Attempt.known r.builder
  let paging ← Attempt.look fun s => firstPage (max (backend.maxPageSize s) 1)
  fetchFrom backend (b.sortBy (.on .reference .ascending)) paging []

/-- Follow a link to any number of records. -/
def all (r : Resolver α) : Context σ → Attempt σ ResolveError (List (Versioned α))
  | .remote backend | .host backend => r.allThrough backend
  | .draft d p => .known (r.inDraft d p)

end Resolver

end LedgerQuery
