/-
  LedgerQuery.Query.Builder

  Queries put together step by step. A structural setter changes the base of the criteria and
  all its copies; filters are joined with and. A nested block works on criteria of its own, which
  start from the current base, and is then joined to the criteria outside.
-/
import LedgerQuery.Query.Predicate
import LedgerQuery.Query.Criteria
import LedgerQuery.Record.Page

namespace LedgerQuery

/-- A complete query: what to match, in which order, and which page of it. -/
structure Query where
  criteria : Criteria
  paging : PageSpec := .initial
  sort : SortOrder := .unsorted
  deriving DecidableEq

instance : JsonForm Query where
  toJson q := .ofFields [("criteria", toJson q.criteria), ("paging", toJson q.paging),
    ("sort", toJson q.sort)]
  ofJson? j := do
    match ← j.fields? ["criteria", "paging", "sort"] with
    | [criteria, paging, sort] =>
      return ⟨← required? criteria, ← required? paging, ← required? sort⟩
    | _ => none

/-- A query under construction. -/
structure Builder where
  criteria : Criteria
  paging : PageSpec := .initial
  sort : SortOrder := .unsorted
  deriving DecidableEq

namespace Builder

/-- A builder for one record type. -/
def forType (t : RecordType) (status : StatusFilter) : Builder :=
  { criteria := .forType t status }

/-- The query built so far. -/
def build (b : Builder) : Query := ⟨b.criteria, b.paging, b.sort⟩

/-! ## Structural setters -/

/-- A new value for one field of the base. -/
inductive Setter where
  | status (s : StatusFilter)
  | recordTypes (types : List RecordType)
  | references (refs : List RecordRef)
  | participants (parties : List Party)
  | relevancy (r : Relevancy)
  deriving DecidableEq

/-- A filter with the new value. -/
def Setter.apply : Setter → StructuralFilter → StructuralFilter
  | .status s, f => { f with status := s }
  | .recordTypes types, f => { f with recordTypes := some (.ofList types) }
  | .references refs, f => { f with references := some (.ofList refs) }
  | .participants parties, f => { f with participants := some (.ofList parties) }
  | .relevancy r, f => { f with relevancy := r }

/-- Set a field of the base and of its copies. -/
def set (b : Builder) (s : Setter) : Builder :=
  { b with criteria := b.criteria.withBase s.apply }

/-! ## Filters -/

/-- Join criteria to those so far. -/
def conjoin (b : Builder) (c : Criteria) : Builder := { b with criteria := .and b.criteria c }

/-- Admit what other criteria match as well. -/
def disjoin (b : Builder) (c : Criteria) : Builder := { b with criteria := .or b.criteria c }

def linearIds (b : Builder) (ids : List LinearId) : Builder := b.conjoin (.linear (.ofIds ids))

def externalIds (b : Builder) (names : List String) : Builder :=
  b.conjoin (.linear (.ofExternalIds names))

def filter (b : Builder) (e : Expression) : Builder := b.conjoin (.expression e)

/-- Join the conjunction of the expressions that are there, if any is. -/
def withExpressions (b : Builder) (es : List (Option Expression)) : Builder :=
  match Expression.all (es.filterMap id) with
  | some e => b.filter e
  | none => b

/-- Join the disjunction of the expressions that are there, if any is. -/
def withAnyExpressions (b : Builder) (es : List (Option Expression)) : Builder :=
  match Expression.any (es.filterMap id) with
  | some e => b.filter e
  | none => b

/-! ## Nested blocks -/

/-- What a nested block starts from: the current base alone. -/
def seed (b : Builder) : Builder :=
  -- The base is looked for on the left only. A builder may start from criteria without one there;
  -- a block in them starts from the filter that admits everything.
  { criteria := .structural (b.criteria.base?.getD .any) }

/-- How the criteria of a block are joined to those outside. -/
inductive Join where
  | and
  | or
  | andNot
  deriving DecidableEq, Repr

/-- Join criteria to those so far in a given way. -/
def attach (b : Builder) : Join → Criteria → Builder
  | .and, c => b.conjoin c
  | .or, c => b.disjoin c
  | .andNot, c => b.conjoin (.not c)

/-- Join what a block makes of the builder that it is given, unless the block fails. The builder
    outside is not touched before the block has gone through. -/
def block {ε : Type} (b : Builder) (how : Join) (fill : Builder → Except ε Unit × Builder) :
    Except ε Unit × Builder :=
  match fill b.seed with
  | (.ok (), nested) => (.ok (), b.attach how nested.criteria)
  | (.error e, _) => (.error e, b)

/-! ## Page and order -/

def page (b : Builder) (p : PageSpec) : Builder := { b with paging := p }

def sortBy (b : Builder) (s : SortOrder) : Builder := { b with sort := s }

end Builder

end LedgerQuery
