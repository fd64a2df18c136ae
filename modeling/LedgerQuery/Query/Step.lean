/-
  LedgerQuery.Query.Step

  The steps of a builder as data, nested blocks among them, and what a sequence of steps builds.
  Steps change the builder in place. A sequence ends with its first failing step, and so does the
  block that holds it, unless the failure of that step is passed over.
-/
import LedgerQuery.Query.Builder

namespace LedgerQuery.Builder

/-- The outcome of compiling a comparison. -/
abbrev Compiled := Except ProjectionError Expression

/-- A step of a builder. -/
inductive Step where
  | set (s : Setter)
  | linearIds (ids : List LinearId)
  | externalIds (names : List String)
  | filter (e : Compiled)
  | allOf (es : List (Option Compiled))
  | anyOf (es : List (Option Compiled))
  | block (how : Join) (steps : List Step)
  | passOver (s : Step)
  | page (number size : UInt32)
  | sort (s : SortOrder)

/-- Why a step fails. -/
inductive StepError where
  | projection (e : ProjectionError)
  | page (e : RecordError)
  deriving DecidableEq, Repr

/-- The expressions that are there, unless one of them did not compile. -/
def compiled (es : List (Option Compiled)) : Except StepError (List (Option Expression)) :=
  es.mapM fun
    | none => .ok none
    | some (.ok e) => .ok (some e)
    | some (.error e) => .error (.projection e)

/-- What comes of a step that cannot fail. -/
def through (b : Builder) : Except StepError Unit × Builder := (.ok (), b)

mutual

/-- Take one step in place: how it ends, and the builder that it leaves. -/
def perform (b : Builder) : Step → Except StepError Unit × Builder
  | .set s => through (b.set s)
  | .linearIds ids => through (b.linearIds ids)
  | .externalIds names => through (b.externalIds names)
  | .filter (.ok e) => through (b.filter e)
  | .filter (.error e) => (.error (.projection e), b)
  | .allOf es =>
    match compiled es with
    | .ok es => through (b.withExpressions es)
    | .error e => (.error e, b)
  | .anyOf es =>
    match compiled es with
    | .ok es => through (b.withAnyExpressions es)
    | .error e => (.error e, b)
  | .block how steps => b.block how fun nested => performAll nested steps
  | .passOver s => through (perform b s).2
  | .page number size =>
    match PageSpec.ofParts number size with
    | .ok p => through (b.page p)
    | .error e => (.error (.page e), b)
  | .sort s => through (b.sortBy s)

/-- Take steps in place, in order up to the first that fails. -/
def performAll (b : Builder) : List Step → Except StepError Unit × Builder
  | [] => through b
  | s :: rest =>
    match perform b s with
    | (.ok (), b) => performAll b rest
    | (.error e, b) => (.error e, b)

end

/-- The builder that work leaves, if the work went through. -/
def settled : Except StepError Unit × Builder → Except StepError Builder
  | (.ok (), b) => .ok b
  | (.error e, _) => .error e

/-- What one step builds. -/
def take (b : Builder) (s : Step) : Except StepError Builder := settled (b.perform s)

/-- What steps build. -/
def run (b : Builder) (steps : List Step) : Except StepError Builder :=
  settled (b.performAll steps)

end LedgerQuery.Builder
