/-
  LedgerQuery.Record.Page

  Pages of results, and the order that results are asked for in.
-/
import LedgerQuery.Json.Form
import LedgerQuery.Record.Error

namespace LedgerQuery

/-! ## Page numbers -/

/-- The number of a page, counted from one, and how many records a page holds. -/
structure PageSpec where
  number : UInt32
  size : UInt32
  number_ne_zero : number ≠ 0
  size_ne_zero : size ≠ 0
  deriving DecidableEq

namespace PageSpec

/-- The size of a page that nobody chose. -/
def defaultSize : UInt32 := 200

/-- A page; neither its number nor its size may be zero. -/
def ofParts (number size : UInt32) : Except RecordError PageSpec :=
  if h : number ≠ 0 ∧ size ≠ 0 then .ok ⟨number, size, h.1, h.2⟩
  else .error (.invalidPage number size)

/-- The first page of a size. -/
def first (size : UInt32) : Except RecordError PageSpec := ofParts 1 size

/-- The first page of the default size. -/
def initial : PageSpec := ⟨1, defaultSize, by decide, by decide⟩

/-- How many records lie before the page. -/
def offset (p : PageSpec) : UInt64 := (p.number - 1).toUInt64 * p.size.toUInt64

/-- The greatest page number. -/
def lastNumber : UInt32 := 4294967295

/-- The page after this one; the last page is its own successor. -/
def next (p : PageSpec) : PageSpec :=
  if h : p.number = lastNumber then p
  else
    { p with
      number := p.number + 1
      number_ne_zero := fun zero => h (by
        have : p.number = 0 - 1 := by rw [← zero]; simp
        rw [this]; decide) }

instance : JsonForm PageSpec where
  toJson p := .ofFields [("number", toJson p.number), ("size", toJson p.size)]
  ofJson? j := do
    match ← j.fields? ["number", "size"] with
    | [number, size] => (ofParts (← required? number) (← required? size)).toOption
    | _ => none

end PageSpec

/-! ## Pages -/

/-- The records of one page, and how many records there are on all pages. -/
structure Page (α : Type) where
  records : List α
  total : UInt64

namespace Page

def empty {α : Type} : Page α := ⟨[], 0⟩

/-- Convert every record; the first failure is that of the page. -/
def mapM {α β ε : Type} (f : α → Except ε β) (p : Page α) : Except ε (Page β) :=
  (p.records.mapM f).map fun records => ⟨records, p.total⟩

instance {α : Type} [JsonForm α] : JsonForm (Page α) where
  toJson p := .ofFields [("records", toJson p.records), ("total_available", toJson p.total)]
  ofJson? j := do
    match ← j.fields? ["records", "total_available"] with
    | [records, total] => return ⟨← required? records, ← required? total⟩
    | _ => none

end Page

/-! ## Sort orders -/

inductive Direction where
  | ascending
  | descending
  deriving DecidableEq, Repr

/-- What a column orders by: a time, the reference, or the payload value at a dotted path. -/
inductive SortKey where
  | recordedAt
  | consumedAt
  | reference
  | field (path : String)
  deriving DecidableEq, Repr

structure SortColumn where
  key : SortKey
  direction : Direction
  deriving DecidableEq, Repr

/-- An order by columns; earlier ones weigh more, and without any there is no order. -/
structure SortOrder where
  columns : List SortColumn
  deriving DecidableEq, Repr

namespace SortOrder

def unsorted : SortOrder := ⟨[]⟩

/-- The order by a single column. -/
def on (key : SortKey) (direction : Direction) : SortOrder := ⟨[⟨key, direction⟩]⟩

def isUnsorted (s : SortOrder) : Bool := s.columns.isEmpty

end SortOrder

instance : JsonForm Direction where
  toJson d := .text (match d with | .ascending => "Ascending" | .descending => "Descending")
  ofJson? := Json.named? [("Ascending", .ascending), ("Descending", .descending)]

instance : JsonForm SortKey where
  toJson
    | .recordedAt => .text "RecordedAt"
    | .consumedAt => .text "ConsumedAt"
    | .reference => .text "Reference"
    | .field path => .holding "Field" (.text path)
  ofJson? j :=
    match j.case? with
    | some ("Field", some (.text path)) => some (.field path)
    | _ => j.named? [("RecordedAt", .recordedAt), ("ConsumedAt", .consumedAt),
        ("Reference", .reference)]

instance : JsonForm SortColumn where
  toJson c := .ofFields [("key", toJson c.key), ("direction", toJson c.direction)]
  ofJson? j := do
    match ← j.fields? ["key", "direction"] with
    | [key, direction] => return ⟨← required? key, ← required? direction⟩
    | _ => none

instance : JsonForm SortOrder where
  toJson s := .ofFields [("columns", toJson s.columns)]
  ofJson? j := do
    match ← j.fields? ["columns"] with
    | [columns] => return ⟨← required? columns⟩
    | _ => none

end LedgerQuery
