/-
  LedgerQuery.Json.Form

  Types that have a JSON form. A record type is an object of its fields, or when read an array of
  all of them in order; fields that are not asked for are ignored, and an optional field may be
  missing. One case among several is an object whose only field is named for the case, or the
  bare name when the case holds nothing.
-/
import LedgerQuery.Json.Basic
import LedgerQuery.Text.Numeral

namespace LedgerQuery

/-- A type with a JSON form. -/
class JsonForm (α : Type) where
  toJson : α → Json
  ofJson? : Json → Option α

export JsonForm (toJson ofJson?)

namespace Json

/-! ## Scalars -/

def boolean? : Json → Option Bool
  | .bool b => some b
  | _ => none

def text? : Json → Option String
  | .text s => some s
  | _ => none

/-- An integer from `low` up to but not including `high`. -/
def integerIn? (low high : Int) : Json → Option Int
  | .integer n => if low ≤ n ∧ n < high then some n else none
  | _ => none

/-- A number below a bound, not negative. -/
def naturalBelow? (bound : Nat) (j : Json) : Option Nat :=
  (j.integerIn? 0 bound).map Int.toNat

/-- A double; an integer is taken as the nearest one. -/
def double? : Json → Option Binary64
  | .float x => some x
  | .integer n => some (Binary64.ofInt n)
  | _ => none

def items? : Json → Option (List Json)
  | .array items => some items
  | _ => none

/-! ## Records and cases -/

/-- The values of the named fields: of an object those it has, of an array all in order. -/
def fields? (names : List String) : Json → Option (List (Option Json))
  | .object fields => some (names.map fun name => fields.lookup name)
  | .array items => if items.length = names.length then some (items.map some) else none
  | _ => none

/-- The name of a case and what it holds. -/
def case? : Json → Option (String × Option Json)
  | .text name => some (name, none)
  | .object [(name, held)] => some (name, some held)
  | _ => none

/-- One of several names, which may be given as a case that holds null. -/
def named? (choices : List (String × α)) (j : Json) : Option α :=
  match j.case? with
  | some (name, none) | some (name, some .null) => choices.lookup name
  | _ => none

/-- A case that holds something. -/
def holding (name : String) (held : Json) : Json := .object [(name, held)]

end Json

/-- A field that has to be there. -/
def required? [JsonForm α] (field : Option Json) : Option α := field.bind ofJson?

/-- A field that may be missing or null. -/
def optional? [JsonForm α] : Option Json → Option (Option α)
  | none | some .null => some none
  | some j => (ofJson? j).map some

/-- A list of values, read in order. -/
def listOf? [JsonForm α] (j : Json) : Option (List α) :=
  j.items?.bind fun items => items.mapM ofJson?

/-! ## Basic forms -/

instance : JsonForm Json := ⟨id, some⟩

instance : JsonForm Bool := ⟨.bool, Json.boolean?⟩

instance : JsonForm String := ⟨.text, Json.text?⟩

instance : JsonForm UInt32 := ⟨fun n => .integer n.toNat, fun j =>
  (j.naturalBelow? UInt32.size).map UInt32.ofNat⟩

instance : JsonForm UInt64 := ⟨fun n => .integer n.toNat, fun j =>
  (j.naturalBelow? UInt64.size).map UInt64.ofNat⟩

instance : JsonForm Binary64 := ⟨.float, Json.double?⟩

instance [JsonForm α] : JsonForm (List α) := ⟨fun xs => .array (xs.map toJson), listOf?⟩

instance [JsonForm α] : JsonForm (Option α) :=
  ⟨fun x => x.elim .null toJson, fun j => optional? (some j)⟩

end LedgerQuery
