/-
  LedgerQuery.Toml.Settings

  Settings in TOML documents. A document is read as the JSON object of its entries, so that
  settings have one form in both notations. A setting that is missing has its default, and
  entries that no setting is named for are ignored.
-/
import LedgerQuery.Json.Form
import LedgerQuery.Toml.Read

namespace LedgerQuery

namespace Toml

mutual

/-- The JSON value with the same content; doubles and dates, which no setting holds, become
    null. -/
def toJson : Toml → Json
  | .bool b => .bool b
  | .integer n => .integer n
  | .float | .date => .null
  | .text s => .text s
  | .array items => .array (itemsToJson items)
  | .table _ entries => .ofFields (entriesToJson entries)
  | .tables items => .array (tablesToJson items)

def itemsToJson : List Toml → List Json
  | [] => []
  | item :: rest => item.toJson :: itemsToJson rest

def entriesToJson : List (String × Toml) → List (String × Json)
  | [] => []
  | (key, value) :: rest => (key, value.toJson) :: entriesToJson rest

def tablesToJson : List (List (String × Toml)) → List Json
  | [] => []
  | entries :: rest => .ofFields (entriesToJson entries) :: tablesToJson rest

end

/-- The settings in a document. -/
def settings? (α : Type) [JsonForm α] (source : String) : Option α :=
  (read? source).bind fun entries => ofJson? (Json.ofFields (entriesToJson entries))

end Toml

/-- A setting of an object, or its default if it is missing. -/
def setting? [JsonForm α] (name : String) (default : α) (j : Json) : Option α :=
  match j.get? name with
  | some value => ofJson? value
  | none => some default

end LedgerQuery
