/-
  LedgerQuery.Json.Basic

  JSON values. Integers and doubles are different numbers: what is written without point and
  exponent and fits 64 bits is an integer. The fields of an object are kept in ascending order of
  their names, each name once; `Json.ofFields` and `Json.put` see to that.
-/
import LedgerQuery.Number.Binary64

namespace LedgerQuery

/-- A JSON value. -/
inductive Json where
  | null
  | bool (b : Bool)
  | integer (n : Int)
  | float (x : Binary64)
  | text (s : String)
  | array (items : List Json)
  | object (fields : List (String × Json))
  deriving Repr, Inhabited

namespace Json

/-- Put a field in its place; a field of that name is replaced. -/
def put (name : String) (value : Json) : List (String × Json) → List (String × Json)
  | [] => [(name, value)]
  | (n, v) :: rest =>
    match compare name n with
    | .lt => (name, value) :: (n, v) :: rest
    | .eq => (name, value) :: rest
    | .gt => (n, v) :: put name value rest

/-- The object with the given fields; of two fields with one name the later counts. -/
def ofFields (fields : List (String × Json)) : Json :=
  .object (fields.foldl (fun object (name, value) => put name value object) [])

/-- The field of an object with a given name. -/
def get? (name : String) : Json → Option Json
  | .object fields => fields.lookup name
  | _ => none

def ofNat (n : Nat) : Json := .integer n

/-- The value, or null for none. -/
def orNull : Option Json → Json
  | some j => j
  | none => .null

/-! ## Equality of values -/

mutual

/-- Whether two values are the same, doubles compared by value. -/
def same : Json → Json → Bool
  | .null, .null => true
  | .bool a, .bool b => a == b
  | .integer a, .integer b => a == b
  | .float a, .float b => a.sameValue b
  | .text a, .text b => a == b
  | .array a, .array b => sameItems a b
  | .object a, .object b => sameFields a b
  | _, _ => false

def sameItems : List Json → List Json → Bool
  | [], [] => true
  | a :: as, b :: bs => same a b && sameItems as bs
  | _, _ => false

def sameFields : List (String × Json) → List (String × Json) → Bool
  | [], [] => true
  | (m, a) :: as, (n, b) :: bs => m == n && same a b && sameFields as bs
  | _, _ => false

end

end Json

end LedgerQuery
