/-
  LedgerQuery.Query.Scalar

  The scalars that fields are compared with. Integers and doubles compare by exact value, text by
  code points or, ignoring case, by its lower-case form; values of different kinds are not
  ordered. A second order, total, is there for sorting: booleans, then numbers with NaN last, then
  text.
-/
import LedgerQuery.Json.Form
import LedgerQuery.Json.Render
import LedgerQuery.Text.Lowercase

namespace LedgerQuery

/-- A scalar. -/
inductive Scalar where
  | bool (b : Bool)
  | int (n : Int64)
  | float (x : Binary64)
  | text (s : String)
  deriving DecidableEq

namespace Scalar

/-- The number that is an integer if 64 signed bits hold it, and the nearest double if not. -/
def ofInt (n : Int) : Scalar :=
  if Int64.minValue.toInt ≤ n ∧ n ≤ Int64.maxValue.toInt then .int (Int64.ofInt n)
  else .float (Binary64.ofInt n)

/-- The scalar of a payload value: null is absent, arrays and objects count as their canonical
    text. -/
def ofPayload : Json → Option Scalar
  | .null => none
  | .bool b => some (.bool b)
  | .integer n => some (ofInt n)
  | .float x => some (.float x)
  | .text s => some (.text s)
  | j => some (.text j.render)

def text? : Scalar → Option String
  | .text s => some s
  | _ => none

/-! ## Comparison -/

/-- The order of two values, if they are comparable. -/
def compare? (ignoreCase : Bool) : Scalar → Scalar → Option Ordering
  | .bool a, .bool b => some (compare a b)
  | .int a, .int b => some (compare a b)
  | .float a, .float b => a.compare? b
  | .int a, .float b => Binary64.compareInt? a.toInt b
  | .float a, .int b => (Binary64.compareInt? b.toInt a).map Ordering.swap
  | .text a, .text b =>
    if ignoreCase then some (compare (Lowercase.fold a) (Lowercase.fold b))
    else some (compare a b)
  | _, _ => none

/-- Whether two values are comparable and equal. -/
def equals (ignoreCase : Bool) (a b : Scalar) : Bool := compare? ignoreCase a b = some .eq

/-! ## Sorting -/

/-- The place of a kind of values among the kinds. -/
def rank : Scalar → Nat
  | .bool _ => 0
  | .int _ | .float _ => 1
  | .text _ => 2

def isNaN : Scalar → Bool
  | .float x => x.isNaN
  | _ => false

/-- The order for sorting. -/
def sortCompare (a b : Scalar) : Ordering :=
  (compare a.rank b.rank).then <|
    (compare? false a b).getD (compare a.isNaN b.isNaN)

/-! ## Form -/

instance : JsonForm Scalar where
  toJson
    | .bool b => .holding "Bool" (.bool b)
    | .int n => .holding "Int" (.integer n.toInt)
    | .float x => .holding "Float" (.float x)
    | .text s => .holding "Text" (.text s)
  ofJson? j := do
    match ← j.case? with
    | ("Bool", some held) => return .bool (← held.boolean?)
    | ("Int", some held) =>
      return .int (Int64.ofInt (← held.integerIn? (-9223372036854775808) 9223372036854775808))
    | ("Float", some held) => return .float (← held.double?)
    | ("Text", some held) => return .text (← held.text?)
    | _ => none

end Scalar

end LedgerQuery
