/-
  LedgerQuery.Query.Predicate

  Comparisons as they are asked for, over operands of some type, and the expressions over scalars
  that they become. Equality with null becomes a test for null, and inequality with a value also
  admits fields that are null; every other comparison refuses operands that project to null.
-/
import LedgerQuery.Query.Expression

namespace LedgerQuery

/-- What is asked of a field. A missing operand stands for null. -/
inductive Predicate (α : Type) where
  | equalTo (operand : Option α) (ignoreCase : Bool)
  | notEqualTo (operand : Option α) (ignoreCase : Bool)
  | ordered (op : OrderOp) (operand : Option α)
  | between (low high : Option α)
  | within (operands : List α) (ignoreCase : Bool)
  | notWithin (operands : List α) (ignoreCase : Bool)
  | like (pattern : α) (ignoreCase : Bool)
  | notLike (pattern : α) (ignoreCase : Bool)
  deriving DecidableEq, Repr

namespace Predicate

/-- The name that errors give the comparison. -/
def operator {α : Type} : Predicate α → String
  | .equalTo .. => "EqualTo"
  | .notEqualTo .. => "NotEqualTo"
  | .ordered op _ => op.name
  | .between .. => "Between"
  | .within .. => "Within"
  | .notWithin .. => "NotWithin"
  | .like .. => "Like"
  | .notLike .. => "NotLike"

/-- The field is null. -/
def isNull {α : Type} : Predicate α := .equalTo none false

/-- The field is not null. -/
def isNotNull {α : Type} : Predicate α := .notEqualTo none false

end Predicate

/-! ## Faults -/

/-- An operand that a comparison cannot work with. -/
inductive ProjectionError where
  | nullOperand (field : FieldPath) (operator : String)
  | nullElement (field : FieldPath) (operator : String) (index : Nat)
  | nonTextPattern (field : FieldPath) (operator : String)
  deriving DecidableEq, Repr

namespace ProjectionError

/-- The wording of a fault. -/
def message : ProjectionError → String
  | .nullOperand field operator =>
    operator ++ " on " ++ field.render ++ " requires a non-null operand"
  | .nullElement field operator index =>
    operator ++ " on " ++ field.render ++ ": element " ++ Numeral.render index ++
      " projects to null"
  | .nonTextPattern field operator =>
    operator ++ " on " ++ field.render ++ " requires a text pattern"

end ProjectionError

/-! ## Expressions -/

namespace Field

variable {α : Type}

/-- The scalar of an operand; null if there is none or if it projects to null. -/
def operand (f : Field α) (x : Option α) : Option Scalar := x.bind f.project

/-- The scalar of an operand that must not be null. -/
def requiredOperand (f : Field α) (operator : String) (x : Option α) :
    Except ProjectionError Scalar :=
  match f.operand x with
  | some v => .ok v
  | none => .error (.nullOperand f.path operator)

/-- The scalars of operands that must not be null; `index` is the place of the first. -/
def elements (f : Field α) (operator : String) (index : Nat) :
    List α → Except ProjectionError (List Scalar)
  | [] => .ok []
  | x :: xs =>
    match f.project x with
    | none => .error (.nullElement f.path operator index)
    | some v => (f.elements operator (index + 1) xs).map (v :: ·)

/-- The text of a pattern operand. -/
def pattern (f : Field α) (operator : String) (x : α) : Except ProjectionError String :=
  match f.project x with
  | some (.text s) => .ok s
  | some _ => .error (.nonTextPattern f.path operator)
  | none => .error (.nullElement f.path operator 0)

/-- The expression for a comparison of the field. -/
def compile (f : Field α) (p : Predicate α) : Except ProjectionError Expression :=
  match p with
  | .equalTo x ignoreCase =>
    match f.operand x with
    | none => .ok (.isNull f.path)
    | some v => .ok (.compare f.path .equal v ignoreCase)
  | .notEqualTo x ignoreCase =>
    match f.operand x with
    | none => .ok (.notNull f.path)
    -- A comparison fails on null, but null is not equal to a value.
    | some v => .ok (.or (.compare f.path .notEqual v ignoreCase) (.isNull f.path))
  | .ordered op x =>
    (f.requiredOperand p.operator x).map fun v => .compare f.path (.order op) v false
  | .between low high => do
    let low ← f.requiredOperand p.operator low
    let high ← f.requiredOperand p.operator high
    return .between f.path low high
  | .within xs ignoreCase =>
    (f.elements p.operator 0 xs).map fun vs => .within f.path vs ignoreCase
  | .notWithin xs ignoreCase =>
    (f.elements p.operator 0 xs).map fun vs => .notWithin f.path vs ignoreCase
  | .like x ignoreCase => (f.pattern p.operator x).map fun s => .like f.path s ignoreCase
  | .notLike x ignoreCase => (f.pattern p.operator x).map fun s => .notLike f.path s ignoreCase

end Field

end LedgerQuery
