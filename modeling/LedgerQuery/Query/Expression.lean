/-
  LedgerQuery.Query.Expression

  Comparisons as they are evaluated: boolean expressions over one record, with scalars on the
  right side. Except for the tests for null, a comparison fails on a field that is null.
-/
import LedgerQuery.Query.Field
import LedgerQuery.Query.Like

namespace LedgerQuery

/-- The comparisons that need an order. -/
inductive OrderOp where
  | greaterThan
  | greaterOrEqual
  | lessThan
  | lessOrEqual
  deriving DecidableEq, Repr

namespace OrderOp

def name : OrderOp → String
  | .greaterThan => "GreaterThan"
  | .greaterOrEqual => "GreaterOrEqual"
  | .lessThan => "LessThan"
  | .lessOrEqual => "LessOrEqual"

def names : List (String × OrderOp) :=
  [("GreaterThan", .greaterThan), ("GreaterOrEqual", .greaterOrEqual), ("LessThan", .lessThan),
    ("LessOrEqual", .lessOrEqual)]

/-- Whether an outcome of comparing the field with the operand is the one asked for. -/
def holds : OrderOp → Ordering → Bool
  | .greaterThan, o => o.isGT
  | .greaterOrEqual, o => o.isGE
  | .lessThan, o => o.isLT
  | .lessOrEqual, o => o.isLE

end OrderOp

/-- The comparisons with one operand. -/
inductive CompareOp where
  | equal
  | notEqual
  | order (op : OrderOp)
  deriving DecidableEq, Repr

namespace CompareOp

/-- The mark of a comparison. -/
def symbol : CompareOp → String
  | .equal => "="
  | .notEqual => "!="
  | .order .greaterThan => ">"
  | .order .greaterOrEqual => ">="
  | .order .lessThan => "<"
  | .order .lessOrEqual => "<="

def name : CompareOp → String
  | .equal => "Equal"
  | .notEqual => "NotEqual"
  | .order op => op.name

def names : List (String × CompareOp) :=
  [("Equal", .equal), ("NotEqual", .notEqual)] ++
    OrderOp.names.map fun (name, op) => (name, .order op)

instance : JsonForm CompareOp := ⟨fun op => .text op.name, Json.named? names⟩

/-- Whether a comparison holds, given the order of field and operand. Values that are not
    comparable are not equal, and nothing else holds of them. -/
def holds : CompareOp → Option Ordering → Bool
  | .equal, o => o = some .eq
  | .notEqual, o => o ≠ some .eq
  | .order op, o => o.any op.holds

end CompareOp

/-- A boolean expression over one record. -/
inductive Expression where
  | isNull (field : FieldPath)
  | notNull (field : FieldPath)
  | compare (field : FieldPath) (op : CompareOp) (value : Scalar) (ignoreCase : Bool)
  | between (field : FieldPath) (low high : Scalar)
  | within (field : FieldPath) (values : List Scalar) (ignoreCase : Bool)
  | notWithin (field : FieldPath) (values : List Scalar) (ignoreCase : Bool)
  | like (field : FieldPath) (pattern : String) (ignoreCase : Bool)
  | notLike (field : FieldPath) (pattern : String) (ignoreCase : Bool)
  | and (left right : Expression)
  | or (left right : Expression)
  | not (inner : Expression)
  deriving DecidableEq

namespace Expression

/-- The conjunction of expressions, from the left; none of none. -/
def all : List Expression → Option Expression
  | [] => none
  | e :: rest => some (rest.foldl .and e)

/-- The disjunction of expressions, from the left; none of none. -/
def any : List Expression → Option Expression
  | [] => none
  | e :: rest => some (rest.foldl .or e)

/-! ## Evaluation -/

/-- Whether a value lies in a range, both ends included. -/
def inRange (low high v : Scalar) : Bool :=
  (Scalar.compare? false v low).any Ordering.isGE &&
    (Scalar.compare? false v high).any Ordering.isLE

/-- Whether a value equals one of several. -/
def isOneOf (ignoreCase : Bool) (values : List Scalar) (v : Scalar) : Bool :=
  values.any (Scalar.equals ignoreCase v)

/-- Whether an expression holds of a record. -/
def holds (r : StoredRecord) : Expression → Bool
  | .isNull field => (field.read r).isNone
  | .notNull field => (field.read r).isSome
  | .compare field op value ignoreCase =>
    (field.read r).any fun v => op.holds (Scalar.compare? ignoreCase v value)
  | .between field low high => (field.read r).any (inRange low high)
  | .within field values ignoreCase => (field.read r).any (isOneOf ignoreCase values)
  | .notWithin field values ignoreCase =>
    (field.read r).any fun v => !isOneOf ignoreCase values v
  | .like field pattern ignoreCase =>
    ((field.read r).bind Scalar.text?).any fun text => Like.holds ignoreCase text pattern
  | .notLike field pattern ignoreCase =>
    ((field.read r).bind Scalar.text?).any fun text => !Like.holds ignoreCase text pattern
  | .and left right => left.holds r && right.holds r
  | .or left right => left.holds r || right.holds r
  | .not inner => !inner.holds r

/-! ## Form -/

/-- The field, a value under its own name, and the case flag of a comparison. -/
def comparisonForm (field : FieldPath) (rest : List (String × Json)) : Json :=
  .ofFields (("field", JsonForm.toJson field) :: rest)

/-- The JSON form. -/
def toForm : Expression → Json
  | .isNull field => .holding "IsNull" (toJson field)
  | .notNull field => .holding "NotNull" (toJson field)
  | .compare field op value ignoreCase =>
    .holding "Compare" (comparisonForm field
      [("op", toJson op), ("value", toJson value), ("case_insensitive", toJson ignoreCase)])
  | .between field low high =>
    .holding "Between" (comparisonForm field [("low", toJson low), ("high", toJson high)])
  | .within field values ignoreCase =>
    .holding "In" (comparisonForm field
      [("values", toJson values), ("case_insensitive", toJson ignoreCase)])
  | .notWithin field values ignoreCase =>
    .holding "NotIn" (comparisonForm field
      [("values", toJson values), ("case_insensitive", toJson ignoreCase)])
  | .like field pattern ignoreCase =>
    .holding "Like" (comparisonForm field
      [("pattern", toJson pattern), ("case_insensitive", toJson ignoreCase)])
  | .notLike field pattern ignoreCase =>
    .holding "NotLike" (comparisonForm field
      [("pattern", toJson pattern), ("case_insensitive", toJson ignoreCase)])
  | .and left right => .holding "And" (.array [left.toForm, right.toForm])
  | .or left right => .holding "Or" (.array [left.toForm, right.toForm])
  | .not inner => .holding "Not" inner.toForm

/-- The fields of a case that has named ones. -/
def caseFields? (names : List String) : Json → Option (List (Option Json))
  | .object fields => Json.fields? names (.object fields)
  | _ => none

/-- An expression without parts. -/
def leafOfForm? (j : Json) : Option Expression := do
  match ← j.case? with
  | ("IsNull", some held) => return .isNull (← ofJson? held)
  | ("NotNull", some held) => return .notNull (← ofJson? held)
  | ("Compare", some held) =>
    match ← caseFields? ["field", "op", "value", "case_insensitive"] held with
    | [field, op, value, ignoreCase] =>
      return .compare (← required? field) (← required? op) (← required? value)
        (← required? ignoreCase)
    | _ => none
  | ("Between", some held) =>
    match ← caseFields? ["field", "low", "high"] held with
    | [field, low, high] =>
      return .between (← required? field) (← required? low) (← required? high)
    | _ => none
  | ("In", some held) =>
    match ← caseFields? ["field", "values", "case_insensitive"] held with
    | [field, values, ignoreCase] =>
      return .within (← required? field) (← required? values) (← required? ignoreCase)
    | _ => none
  | ("NotIn", some held) =>
    match ← caseFields? ["field", "values", "case_insensitive"] held with
    | [field, values, ignoreCase] =>
      return .notWithin (← required? field) (← required? values) (← required? ignoreCase)
    | _ => none
  | ("Like", some held) =>
    match ← caseFields? ["field", "pattern", "case_insensitive"] held with
    | [field, pattern, ignoreCase] =>
      return .like (← required? field) (← required? pattern) (← required? ignoreCase)
    | _ => none
  | ("NotLike", some held) =>
    match ← caseFields? ["field", "pattern", "case_insensitive"] held with
    | [field, pattern, ignoreCase] =>
      return .notLike (← required? field) (← required? pattern) (← required? ignoreCase)
    | _ => none
  | _ => none

/-- The expression that a JSON form stands for. -/
def ofForm? : Json → Option Expression
  | .object [("And", .array [left, right])] => do
    return .and (← ofForm? left) (← ofForm? right)
  | .object [("Or", .array [left, right])] => do
    return .or (← ofForm? left) (← ofForm? right)
  | .object [("Not", inner)] => do return .not (← ofForm? inner)
  | j => leafOfForm? j

instance : JsonForm Expression := ⟨toForm, ofForm?⟩

end Expression

end LedgerQuery
