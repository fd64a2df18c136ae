/-
  LedgerQuery.Query.Notation

  Queries in JSON notation: a base and a list of builder steps, or the whole query in its own
  form. A comparison names the type of its operands, the field, and the predicate. Which types of
  operands there are is a parameter.
-/
import LedgerQuery.Json.Read
import LedgerQuery.Query.Step

namespace LedgerQuery.Notation

/-! ## Scalars and fields -/

/-- A double; those without a numeral of their own are named. -/
def double? : Json → Option Binary64
  | .text "nan" => some .nan
  | .text "inf" => some .infinity
  | .text "-inf" => some .negativeInfinity
  | .text "-0" => some .negativeZero
  | j => j.double?

/-- A scalar, its double perhaps named. -/
def scalar? : Json → Option Scalar
  | .object [("Float", x)] => (double? x).map .float
  | j => ofJson? j

/-- A payload path, or an attribute. -/
def path? : Json → Option FieldPath
  | .text path => some (.payload path)
  | j => (j.get? "attr").bind fun a => (ofJson? a).map .ofRecord

/-! ## Operands -/

/-- A type of operands: how they are written, and their projection. -/
structure OperandType where
  type : Type
  read? : Json → Option type
  project : type → Option Scalar

namespace OperandType

/-- The operands of a type with its own form and projection. -/
def own (α : Type) [JsonForm α] [Projectable α] : OperandType :=
  ⟨α, ofJson?, Projectable.project⟩

/-- Operands that may be an explicit nothing, which projects to null. -/
def optional (t : OperandType) : OperandType where
  type := Option t.type
  read? j := if (j.get? "none").isSome then some none else (t.read? j).map some
  project x := x.bind t.project

end OperandType

/-- The types of operands by name. -/
abbrev OperandTypes := String → Option OperandType

/-! ## Comparisons -/

/-- A field that may be missing or null. -/
def field? {α : Type} (read? : Json → Option α) (name : String) (j : Json) :
    Option (Option α) :=
  match j.get? name with
  | none | some .null => some none
  | some x => (read? x).map some

/-- The predicates with a case flag of their own, and their short forms. -/
def predicate? {α : Type} (read? : Json → Option α) (j : Json) : Option (Predicate α) := do
  let operand (name : String) := field? read? name j
  let operands : Option (List α) := do (← (← j.get? "values").items?).mapM read?
  let pattern : Option α := do read? (← j.get? "pattern")
  let flag := ((← field? Json.boolean? "ci" j).getD false)
  match ← (← j.get? "p").text? with
  | "EqualTo" => return .equalTo (← operand "value") flag
  | "NotEqualTo" => return .notEqualTo (← operand "value") flag
  | "GreaterThan" | "greater_than" => return .ordered .greaterThan (← operand "value")
  | "GreaterOrEqual" | "greater_or_equal" => return .ordered .greaterOrEqual (← operand "value")
  | "LessThan" | "less_than" => return .ordered .lessThan (← operand "value")
  | "LessOrEqual" | "less_or_equal" => return .ordered .lessOrEqual (← operand "value")
  | "Between" | "between" => return .between (← operand "low") (← operand "high")
  | "Within" => return .within (← operands) flag
  | "NotWithin" => return .notWithin (← operands) flag
  | "Like" => return .like (← pattern) flag
  | "NotLike" => return .notLike (← pattern) flag
  | "equal_to" => return .equalTo (← operand "value") false
  | "equal_to_ignoring_case" => return .equalTo (← operand "value") true
  | "not_equal_to" => return .notEqualTo (← operand "value") false
  | "not_equal_to_ignoring_case" => return .notEqualTo (← operand "value") true
  | "is_null" => return .isNull
  | "is_not_null" => return .isNotNull
  | "within" => return .within (← operands) false
  | "within_ignoring_case" => return .within (← operands) true
  | "not_within" => return .notWithin (← operands) false
  | "like" => return .like (← pattern) false
  | "like_ignoring_case" => return .like (← pattern) true
  | "not_like" => return .notLike (← pattern) false
  | _ => none

/-- What compiling a written comparison comes to. -/
def comparison? (types : OperandTypes) (j : Json) : Option Builder.Compiled :=
  match ((j.get? "type").bind Json.text?).bind types with
  | none => none
  | some t => do
    let path ← (j.get? "field").bind path?
    let p ← (j.get? "predicate").bind (predicate? t.read?)
    return Field.compile ⟨path, t.project⟩ p

/-- A comparison, or an expression in its own form. -/
def expression? (types : OperandTypes) (j : Json) : Option Builder.Compiled :=
  match j.get? "raw" with
  | some e => (ofJson? e).map .ok
  | none => comparison? types j

/-! ## Builders -/

/-- Columns, each a key and a direction. -/
def sort? (j : Json) : Option SortOrder := do
  let columns ← (← j.items?).mapM fun
    | .array [key, direction] => do return ⟨← ofJson? key, ← ofJson? direction⟩
    | _ => none
  return ⟨columns⟩

/-- The names of nested blocks. -/
def joins : List (String × Builder.Join) :=
  [("and", .and), ("try_and", .and), ("or", .or), ("try_or", .or), ("not", .andNot)]

/-- A step, with blocks nested less deep than given. -/
def step? (types : OperandTypes) : (depth : Nat) → Json → Option Builder.Step
  | 0, _ => none
  | depth + 1, j => do
    let held := j.get?
    let name ← (← held "b").text?
    match joins.lookup name with
    | some join =>
      return .block join (← (← (← held "steps").items?).mapM (step? types depth))
    | none =>
      let expressions : Option (List (Option Builder.Compiled)) := do
        (← (← held "exprs").items?).mapM fun
          | .null => some none
          | e => (expression? types e).map some
      match name with
      | "status" => return .set (.status (← required? (held "status")))
      | "record_types" => return .set (.recordTypes (← required? (held "types")))
      | "references" => return .set (.references (← required? (held "refs")))
      | "participants" => return .set (.participants (← required? (held "parties")))
      | "relevancy" => return .set (.relevancy (← required? (held "relevancy")))
      | "linear_ids" => return .linearIds (← required? (held "ids"))
      | "external_ids" => return .externalIds (← required? (held "ids"))
      | "filter" => return .filter (← expression? types (← held "expr"))
      | "with_expressions" => return .allOf (← expressions)
      | "with_any_expressions" => return .anyOf (← expressions)
      | "page" => return .page (← required? (held "number")) (← required? (held "size"))
      | "sort" => return .sort (← sort? (← held "sort"))
      | _ => none

/-- The steps of a builder; none are written as nothing. -/
def steps? (types : OperandTypes) (j : Json) : Option (List Builder.Step) := do
  let items ← field? Json.items? "steps" j
  (items.getD []).mapM (step? types Json.deepest)

/-- A builder for a record type and a status, or for criteria. -/
def base? (j : Json) : Option Builder :=
  match j.get? "criteria" with
  | some c => do return { criteria := ← ofJson? c }
  | none => do return .forType (← required? (j.get? "type")) (← required? (j.get? "status"))

/-- A query in its own form, or what steps build on a base. -/
def query? (types : OperandTypes) (j : Json) : Option (Except Builder.StepError Query) :=
  if (j.get? "paging").isSome then (ofJson? j).map .ok
  else do
    let base ← base? j
    let steps ← steps? types j
    return (base.run steps).map Builder.build

end LedgerQuery.Notation
