/-
  LedgerQuery.Toml.Basic

  TOML documents. A table remembers how it came to be, since that decides what may still be added
  to it: by a header, in passing on the way to another table's header, by a dotted key, or as an
  inline value. Doubles and dates are told apart from other values but not evaluated.
-/
import LedgerQuery.Text.Numeral

namespace LedgerQuery

/-- How a table was made. -/
inductive TableKind where
  | header
  | passing
  | dotted
  | inline
  deriving DecidableEq, Repr

/-- A TOML value. -/
inductive Toml where
  | bool (b : Bool)
  | integer (n : Int)
  | float
  | date
  | text (s : String)
  | array (items : List Toml)
  | table (kind : TableKind) (entries : List (String × Toml))
  | tables (items : List (List (String × Toml)))
  deriving Repr, Inhabited

namespace Toml

/-- The entries of a table in the order of their keys' first appearance. -/
abbrev Entries := List (String × Toml)

/-- Replace the value of a key that is there. -/
def replace (key : String) (value : Toml) : Entries → Entries
  | [] => []
  | (k, v) :: rest => if k = key then (k, value) :: rest else (k, v) :: replace key value rest

/-- Put a new value at the end, or in the place of the one with its key. -/
def put (key : String) (value : Toml) (entries : Entries) : Entries :=
  if (entries.lookup key).isSome then replace key value entries else entries ++ [(key, value)]

/-! ## Adding to tables -/

/-- Add a value at a dotted key, seen from a table of the given kind. The tables on the way are
    made if they are missing; those that are there may not have been made by a header, and the
    last of them has to have been made by a dotted key. -/
def addDotted (kind : TableKind) (value : Toml) : (path : List String) → Entries → Option Entries
  | [], _ => none
  | [key], entries =>
    if (entries.lookup key).isSome ∨ kind = .passing then none
    else some (entries ++ [(key, value)])
  | key :: rest, entries =>
    match entries.lookup key with
    | none => (addDotted .dotted value rest []).map fun found =>
        entries ++ [(key, .table .dotted found)]
    | some (.table .dotted found) =>
      (addDotted .dotted value rest found).map fun found =>
        replace key (.table .dotted found) entries
    | some (.table .passing found) =>
      (addDotted .passing value rest found).map fun found =>
        replace key (.table .passing found) entries
    | some (.tables items) =>
      match items.reverse with
      | last :: before =>
        (addDotted .passing value rest last).map fun found =>
          replace key (.tables (found :: before).reverse) entries
      | [] => none
    | some _ => none

/-- Change the table at a header's path; the tables on the way are made in passing if they are
    missing, and of several tables the latest is meant. -/
def descend (change : String → Entries → Option Entries) :
    (path : List String) → Entries → Option Entries
  | [], _ => none
  | [key], entries => change key entries
  | key :: rest, entries =>
    match entries.lookup key with
    | none => (descend change rest []).map fun found =>
        entries ++ [(key, .table .passing found)]
    | some (.tables items) =>
      match items.reverse with
      | last :: before =>
        (descend change rest last).map fun found =>
          replace key (.tables (found :: before).reverse) entries
      | [] => none
    | some (.table kind found) =>
      if kind = .inline then none
      else (descend change rest found).map fun found => replace key (.table kind found) entries
    | some _ => none

/-- Start a table by its header: it may so far only have been made in passing. -/
def openTable (key : String) (entries : Entries) : Option Entries :=
  match entries.lookup key with
  | none => some (entries ++ [(key, .table .header [])])
  | some (.table .passing found) => some (replace key (.table .header found) entries)
  | some _ => none

/-- Start one more of several tables. -/
def openNext (key : String) (entries : Entries) : Option Entries :=
  match entries.lookup key with
  | none => some (entries ++ [(key, .tables [[]])])
  | some (.tables items) => some (replace key (.tables (items ++ [[]])) entries)
  | some _ => none

/-- Add a value to the table that the latest header opened; no header opened the root. -/
def addTo (header key : List String) (value : Toml) (entries : Entries) : Option Entries :=
  if header.isEmpty then addDotted .header value key entries
  else
    descend (fun last entries =>
      match entries.lookup last with
      | some (.table kind found) =>
        (addDotted .header value key found).map fun found =>
          replace last (.table kind found) entries
      | some (.tables items) =>
        match items.reverse with
        | latest :: before =>
          (addDotted .header value key latest).map fun found =>
            replace last (.tables (found :: before).reverse) entries
        | [] => none
      | _ => none) header entries

end Toml

end LedgerQuery
