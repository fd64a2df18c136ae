/-
  LedgerQuery.Json.Render

  The canonical text of a JSON value: no blanks, fields in the order of the object, and only
  quotes, backslashes and control characters escaped.
-/
import LedgerQuery.Json.Basic
import LedgerQuery.Number.Shortest
import LedgerQuery.Text.Hex
import LedgerQuery.Text.Numeral

namespace LedgerQuery.Json

/-! ## Numbers -/

/-- The least decimal exponent that is written without an exponent mark. -/
def leastPositional : Int := -5

/-- The greatest decimal exponent that is written without an exponent mark. -/
def greatestPositional : Int := 15

/-- The text of a positive decimal: positional with at least one digit behind the point, or with
    a signed exponent after the first digit. -/
def decimalText (d : Decimal) : List Char :=
  let digits := Numeral.digits d.digits
  let exponent := d.exponent + (digits.length : Int) - 1
  if leastPositional ≤ exponent ∧ exponent ≤ greatestPositional then
    if 0 ≤ d.exponent then digits ++ List.replicate d.exponent.toNat '0' ++ ['.', '0']
    else if 0 ≤ exponent then
      let whole := (exponent + 1).toNat
      digits.take whole ++ '.' :: digits.drop whole
    else '0' :: '.' :: (List.replicate (-exponent - 1).toNat '0' ++ digits)
  else
    let mark := 'e' :: (if exponent < 0 then '-' else '+') :: Numeral.digits exponent.natAbs
    match digits with
    | first :: second :: rest => first :: '.' :: second :: rest ++ mark
    | _ => digits ++ mark

/-- The text of a double: the shortest that reads back, and null for what is not finite. -/
def floatText (x : Binary64) : List Char :=
  if x.isFinite then
    let sign := if x.isNegative then ['-'] else []
    if x.magnitude = 0 then sign ++ ['0', '.', '0'] else sign ++ decimalText x.shortest
  else ['n', 'u', 'l', 'l']

/-- The text of an integer. -/
def integerText : Int → List Char
  | .ofNat n => Numeral.digits n
  | .negSucc n => '-' :: Numeral.digits (n + 1)

/-! ## Text -/

/-- A character inside quotes. -/
def escape (c : Char) : List Char :=
  if c = '"' then ['\\', '"']
  else if c = '\\' then ['\\', '\\']
  else if c = '\n' then ['\\', 'n']
  else if c = '\r' then ['\\', 'r']
  else if c = '\t' then ['\\', 't']
  else if c = '\x08' then ['\\', 'b']
  else if c = '\x0c' then ['\\', 'f']
  else if c.toNat < 0x20 then
    ['\\', 'u', '0', '0', Hex.digit (c.toNat / 16), Hex.digit (c.toNat % 16)]
  else [c]

/-- A text in quotes. -/
def quoted (s : String) : List Char := '"' :: (s.toList.flatMap escape ++ ['"'])

/-! ## Values -/

mutual

/-- The characters of a value's text. -/
def characters : Json → List Char
  | .null => ['n', 'u', 'l', 'l']
  | .bool true => ['t', 'r', 'u', 'e']
  | .bool false => ['f', 'a', 'l', 's', 'e']
  | .integer n => integerText n
  | .float x => floatText x
  | .text s => quoted s
  | .array [] => ['[', ']']
  | .array (item :: items) => '[' :: (characters item ++ moreItems items)
  | .object [] => ['\x7b', '\x7d']
  | .object ((name, value) :: fields) =>
    '\x7b' :: (quoted name ++ ':' :: (characters value ++ moreFields fields))

/-- The items after the first, and the closing bracket. -/
def moreItems : List Json → List Char
  | [] => [']']
  | item :: items => ',' :: (characters item ++ moreItems items)

/-- The fields after the first, and the closing brace. -/
def moreFields : List (String × Json) → List Char
  | [] => ['\x7d']
  | (name, value) :: fields =>
    ',' :: (quoted name ++ ':' :: (characters value ++ moreFields fields))

end

/-- The canonical text of a value. -/
def render (j : Json) : String := String.ofList (characters j)

end LedgerQuery.Json
