/-
  LedgerQuery.Json.Read

  Reading JSON text: each reader takes its part from the front and returns what follows. A value
  may be nested 127 levels deep. A number keeps as many of its digits as 64 bits hold; without
  point and exponent it is an integer if it fits 64 bits, signed or not, and a double otherwise.
  Surrogate escapes have to come in pairs.
-/
import LedgerQuery.Json.Basic
import LedgerQuery.Number.Scaled
import LedgerQuery.Text.Hex
import LedgerQuery.Text.Numeral

namespace LedgerQuery.Json

/-- The levels of arrays and objects that a value may be nested. -/
def deepest : Nat := 127

def isBlank (c : Char) : Bool := c = ' ' || c = '\n' || c = '\t' || c = '\r'

def skipBlank (cs : List Char) : List Char := cs.dropWhile isBlank

/-- What follows a word, if the text starts with it. -/
def word (w : List Char) (cs : List Char) : Option (List Char) :=
  if w.isPrefixOf cs then some (cs.drop w.length) else none

/-! ## Numbers -/

/-- Add digits to a number as long as it fits 64 bits; how many were added comes with it. -/
def accumulate (n : Nat) : List Char → Nat × Nat
  | [] => (n, 0)
  | c :: cs =>
    let next := n * 10 + Numeral.digitValue c
    if next < UInt64.size then
      let (total, count) := accumulate next cs
      (total, count + 1)
    else (n, 0)

/-- The digits at the front, of which there has to be one. -/
def digits (cs : List Char) : Option (List Char × List Char) :=
  let found := cs.takeWhile Char.isDigit
  if found.isEmpty then none else some (found, cs.drop found.length)

/-- The digits behind a point, if there is a point. -/
def fraction : List Char → Option (Option (List Char) × List Char)
  | '.' :: cs => (digits cs).map fun (found, rest) => (some found, rest)
  | cs => some (none, cs)

/-- The exponent behind its mark, if there is a mark. -/
def exponent (cs : List Char) : Option (Option Int × List Char) :=
  match cs with
  | c :: rest =>
    if c = 'e' ∨ c = 'E' then
      let (negative, rest) :=
        match rest with
        | '+' :: rest => (false, rest)
        | '-' :: rest => (true, rest)
        | rest => (false, rest)
      (digits rest).map fun (found, rest) =>
        let n : Int := Numeral.value found
        (some (if negative then -n else n), rest)
    else some (none, cs)
  | [] => some (none, cs)

/-- The number with the given sign and parts. -/
def numberOf (negative : Bool) (whole : List Char) (behind : Option (List Char))
    (power : Option Int) : Option Json :=
  -- Digits that do not fit are left out and only count as powers of ten.
  let (total, count) := accumulate 0 whole
  let missing : Int := whole.length - count
  let (total, places) := accumulate total (behind.getD [])
  let float := (Binary64.ofDecimal? negative total (missing - places + power.getD 0)).map Json.float
  if behind.isSome ∨ power.isSome ∨ missing ≠ 0 then float
  else if negative then
    -- There is no negative zero among the integers.
    if total = 0 ∨ 9223372036854775808 < total then float else some (.integer (-(total : Int)))
  else some (.integer total)

/-- A number: digits without leading zeros, then optionally a fraction and an exponent. -/
def number (cs : List Char) : Option (Json × List Char) := do
  let (negative, cs) := match cs with
    | '-' :: rest => (true, rest)
    | cs => (false, cs)
  let (whole, cs) ← digits cs
  if whole.head? = some '0' ∧ 1 < whole.length then none
  else
    let (behind, cs) ← fraction cs
    let (power, cs) ← exponent cs
    return (← numberOf negative whole behind power, cs)

/-! ## Text -/

/-- Four hexadecimal digits. -/
def hex4 : List Char → Option (Nat × List Char)
  | a :: b :: c :: d :: rest => do
    let digit (c : Char) : Option Nat :=
      if c.toNat < 128 then Hex.digitValue? (UInt8.ofNat c.toNat) else none
    let a ← digit a
    let b ← digit b
    let c ← digit c
    let d ← digit d
    return (((a * 16 + b) * 16 + c) * 16 + d, rest)
  | _ => none

/-- The character that an escape after a backslash stands for. -/
def escaped : List Char → Option (Char × List Char)
  | '"' :: rest => some ('"', rest)
  | '\\' :: rest => some ('\\', rest)
  | '/' :: rest => some ('/', rest)
  | 'b' :: rest => some ('\x08', rest)
  | 'f' :: rest => some ('\x0c', rest)
  | 'n' :: rest => some ('\n', rest)
  | 'r' :: rest => some ('\r', rest)
  | 't' :: rest => some ('\t', rest)
  | 'u' :: rest => do
    let (high, rest) ← hex4 rest
    if high < 0xD800 ∨ 0xE000 ≤ high then return (Char.ofNat high, rest)
    -- The second half of a pair without its first.
    else if 0xDC00 ≤ high then none
    else
      let (low, rest) ← hex4 (← word ['\\', 'u'] rest)
      if 0xDC00 ≤ low ∧ low < 0xE000 then
        return (Char.ofNat (0x10000 + (high - 0xD800) * 0x400 + (low - 0xDC00)), rest)
      else none
  | _ => none

/-- The characters up to the closing quote. -/
def quotedBody : (fuel : Nat) → List Char → Option (List Char × List Char)
  | 0, _ => none
  | _ + 1, [] => none
  | fuel + 1, c :: rest =>
    if c = '"' then some ([], rest)
    else if c = '\\' then do
      let (d, rest) ← escaped rest
      let (found, rest) ← quotedBody fuel rest
      return (d :: found, rest)
    else if c.toNat < 0x20 then none
    else do
      let (found, rest) ← quotedBody fuel rest
      return (c :: found, rest)

/-- A text after its opening quote. -/
def textBody (fuel : Nat) (cs : List Char) : Option (String × List Char) :=
  (quotedBody fuel cs).map fun (found, rest) => (String.ofList found, rest)

/-! ## Values -/

mutual

/-- A value, which may hold arrays and objects `depth` levels deep. -/
def value : (fuel depth : Nat) → List Char → Option (Json × List Char)
  | 0, _, _ => none
  | fuel + 1, depth, cs =>
    match skipBlank cs with
    | 'n' :: rest => (word ['u', 'l', 'l'] rest).map fun rest => (.null, rest)
    | 't' :: rest => (word ['r', 'u', 'e'] rest).map fun rest => (.bool true, rest)
    | 'f' :: rest => (word ['a', 'l', 's', 'e'] rest).map fun rest => (.bool false, rest)
    | '"' :: rest => (textBody fuel rest).map fun (s, rest) => (.text s, rest)
    | '[' :: rest =>
      match depth with
      | 0 => none
      | depth + 1 =>
        match skipBlank rest with
        | ']' :: rest => some (.array [], rest)
        | rest => (items fuel depth rest).map fun (found, rest) => (.array found, rest)
    | '\x7b' :: rest =>
      match depth with
      | 0 => none
      | depth + 1 =>
        match skipBlank rest with
        | '\x7d' :: rest => some (.object [], rest)
        | rest => (fields fuel depth rest).map fun (found, rest) => (ofFields found, rest)
    | rest => number rest

/-- The items of an array up to the closing bracket. -/
def items : (fuel depth : Nat) → List Char → Option (List Json × List Char)
  | 0, _, _ => none
  | fuel + 1, depth, cs => do
    let (item, rest) ← value fuel depth cs
    match skipBlank rest with
    | ',' :: rest => (items fuel depth rest).map fun (found, rest) => (item :: found, rest)
    | ']' :: rest => some ([item], rest)
    | _ => none

/-- The fields of an object up to the closing brace. -/
def fields : (fuel depth : Nat) → List Char → Option (List (String × Json) × List Char)
  | 0, _, _ => none
  | fuel + 1, depth, cs => do
    let (name, rest) ← textBody fuel (← word ['"'] (skipBlank cs))
    let (item, rest) ← value fuel depth (← word [':'] (skipBlank rest))
    match skipBlank rest with
    | ',' :: rest =>
      (fields fuel depth rest).map fun (found, rest) => ((name, item) :: found, rest)
    | '\x7d' :: rest => some ([(name, item)], rest)
    | _ => none

end

/-- The value that a text stands for. -/
def read? (text : String) : Option Json :=
  let cs := text.toList
  -- A value and a list of items each take one step and, between them, at least one character.
  match value (2 * cs.length + 2) deepest cs with
  | some (j, rest) => if skipBlank rest = [] then some j else none
  | none => none

end LedgerQuery.Json
