/-
  LedgerQuery.Toml.Scalar

  The scalars of TOML 1.0: booleans, integers of 64 signed bits in four bases, doubles, and dates
  and times. Underscores may stand between digits.
-/
import LedgerQuery.Number.Binary64
import LedgerQuery.Text.Hex
import LedgerQuery.Time.Instant
import LedgerQuery.Toml.Basic

namespace LedgerQuery.Toml

/-! ## Digits -/

/-- The value of a digit in any base up to sixteen. -/
def digit? (c : Char) : Option Nat :=
  if c.toNat < 128 then Hex.digitValue? (UInt8.ofNat c.toNat) else none

/-- The value of digits in a base, single underscores between them left out. `open_` says
    whether an underscore or the end may come next. -/
def digitsIn (base : Nat) (total : Nat) (after : Bool) : List Char → Option Nat
  | [] => if after then some total else none
  | '_' :: rest => if after then digitsIn base total false rest else none
  | c :: rest =>
    match digit? c with
    | some d => if d < base then digitsIn base (total * base + d) true rest else none
    | none => none

/-- Digits of the base ten, which may start with zeros. -/
def plain? (cs : List Char) : Option Nat := digitsIn 10 0 false cs

/-- Digits of the base ten without leading zeros. -/
def decimal? (cs : List Char) : Option Nat :=
  if cs.head? = some '0' ∧ 1 < cs.length then none else plain? cs

/-- What follows an optional sign, and whether the sign was a minus. -/
def signed : List Char → Bool × List Char
  | '-' :: rest => (true, rest)
  | '+' :: rest => (false, rest)
  | cs => (false, cs)

/-! ## Numbers -/

/-- An integer that 64 signed bits hold. -/
def integer? (cs : List Char) : Option Int := do
  let n : Int ← match cs with
    | '0' :: 'x' :: rest => (digitsIn 16 0 false rest).map Int.ofNat
    | '0' :: 'o' :: rest => (digitsIn 8 0 false rest).map Int.ofNat
    | '0' :: 'b' :: rest => (digitsIn 2 0 false rest).map Int.ofNat
    | cs =>
      let (negative, digits) := signed cs
      (decimal? digits).map fun n => if negative then -(n : Int) else n
  if -9223372036854775808 ≤ n ∧ n ≤ 9223372036854775807 then some n else none

/-- The characters before the first that passes a test, and those from it on. -/
def splitAt (stop : Char → Bool) (cs : List Char) : List Char × List Char :=
  (cs.takeWhile fun c => !stop c, cs.dropWhile fun c => !stop c)

/-- Whether a decimal is too great for a double. -/
def overflows (digits : Nat) (exponent : Int) : Bool :=
  if digits = 0 then false
  else
    let size : Int := (Numeral.digits digits).length + exponent
    if size < 300 then false
    else if 400 < size then true
    else if 0 ≤ exponent then
      (Binary64.ofRatio false (digits * Nat.pow 10 exponent.toNat) 1).isInfinite
    else (Binary64.ofRatio false digits (Nat.pow 10 (-exponent).toNat)).isInfinite

/-- Whether the characters are a double: a whole number with a fraction, an exponent or both, or
    one of the special values. A positive one must not be too great. -/
def isFloat (cs : List Char) : Bool :=
  let (negative, cs) := signed cs
  if cs = ['i', 'n', 'f'] ∨ cs = ['n', 'a', 'n'] then true
  else
    let (mantissa, mark) := splitAt (fun c => c = 'e' || c = 'E') cs
    let (whole, point) := splitAt (· = '.') mantissa
    let fraction : Option Nat := if point.isEmpty then some 0 else plain? point.tail
    let exponent : Option Int :=
      if mark.isEmpty then some 0
      else
        let (below, digits) := signed mark.tail
        (plain? digits).map fun n => if below then -(n : Int) else n
    let places := (point.tail.filter (· ≠ '_')).length
    match decimal? whole, fraction, exponent with
    | some w, some f, some e =>
      !(point.isEmpty && mark.isEmpty) &&
        (negative || !overflows (w * Nat.pow 10 places + f) (e - places))
    | _, _, _ => false

/-! ## Dates and times -/

/-- A number of exactly `width` digits at the front. -/
def fixed? (width : Nat) (cs : List Char) : Option (Nat × List Char) :=
  let digits := cs.take width
  if digits.length = width ∧ digits.all Char.isDigit then
    some (Numeral.value digits, cs.drop width)
  else none

/-- What follows a mark. -/
def after? (c : Char) : List Char → Option (List Char)
  | d :: rest => if d = c then some rest else none
  | [] => none

/-- What follows a date. -/
def date? (cs : List Char) : Option (List Char) := do
  let (year, cs) ← fixed? 4 cs
  let (month, cs) ← fixed? 2 (← after? '-' cs)
  let (day, cs) ← fixed? 2 (← after? '-' cs)
  if 1 ≤ month ∧ month ≤ 12 ∧ 1 ≤ day ∧ day ≤ Calendar.daysInMonth year month then some cs
  else none

/-- What follows a time of day. -/
def time? (cs : List Char) : Option (List Char) := do
  let (hour, cs) ← fixed? 2 cs
  let (minute, cs) ← fixed? 2 (← after? ':' cs)
  let (second, cs) ← fixed? 2 (← after? ':' cs)
  if hour < 24 ∧ minute < 60 ∧ second ≤ 60 then
    match cs with
    | '.' :: rest =>
      let (digits, rest) := splitAt (fun c => !c.isDigit) rest
      if digits.isEmpty then none else some rest
    | cs => some cs
  else none

/-- What follows an offset, if there is one. -/
def offset? : List Char → Option (List Char)
  | [] => some []
  | c :: rest =>
    if c = 'Z' ∨ c = 'z' then some rest
    else if c = '+' ∨ c = '-' then do
      let (hour, cs) ← fixed? 2 rest
      let (minute, cs) ← fixed? 2 (← after? ':' cs)
      if hour < 24 ∧ minute < 60 then some cs else none
    else some (c :: rest)

/-- Whether the characters are a time of day, with an offset where one may stand. -/
def isTime (offset : Bool) (cs : List Char) : Bool :=
  match time? cs with
  | some rest => if offset then offset? rest = some [] else rest = []
  | none => false

/-- Whether the characters are a date, a time, or both. -/
def isDate (cs : List Char) : Bool :=
  isTime false cs ||
    match date? cs with
    | some [] => true
    | some (c :: rest) => (c = 'T' || c = 't') && isTime true rest
    | none => false

/-! ## Scalars -/

/-- The scalar that is spelled by the given characters. -/
def scalar? (cs : List Char) : Option Toml :=
  if cs = ['t', 'r', 'u', 'e'] then some (.bool true)
  else if cs = ['f', 'a', 'l', 's', 'e'] then some (.bool false)
  else
    match integer? cs with
    | some n => some (.integer n)
    | none => if isFloat cs then some .float else if isDate cs then some .date else none

/-- The characters that scalars are spelled with. -/
def isScalarChar (c : Char) : Bool :=
  c.isAlphanum || c = '_' || c = '+' || c = '-' || c = '.' || c = ':'

/-- A scalar at the front. A blank may separate a date from a time. -/
def scalar (cs : List Char) : Option (Toml × List Char) := do
  let (found, rest) := splitAt (fun c => !isScalarChar c) cs
  let first ← scalar? found
  match rest with
  | ' ' :: more =>
    let (time, rest') := splitAt (fun c => !isScalarChar c) more
    if date? found = some [] ∧ isTime true time then return (.date, rest')
    else return (first, rest)
  | _ => return (first, rest)

end LedgerQuery.Toml
