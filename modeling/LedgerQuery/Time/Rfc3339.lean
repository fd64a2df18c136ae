/-
  LedgerQuery.Time.Rfc3339

  Instants as RFC 3339 text. Written in UTC with `Z`, and with no, 3, 6 or 9 digits of the second's
  fraction, the fewest that are exact; a year outside 0 to 9999 carries a sign. The reader takes
  any offset below a day, blanks between the parts, fields without leading zeros, a blank in place
  of `T`, and the name `UTC` in place of an offset.
-/
import LedgerQuery.Text.Blank
import LedgerQuery.Text.Numeral
import LedgerQuery.Time.Instant

namespace LedgerQuery.Rfc3339

/-! ## Writing -/

/-- The last `width` digits of a number, padded with zeros. -/
def padded (width n : Nat) : List Char :=
  (Numeral.places 10 width n).map Nat.digitChar

/-- Four digits, or five and more with a sign when four do not hold the year. -/
def year (y : Int) : List Char :=
  if 0 ≤ y ∧ y ≤ 9999 then padded 4 y.toNat
  else
    let digits := Numeral.digits y.natAbs
    (if y < 0 then '-' else '+') :: (List.replicate (4 - digits.length) '0' ++ digits)

/-- The digits behind the seconds. -/
def fraction (nano : Nat) : List Char :=
  if nano = 0 then []
  else if nano % 1000000 = 0 then '.' :: padded 3 (nano / 1000000)
  else if nano % 1000 = 0 then '.' :: padded 6 (nano / 1000)
  else '.' :: padded 9 nano

/-- The text of an instant. -/
def render (t : Instant) : String :=
  String.ofList <|
    year t.year ++ ('-' :: padded 2 t.month) ++ ('-' :: padded 2 t.day) ++
      ('T' :: padded 2 t.hour) ++ (':' :: padded 2 t.minute) ++ (':' :: padded 2 t.second) ++
      fraction t.nano ++ ['Z']

/-! ## Reading -/

/-- One to `most` digits. -/
def number (most : Nat) (cs : List Char) : Option (Nat × List Char) :=
  let digits := (cs.take most).takeWhile Char.isDigit
  if digits.isEmpty then none else some (Numeral.value digits, cs.drop digits.length)

/-- A field of one or two digits after blanks. -/
def field (cs : List Char) : Option (Nat × List Char) := number 2 (Blank.trimStart cs)

/-- A year of up to four digits, or of any number of them after a sign. -/
def yearField (cs : List Char) : Option (Int × List Char) :=
  match Blank.trimStart cs with
  | '-' :: rest => (number rest.length rest).map fun (n, rest) => (-(n : Int), rest)
  | '+' :: rest => (number rest.length rest).map fun (n, rest) => ((n : Int), rest)
  | cs => (number 4 cs).map fun (n, rest) => ((n : Int), rest)

/-- A mark between fields, after blanks. -/
def mark (c : Char) (cs : List Char) : Option (List Char) :=
  match Blank.trimStart cs with
  | d :: rest => if d = c then some rest else none
  | [] => none

/-- The nanoseconds of a fraction; digits after the ninth are dropped. -/
def nanoField : List Char → Option (Nat × List Char)
  | '.' :: cs =>
    (number 9 cs).map fun (n, rest) =>
      -- Fewer than nine digits are the leading ones.
      (n * Nat.pow 10 (9 - (cs.length - rest.length)), rest.dropWhile Char.isDigit)
  | cs => some (0, cs)

/-- Two digits, whose first is at most `most`. -/
def twoDigits (most : Nat) : List Char → Option (Nat × List Char)
  | a :: b :: rest =>
    if a.isDigit ∧ b.isDigit ∧ Numeral.digitValue a ≤ most then some (Numeral.value [a, b], rest)
    else none
  | _ => none

/-- An offset in minutes: `Z`, `UTC`, or a sign, hours and minutes. -/
def offsetField (cs : List Char) : Option (Int × List Char) :=
  let hours (sign : Int) (cs : List Char) : Option (Int × List Char) := do
    let (h, cs) ← twoDigits 9 cs
    let (m, cs) ← twoDigits 5 (cs.dropWhile fun c => c = ':' || Blank.isBlank c)
    if h < 24 then some (sign * (60 * h + m : Nat), cs) else none
  match cs with
  | '+' :: rest => hours 1 rest
  | '-' :: rest => hours (-1) rest
  | '\u2212' :: rest => hours (-1) rest
  | c :: rest =>
    if c = 'Z' ∨ c = 'z' then some (0, rest)
    else if (cs.take 3).map Char.toUpper = ['U', 'T', 'C'] then some (0, cs.drop 3)
    else none
  | [] => none

/-- The instant that a text stands for. -/
def read? (text : String) : Option Instant := do
  let (year, cs) ← yearField text.toList
  let (month, cs) ← field (← mark '-' cs)
  let (day, cs) ← field (← mark '-' cs)
  let cs ← match cs with
    | c :: rest => if c = 'T' ∨ c = 't' ∨ c = ' ' then some rest else none
    | [] => none
  let (hour, cs) ← field cs
  let (minute, cs) ← field (← mark ':' cs)
  let (second, cs) ← field (← mark ':' cs)
  let (nano, cs) ← nanoField cs
  let (offset, cs) ← offsetField (Blank.trimStart cs)
  if Blank.trimStart cs = [] then
    Instant.ofLocal? year month day hour minute second nano offset
  else none

end LedgerQuery.Rfc3339
