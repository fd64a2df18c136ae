/-
  LedgerQuery.Text.Numeral

  Decimal numerals. Written without sign or leading zeros; read with an optional plus sign, any
  number of leading zeros, and a bound that the value has to stay below. Numbers of a fixed width
  are written in any base.
-/

namespace LedgerQuery.Numeral

/-! ## Writing -/

/-- The decimal digits of a number, most significant first; zero is one digit. -/
def digits (n : Nat) : List Char := Nat.toDigits 10 n

/-- The numeral of a number. -/
def render (n : Nat) : String := String.ofList (digits n)

/-- The last digits of a number in a base, most significant first. -/
def places (base : Nat) : (width n : Nat) → List Nat
  | 0, _ => []
  | width + 1, n => places base width (n / base) ++ [n % base]

@[simp] theorem length_places (base width n : Nat) : (places base width n).length = width := by
  induction width generalizing n with
  | zero => rfl
  | succ width ih => simp [places, ih]

/-! ## Reading -/

/-- The value of one decimal digit. -/
def digitValue (c : Char) : Nat := c.toNat - '0'.toNat

/-- The value of a run of digits. -/
def value (digits : List Char) : Nat :=
  digits.foldl (fun total c => total * 10 + digitValue c) 0

/-- A nonempty run of digits whose value stays below the bound. -/
def unsigned? (bound : Nat) (cs : List Char) : Option Nat :=
  if cs ≠ [] ∧ cs.all Char.isDigit ∧ value cs < bound then some (value cs) else none

/-- A nonempty run of digits, optionally after a plus sign, whose value stays below the bound. -/
def read? (bound : Nat) : List Char → Option Nat
  | '+' :: cs => unsigned? bound cs
  | cs => unsigned? bound cs

/-- A 32-bit number in decimal. -/
def word32? (cs : List Char) : Option UInt32 := (read? UInt32.size cs).map UInt32.ofNat

end LedgerQuery.Numeral
