/-
  LedgerQuery.Text.Hex

  Bytes as hexadecimal digits: two lower-case digits a byte when written, either case when read.
  An odd number of digits is the first fault that reading looks for, the first byte that is no
  digit the second.
-/
import LedgerQuery.Text.Numeral
import LedgerQuery.Text.Utf8

namespace LedgerQuery.Hex

/-! ## Writing -/

/-- The digits in order of value. -/
def alphabet : List Char := "0123456789abcdef".toList

/-- The digit of a value below sixteen. -/
def digit (n : Nat) : Char := alphabet.getD n '0'

/-- The two digits of one byte, high half first. -/
def pair (b : UInt8) : List Char := [digit (b.toNat / 16), digit (b.toNat % 16)]

/-- The digits of a byte string. -/
def digits (bytes : Bytes) : List Char := bytes.flatMap pair

/-- A byte string as lower-case hexadecimal text. -/
def encode (bytes : Bytes) : String := String.ofList (digits bytes)

/-- A number in hexadecimal, padded with zeros to a width. -/
def padded (width n : Nat) : String :=
  String.ofList ((Numeral.places 16 width n).map digit)

/-! ## Reading -/

/-- Why a text is no byte string in hexadecimal. -/
inductive Fault where
  | oddLength
  | invalidDigit (byte : UInt8) (position : Nat)
  deriving DecidableEq, Repr

/-- The value of a digit, given as its ASCII byte. -/
def digitValue? (b : UInt8) : Option Nat :=
  let n := b.toNat
  if 48 ≤ n ∧ n ≤ 57 then some (n - 48)
  else if 97 ≤ n ∧ n ≤ 102 then some (n - 87)
  else if 65 ≤ n ∧ n ≤ 70 then some (n - 55)
  else none

/-- Read the digits two at a time; `position` counts the bytes before them. -/
def pairs (position : Nat) : Bytes → Except Fault Bytes
  | high :: low :: rest =>
    match digitValue? high with
    | none => .error (.invalidDigit high position)
    | some h =>
      match digitValue? low with
      | none => .error (.invalidDigit low (position + 1))
      | some l => (pairs (position + 2) rest).map (UInt8.ofNat (16 * h + l) :: ·)
  | _ => .ok []

/-- The byte string that a text in hexadecimal stands for. -/
def decode (text : String) : Except Fault Bytes :=
  let bytes := Utf8.encode text
  if bytes.length % 2 ≠ 0 then .error .oddLength else pairs 0 bytes

/-! ## Wording -/

/-- A byte shown as the character of that code between quotes, with the usual escapes; a
    character that is not printed is shown by its code. -/
def quoted (b : UInt8) : String :=
  let c := Char.ofNat b.toNat
  let code := String.ofList (Nat.toDigits 16 b.toNat)
  if c = '\t' then "'\\t'"
  else if c = '\n' then "'\\n'"
  else if c = '\r' then "'\\r'"
  else if c = '\'' then "'\\''"
  else if c = '\\' then "'\\\\'"
  else if b = 0 then "'\\0'"
  else if b < 32 ∨ (127 ≤ b ∧ b ≤ 160) ∨ b = 173 then "'\\u\x7b" ++ code ++ "\x7d'"
  else "'" ++ String.singleton c ++ "'"

/-- The wording of a fault. -/
def Fault.message : Fault → String
  | .oddLength => "Odd number of digits"
  | .invalidDigit b position =>
    "Invalid character " ++ quoted b ++ " at position " ++ Numeral.render position

end LedgerQuery.Hex
