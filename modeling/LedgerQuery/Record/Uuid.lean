/-
  LedgerQuery.Record.Uuid

  Universally unique identifiers: sixteen bytes, written as five groups of lower-case hexadecimal
  digits. The reader takes either case, and besides the grouped form also 32 digits without
  hyphens, the grouped form in braces, and the grouped form after `urn:uuid:`.
-/
import LedgerQuery.Text.Hex

namespace LedgerQuery

/-- An identifier of sixteen bytes. -/
structure Uuid where
  bytes : Bytes
  length_eq : bytes.length = 16
  deriving DecidableEq

namespace Uuid

/-- The identifier with the given bytes, if there are sixteen. -/
def ofBytes? (bytes : Bytes) : Option Uuid :=
  if h : bytes.length = 16 then some ⟨bytes, h⟩ else none

instance : Ord Uuid where
  compare a b := compare a.bytes b.bytes

/-- A version 7 identifier: 48 bits of milliseconds since 1970, then 74 bits of the given
    random number around the version and the variant. -/
def timeOrdered (milliseconds random : Nat) : Uuid :=
  let high := ((milliseconds % 1 <<< 48) <<< 4 + 7) <<< 12 + random >>> 62 % 1 <<< 12
  let low := 2 <<< 62 + random % 1 <<< 62
  ⟨(Numeral.places 256 16 (high <<< 64 + low)).map UInt8.ofNat, by simp⟩

/-- The version that an identifier names. -/
def version (id : Uuid) : Nat := (id.bytes.getD 6 0).toNat / 16

/-! ## Text -/

/-- The digits in groups of 8, 4, 4, 4 and 12. -/
def characters (id : Uuid) : List Char :=
  let cs := Hex.digits id.bytes
  cs.take 8 ++ '-' :: (cs.drop 8).take 4 ++ '-' :: (cs.drop 12).take 4 ++
    '-' :: (cs.drop 16).take 4 ++ '-' :: cs.drop 20

/-- The written form. -/
def render (id : Uuid) : String := String.ofList id.characters

/-- The first eight digits. -/
def short (id : Uuid) : String := String.ofList (id.characters.take 8)

/-- The bytes that 32 digits stand for. -/
def ofDigits? (digits : Bytes) : Option Uuid :=
  match Hex.pairs 0 digits with
  | .ok bytes => ofBytes? bytes
  | .error _ => none

/-- The byte of a hyphen. -/
def hyphen : UInt8 := 45

/-- Digits in groups of 8, 4, 4, 4 and 12. -/
def ofGroups? (cs : Bytes) : Option Uuid :=
  if cs.length = 36 ∧ cs[8]? = some hyphen ∧ cs[13]? = some hyphen ∧ cs[18]? = some hyphen ∧
      cs[23]? = some hyphen then
    ofDigits? (cs.take 8 ++ (cs.drop 9).take 4 ++ (cs.drop 14).take 4 ++ (cs.drop 19).take 4 ++
      cs.drop 24)
  else none

/-- The identifier that a text stands for. -/
def read? (text : String) : Option Uuid :=
  let cs := Utf8.encode text
  if cs.length = 32 then ofDigits? cs
  else if cs.length = 36 then ofGroups? cs
  else if cs.length = 38 ∧ cs.head? = some 123 ∧ cs.getLast? = some 125 then
    ofGroups? ((cs.drop 1).take 36)
  else if cs.length = 45 ∧ cs.take 9 = Utf8.encode "urn:uuid:" then ofGroups? (cs.drop 9)
  else none

end Uuid

end LedgerQuery
