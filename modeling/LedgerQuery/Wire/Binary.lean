/-
  LedgerQuery.Wire.Binary

  The binary form of values. Integers have a fixed width and start with the least significant
  byte; texts and lists are preceded by their length in 64 bits, an optional value by a byte that
  says whether it is there, and a case by its number in 32 bits. A record is its fields one after
  the other.
-/
import LedgerQuery.Number.Binary64
import LedgerQuery.Text.Utf8

namespace LedgerQuery

/-- Takes a value from the front of a byte string. -/
abbrev Reader (α : Type) := StateT Bytes Option α

/-- A type with a binary form. -/
class BinaryForm (α : Type) where
  write : α → Bytes
  read : Reader α

namespace Binary

export BinaryForm (write read)

/-! ## Bytes and words -/

/-- The first `n` bytes and those after them, if there are as many. -/
def splitAt? : (n : Nat) → Bytes → Option (Bytes × Bytes)
  | 0, rest => some ([], rest)
  | _ + 1, [] => none
  | n + 1, b :: rest => (splitAt? n rest).map fun (taken, rest) => (b :: taken, rest)

/-- The next `n` bytes. -/
def take (n : Nat) : Reader Bytes := splitAt? n

/-- The lowest bytes of a number, least significant first. -/
def littleEndian : (width : Nat) → Nat → Bytes
  | 0, _ => []
  | width + 1, n => UInt8.ofNat (n % 256) :: littleEndian width (n / 256)

/-- The number with the given bytes, least significant first. -/
def ofLittleEndian : Bytes → Nat
  | [] => 0
  | b :: rest => b.toNat + 256 * ofLittleEndian rest

/-- A number of a fixed width. -/
def word (width : Nat) : Reader Nat := ofLittleEndian <$> take width

instance : BinaryForm UInt8 := ⟨fun n => [n], UInt8.ofNat <$> word 1⟩

instance : BinaryForm UInt32 := ⟨fun n => littleEndian 4 n.toNat, UInt32.ofNat <$> word 4⟩

instance : BinaryForm UInt64 := ⟨fun n => littleEndian 8 n.toNat, UInt64.ofNat <$> word 8⟩

instance : BinaryForm Int64 :=
  ⟨fun n => littleEndian 8 n.toBitVec.toNat, (fun n => ⟨UInt64.ofNat n⟩) <$> word 8⟩

instance : BinaryForm Binary64 := ⟨fun x => write x.bits, Binary64.mk <$> read⟩

instance : BinaryForm Bool where
  write b := [if b then 1 else 0]
  read := do
    match ← word 1 with
    | 0 => return false
    | 1 => return true
    | _ => failure

/-! ## Texts, options and lists -/

/-- A length before what it counts. -/
def writeLength (n : Nat) : Bytes := littleEndian 8 n

instance : BinaryForm String where
  write text :=
    let bytes := Utf8.encode text
    writeLength bytes.length ++ bytes
  read := do
    let bytes ← take (← word 8)
    Utf8.decode? bytes

instance {α : Type} [BinaryForm α] : BinaryForm (Option α) where
  write
    | none => [0]
    | some x => 1 :: write x
  read := do
    match ← word 1 with
    | 0 => return none
    | 1 => return some (← read)
    | _ => failure

/-- A number of values one after the other. -/
def readMany {α : Type} [BinaryForm α] : (count : Nat) → Reader (List α)
  | 0 => return []
  | count + 1 => return (← read) :: (← readMany count)

instance {α : Type} [BinaryForm α] : BinaryForm (List α) where
  write xs := writeLength xs.length ++ xs.flatMap write
  read := do readMany (← word 8)

/-! ## Forms by way of others -/

/-- The form of a type whose values are written as text. -/
@[reducible] def textual {α : Type} (render : α → String) (read? : String → Option α) :
    BinaryForm α where
  write x := write (render x)
  read := do read? (← read)

/-- The number of a case. -/
def writeCase (n : Nat) : Bytes := littleEndian 4 n

/-- The form of a type with finitely many values, each a case of its own. -/
@[reducible] def listed {α : Type} [BEq α] (cases : List α) : BinaryForm α where
  write x := writeCase (cases.idxOf x)
  read := do cases[← word 4]?

end Binary

end LedgerQuery
