/-
  LedgerQuery.Hash.Crc32

  The reflected CRC-32 of a byte string, over the polynomial 0xEDB88320, with the register
  inverted before the first byte and after the last.
-/
import LedgerQuery.Text.Utf8

namespace LedgerQuery.Crc32

/-- The shift register. -/
abbrev Register := BitVec 32

def polynomial : Register := 0xEDB88320#32

/-- Shift out one bit; a one takes the polynomial with it. -/
def shift (r : Register) : Register :=
  if r.getLsbD 0 then (r >>> 1) ^^^ polynomial else r >>> 1

/-- Shift out a number of bits. -/
def shifts : Nat → Register → Register
  | 0, r => r
  | n + 1, r => shifts n (shift r)

/-- Take in one byte. -/
def step (r : Register) (b : UInt8) : Register := shifts 8 (r ^^^ b.toBitVec.setWidth 32)

/-- Take in a byte string. -/
def run (r : Register) (bytes : Bytes) : Register := bytes.foldl step r

/-- The checksum of a byte string. -/
def checksum (bytes : Bytes) : UInt32 := ⟨~~~(run (BitVec.allOnes 32) bytes)⟩

end LedgerQuery.Crc32
