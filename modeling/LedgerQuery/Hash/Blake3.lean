/-
  LedgerQuery.Hash.Blake3

  The BLAKE3 hash of a byte string, 32 bytes long. Chunks of 1024 bytes are hashed block by
  block, and their chaining values are joined pairwise in a tree whose left side always holds a
  power of two of chunks.
-/
import LedgerQuery.Text.Utf8

namespace LedgerQuery.Blake3

/-! ## Compression -/

/-- Eight words that carry the state from block to block. -/
abbrev ChainingValue := Vector UInt32 8

/-- Sixteen message words. -/
abbrev Block := Vector UInt32 16

def initial : ChainingValue :=
  #v[0x6A09E667, 0xBB67AE85, 0x3C6EF372, 0xA54FF53A, 0x510E527F, 0x9B05688C, 0x1F83D9AB,
    0x5BE0CD19]

def permutation : Vector (Fin 16) 16 :=
  #v[2, 6, 3, 10, 7, 0, 4, 13, 1, 11, 12, 5, 9, 14, 15, 8]

def rotateRight (word amount : UInt32) : UInt32 :=
  (word >>> amount) ||| (word <<< (32 - amount))

/-- One quarter of a round, on a column or a diagonal of the state. -/
def mix (v : Block) (a b c d : Fin 16) (x y : UInt32) : Block :=
  let v := v.set a (v[a] + v[b] + x)
  let v := v.set d (rotateRight (v[d] ^^^ v[a]) 16)
  let v := v.set c (v[c] + v[d])
  let v := v.set b (rotateRight (v[b] ^^^ v[c]) 12)
  let v := v.set a (v[a] + v[b] + y)
  let v := v.set d (rotateRight (v[d] ^^^ v[a]) 8)
  let v := v.set c (v[c] + v[d])
  v.set b (rotateRight (v[b] ^^^ v[c]) 7)

/-- Columns first, then diagonals. -/
def round (v m : Block) : Block :=
  let v := mix v 0 4 8 12 m[0] m[1]
  let v := mix v 1 5 9 13 m[2] m[3]
  let v := mix v 2 6 10 14 m[4] m[5]
  let v := mix v 3 7 11 15 m[6] m[7]
  let v := mix v 0 5 10 15 m[8] m[9]
  let v := mix v 1 6 11 12 m[10] m[11]
  let v := mix v 2 7 8 13 m[12] m[13]
  mix v 3 4 9 14 m[14] m[15]

/-- Rounds with the message permuted between them. -/
def rounds : Nat → Block → Block → Block
  | 0, v, _ => v
  | n + 1, v, m => rounds n (round v m) (permutation.map fun i => m[i])

/-- What one compression works on. -/
structure Node where
  input : ChainingValue
  block : Block
  counter : UInt64
  length : UInt32
  flags : UInt32

def chunkStart : UInt32 := 1
def chunkEnd : UInt32 := 2
def parent : UInt32 := 4
def root : UInt32 := 8

/-- The chaining value that a node passes on. -/
def Node.compress (n : Node) (extra : UInt32) : ChainingValue :=
  let h := n.input
  let v : Block :=
    #v[h[0], h[1], h[2], h[3], h[4], h[5], h[6], h[7],
      0x6A09E667, 0xBB67AE85, 0x3C6EF372, 0xA54FF53A,
      n.counter.toUInt32, (n.counter >>> 32).toUInt32, n.length, n.flags ||| extra]
  let v := rounds 7 v n.block
  Vector.ofFn fun i : Fin 8 => v[i.val] ^^^ v[i.val + 8]

/-! ## Blocks, chunks and the tree -/

/-- Four bytes as a word, the first least significant; missing bytes are zero. -/
def word (bytes : Bytes) (i : Nat) : UInt32 :=
  let byte (j : Nat) : UInt32 := (bytes.getD (4 * i + j) 0).toUInt32
  byte 0 ||| (byte 1 <<< 8) ||| (byte 2 <<< 16) ||| (byte 3 <<< 24)

def block (bytes : Bytes) : Block :=
  Vector.ofFn fun i : Fin 16 => word bytes i.val

/-- The last node of a chunk, which holds what follows its full blocks. -/
def chunk (counter : UInt64) (h : ChainingValue) (start : UInt32) (bytes : Bytes) : Node :=
  if bytes.length ≤ 64 then
    ⟨h, block bytes, counter, UInt32.ofNat bytes.length, start ||| chunkEnd⟩
  else
    let node : Node := ⟨h, block (bytes.take 64), counter, 64, start⟩
    chunk counter (node.compress 0) 0 (bytes.drop 64)
termination_by bytes.length
decreasing_by simp only [List.length_drop]; omega

/-- The node that joins two chaining values. -/
def join (left right : ChainingValue) : Node :=
  ⟨initial, left ++ right, 0, 64, parent⟩

/-- How many bytes of a longer input than one chunk lie left of the top of its tree. -/
def leftLength (length : Nat) : Nat := 1024 <<< ((length - 1) / 1024).log2

/-- The top node of an input whose first chunk has a given number. -/
def tree (counter : UInt64) (bytes : Bytes) : Node :=
  if bytes.length ≤ 1024 then chunk counter initial chunkStart bytes
  else
    let left := leftLength bytes.length
    -- It always does for more than one chunk; the test is there for the sake of termination.
    if _ : 0 < left ∧ left < bytes.length then
      join ((tree counter (bytes.take left)).compress 0)
        ((tree (counter + UInt64.ofNat (left / 1024)) (bytes.drop left)).compress 0)
    else chunk counter initial chunkStart bytes
termination_by bytes.length
decreasing_by all_goals simp only [List.length_take, List.length_drop]; omega

/-- A word as four bytes, the first least significant. -/
def wordBytes (w : UInt32) : Bytes :=
  [w.toUInt8, (w >>> 8).toUInt8, (w >>> 16).toUInt8, (w >>> 24).toUInt8]

/-- The hash of a byte string. -/
def hash (bytes : Bytes) : Bytes := ((tree 0 bytes).compress root).toList.flatMap wordBytes

theorem length_hash (bytes : Bytes) : (hash bytes).length = 32 := by
  simp [hash, wordBytes, List.length_flatMap, List.map_const']

end LedgerQuery.Blake3
