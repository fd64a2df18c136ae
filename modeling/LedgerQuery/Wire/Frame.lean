/-
  LedgerQuery.Wire.Frame

  Frames. A message travels as the length of what follows in four bytes, its tag, the checksum of
  its payload in four bytes, and its payload; the length and the checksum start with the most
  significant byte. A reader looks at the length before anything else, so that it never waits for
  a message that is too large.
-/
import LedgerQuery.Hash.Crc32
import LedgerQuery.Wire.Error
import LedgerQuery.Wire.Message

namespace LedgerQuery

/-- How messages are framed: the greatest payload, and whether checksums are looked at. -/
structure Codec where
  maxMessageSize : UInt64 := 16777216
  verifyChecksums : Bool := true
  deriving DecidableEq

namespace Codec

/-- The bytes of a frame before its payload. -/
def headerLength : Nat := 9

/-- The bytes of a header that the length counts. -/
def countedHeader : Nat := 5

/-- A word, most significant byte first. -/
def bigEndian (n : UInt32) : Bytes := (Binary.littleEndian 4 n.toNat).reverse

/-- The word of four bytes, most significant first. -/
def ofBigEndian (bytes : Bytes) : UInt32 := UInt32.ofNat (Binary.ofLittleEndian bytes.reverse)

/-- The frame around a payload. -/
def frame (tag : UInt8) (payload : Bytes) : Bytes :=
  bigEndian (UInt32.ofNat (payload.length + countedHeader)) ++
    tag :: (bigEndian (Crc32.checksum payload) ++ payload)

/-- The frame of a message. -/
def encode (c : Codec) (m : Message) : Except BackendError Bytes :=
  let payload := Binary.write m
  if c.maxMessageSize.toNat < payload.length then
    .error (.messageTooLarge payload.length c.maxMessageSize.toNat)
  else .ok (frame m.tag payload)

/-- The message that a payload holds; bytes after it are ignored. -/
def decodePayload (tag : UInt8) (payload : Bytes) : Except BackendError Message :=
  match (Binary.read : Reader Message) payload with
  | none => .error (.deserialization payload)
  | some (m, _) =>
    -- The tag stands in front of the payload and, as its variant, in it; the two have to agree.
    if m.tag = tag then .ok m else .error (.framing (.tagMismatch tag m.name))

/-- The first message of a byte string, and how many bytes its frame takes. -/
def decode (c : Codec) (data : Bytes) : Except BackendError (Message × Nat) :=
  if data.length < headerLength then .error (.framing .tooShort)
  else
    let length := (ofBigEndian (data.take 4)).toNat
    let tag := (data.drop 4).headD 0
    let expected := ofBigEndian ((data.drop 5).take 4)
    let size := length - countedHeader
    let total := 4 + length
    -- `size` is cut off at zero by the subtraction, but not looked at before this test.
    if length < countedHeader then .error (.framing (.lengthBelowHeader length))
    else if c.maxMessageSize.toNat < size then
      .error (.messageTooLarge size c.maxMessageSize.toNat)
    else if data.length < total then .error (.framing (.incomplete data.length total))
    else
      let payload := (data.drop headerLength).take size
      let actual := Crc32.checksum payload
      if c.verifyChecksums ∧ actual ≠ expected then
        .error (.checksumMismatch expected actual)
      else (decodePayload tag payload).map fun m => (m, total)

/-- Messages one after the other, with the bytes that each frame takes, up to the end or the
    first that fails; `fuel` bounds their number. -/
def decodeAll (c : Codec) : (fuel : Nat) → Bytes →
    List (Message × Nat) × Option BackendError
  | 0, _ => ([], none)
  | _ + 1, [] => ([], none)
  | fuel + 1, data =>
    match c.decode data with
    | .error e => ([], some e)
    | .ok (m, used) =>
      let (rest, failure) := c.decodeAll fuel (data.drop used)
      ((m, used) :: rest, failure)

/-- All messages of a byte string, and the failure that stops the reader before its end. -/
def decodeStream (c : Codec) (data : Bytes) : List (Message × Nat) × Option BackendError :=
  c.decodeAll data.length data

end Codec

end LedgerQuery
