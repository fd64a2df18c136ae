/-
  LedgerQuery.Text.Utf8

  Text as its UTF-8 bytes. Main statement: the bytes of a text read back as that text, so a text
  that travels as bytes arrives unchanged.
-/

namespace LedgerQuery

/-- A string of bytes, as it lies on the wire. -/
abbrev Bytes := List UInt8

namespace Utf8

/-- The UTF-8 bytes of a text. -/
def encode (text : String) : Bytes := text.toUTF8.data.toList

/-- The text whose UTF-8 bytes are given, if they are well formed. -/
def decode? (bytes : Bytes) : Option String := String.fromUTF8? ⟨bytes.toArray⟩

@[simp] theorem decode?_encode (text : String) : decode? (encode text) = some text := by
  have hvalid : text.toByteArray.IsValidUTF8 := text.isValidUTF8
  have hsize : (ByteArray.mk (encode text).toArray) = text.toByteArray := by
    simp [encode, String.toUTF8]
  unfold decode?
  rw [hsize]
  simp [String.fromUTF8?, hvalid, String.fromUTF8]

end Utf8

end LedgerQuery
