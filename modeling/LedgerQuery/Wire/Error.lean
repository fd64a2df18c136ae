/-
  LedgerQuery.Wire.Error

  What can go wrong between a client and the vault that answers it. A payload that no message can
  be read from is kept as it is: how that is worded is up to the reader of payloads, and whoever
  renders such a failure is given the reader's words.
-/
import LedgerQuery.Vault.Error

namespace LedgerQuery

/-- What is wrong with a frame. -/
inductive FramingFault where
  | tooShort
  | lengthBelowHeader (length : Nat)
  | incomplete (present needed : Nat)
  | tagMismatch (tag : UInt8) (name : String)
  | other (reason : String)
  deriving DecidableEq, Repr

namespace FramingFault

/-- The wording of a fault. -/
def message : FramingFault → String
  | .tooShort => "too short"
  | .lengthBelowHeader length => "frame length " ++ Numeral.render length ++ " below header"
  | .incomplete present needed =>
    "incomplete: have " ++ Numeral.render present ++ ", need " ++ Numeral.render needed
  | .tagMismatch tag name =>
    "tag " ++ Numeral.render tag.toNat ++ " does not match " ++ name ++ " payload"
  | .other reason => reason

end FramingFault

/-- Why a query or a subscription has no answer. -/
inductive BackendError where
  | vault (e : VaultError)
  | messageTooLarge (size max : Nat)
  | framing (fault : FramingFault)
  | checksumMismatch (expected actual : UInt32)
  | serialization (reason : String)
  | deserialization (payload : Bytes)
  | unexpectedMessage (name : String)
  | lockPoisoned
  | unknownFeed (id : UInt64)
  | remote (code : UInt32) (message : String)
  | config (reason : String)
  deriving DecidableEq

namespace BackendError

/-- The wording of a failure, with the words in which the reader of payloads refuses one. -/
def message (wording : Bytes → String) : BackendError → String
  | .vault e => "vault error: " ++ e.message
  | .messageTooLarge size max =>
    "message too large: " ++ Numeral.render size ++ " bytes (max " ++ Numeral.render max ++ ")"
  | .framing fault => "framing error: " ++ fault.message
  | .checksumMismatch expected actual =>
    "checksum mismatch: expected " ++ Hex.padded 8 expected.toNat ++ ", got " ++
      Hex.padded 8 actual.toNat
  | .serialization reason => "serialization error: " ++ reason
  | .deserialization payload => "deserialization error: " ++ wording payload
  | .unexpectedMessage name => "unexpected " ++ name ++ " message"
  | .lockPoisoned => "feed registry lock poisoned"
  | .unknownFeed id => "unknown update feed: " ++ Numeral.render id.toNat
  | .remote code message =>
    "remote error: code=" ++ Numeral.render code.toNat ++ ", message=" ++ message
  | .config reason => "configuration error: " ++ reason

end BackendError

end LedgerQuery
