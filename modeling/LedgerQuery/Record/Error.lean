/-
  LedgerQuery.Record.Error

  What can be wrong with identifiers, pages and typed views of records.
-/
import LedgerQuery.Text.Hex

namespace LedgerQuery

/-- A fault in an identifier, a page or a typed view. -/
inductive RecordError where
  | invalidHex (fault : Hex.Fault)
  | invalidLength (expected actual : Nat)
  | malformedReference (text : String)
  | invalidPage (number size : UInt32)
  | notAssignable (expected found : String)
  | unreadableState (reason : String)
  deriving DecidableEq, Repr

namespace RecordError

/-- The wording of a fault. -/
def message : RecordError → String
  | .invalidHex fault => "invalid hex string: " ++ fault.message
  | .invalidLength expected actual =>
    "invalid byte length: expected " ++ Numeral.render expected ++ ", got " ++
      Numeral.render actual
  | .malformedReference text => "malformed record reference: " ++ text
  | .invalidPage number size =>
    "invalid page spec: number=" ++ Numeral.render number.toNat ++ ", size=" ++
      Numeral.render size.toNat
  | .notAssignable expected found =>
    "record of type " ++ found ++ " is not assignable to " ++ expected
  | .unreadableState reason => "serialization error: " ++ reason

end RecordError

end LedgerQuery
