/-
  LedgerQuery.Record.Reference

  Transactions are named by a 32-byte hash of their content, record versions by the transaction
  that produced them and their place among its outputs. A reference is written `<hex>:<index>`,
  and that text is also how it appears inside record payloads.
-/
import LedgerQuery.Hash.Blake3
import LedgerQuery.Json.Form
import LedgerQuery.Order
import LedgerQuery.Record.Error

namespace LedgerQuery

open Std

/-! ## Transactions -/

/-- The content hash of a transaction. -/
structure TransactionId where
  bytes : Bytes
  length_eq : bytes.length = 32
  deriving DecidableEq

namespace TransactionId

instance : Ord TransactionId := ⟨compareOn bytes⟩

instance : TransOrd TransactionId := inferInstanceAs (TransCmp (compareOn bytes))

instance : LawfulEqOrd TransactionId :=
  lawfulEqCmp_compareOn bytes fun a b h => by cases a; cases b; cases h; rfl

/-- What is hashed before a transaction's content. -/
def domain : String := "lql-transaction-v1:"

/-- The identifier of the transaction with the given content. -/
def ofContent (content : Bytes) : TransactionId :=
  ⟨Blake3.hash (Utf8.encode domain ++ content), Blake3.length_hash _⟩

/-- The identifier whose bytes spell a number, for transactions that have no content yet. -/
def ofNumber (n : Nat) : TransactionId :=
  ⟨(Numeral.places 256 32 n).map UInt8.ofNat, by simp⟩

/-- The digits of all bytes. -/
def render (id : TransactionId) : String := Hex.encode id.bytes

/-- The digits of the first four bytes. -/
def short (id : TransactionId) : String := Hex.encode (id.bytes.take 4)

/-- The form for traces. -/
def trace (id : TransactionId) : String := "TransactionId(" ++ id.short ++ ")"

/-- The identifier that 64 digits stand for. -/
def read (text : String) : Except RecordError TransactionId :=
  match Hex.decode text with
  | .error fault => .error (.invalidHex fault)
  | .ok bytes =>
    if h : bytes.length = 32 then .ok ⟨bytes, h⟩
    else .error (.invalidLength 32 bytes.length)

instance : JsonForm TransactionId :=
  ⟨fun id => .text id.render, fun j => j.text?.bind fun text => (read text).toOption⟩

end TransactionId

/-! ## Record versions -/

/-- One output of a transaction. -/
structure RecordRef where
  transaction : TransactionId
  index : UInt32
  deriving DecidableEq

namespace RecordRef

instance : Ord RecordRef := ⟨compareLex (compareOn transaction) (compareOn index)⟩

instance : TransOrd RecordRef :=
  inferInstanceAs (TransCmp (compareLex (compareOn transaction) (compareOn index)))

instance : LawfulEqOrd RecordRef :=
  lawfulEqCmp_compareLex transaction index fun a b h i => by cases a; cases b; cases h; cases i; rfl

/-- The written form. -/
def render (r : RecordRef) : String :=
  r.transaction.render ++ ":" ++ Numeral.render r.index.toNat

/-- The form with a short transaction. -/
def short (r : RecordRef) : String :=
  r.transaction.short ++ ":" ++ Numeral.render r.index.toNat

/-- The form for traces. -/
def trace (r : RecordRef) : String := "RecordRef(" ++ r.short ++ ")"

/-- The parts of a text before and after its last colon. -/
def splitLast? (text : String) : Option (String × String) :=
  let reversed := text.toList.reverse
  let after := reversed.takeWhile (· ≠ ':')
  match reversed.drop after.length with
  | _ :: before => some (String.ofList before.reverse, String.ofList after.reverse)
  | [] => none

/-- The reference that a text stands for. The index is looked at before the transaction. -/
def read (text : String) : Except RecordError RecordRef :=
  match splitLast? text with
  | none => .error (.malformedReference text)
  | some (transaction, index) =>
    match Numeral.word32? index.toList with
    | none => .error (.malformedReference text)
    | some index => (TransactionId.read transaction).map fun id => ⟨id, index⟩

instance : JsonForm RecordRef :=
  ⟨fun r => .text r.render, fun j => j.text?.bind fun text => (read text).toOption⟩

end RecordRef

end LedgerQuery
