/-
  LedgerQuery.Wire.Message

  The messages between a client and the node that serves it. A request is for a page or for a
  subscription; the answer to either may be an error, with a code and its wording.
-/
import LedgerQuery.Vault.Error
import LedgerQuery.Wire.Query

namespace LedgerQuery

open Binary

/-- A message. -/
inductive Message where
  | queryRequest (query : Query)
  | queryResponse (page : Page StoredRecord)
  | subscribeRequest (query : Query)
  | subscribeAck (page : Page StoredRecord) (feed : UInt64)
  | error (code : UInt32) (message : String)

namespace Message

/-- The version of the protocol. -/
def protocolVersion : UInt32 := 1

/-- The byte that marks frames of a kind of messages. -/
def tag : Message → UInt8
  | .queryRequest _ => 1
  | .queryResponse _ => 2
  | .subscribeRequest _ => 3
  | .subscribeAck _ _ => 4
  | .error _ _ => 255

/-- The name of a kind of messages. -/
def name : Message → String
  | .queryRequest _ => "QueryRequest"
  | .queryResponse _ => "QueryResponse"
  | .subscribeRequest _ => "SubscribeRequest"
  | .subscribeAck _ _ => "SubscribeAck"
  | .error _ _ => "Error"

/-! ## Error codes -/

/-- The request cannot be answered as it is. -/
def badRequest : UInt32 := 400

/-- Something that the request names is not there. -/
def notFound : UInt32 := 404

/-- The request contradicts what is recorded. -/
def conflict : UInt32 := 409

/-- The node failed. -/
def internalError : UInt32 := 500

/-- The code of a vault's refusal. -/
def errorCode : VaultError → UInt32
  | .pageTooLarge .. | .record _ => badRequest
  | .recordNotFound _ => notFound
  | .alreadyConsumed _ | .duplicateTransaction _ | .chainViolation .. => conflict
  | .lockPoisoned | .config _ => internalError

/-- The message that tells of a vault's refusal. -/
def ofVaultError (e : VaultError) : Message := .error (errorCode e) e.message

/-! ## Forms -/

/-- The value of one field of a case. -/
def field? {α : Type} [JsonForm α] (name : String) (held : Json) : Option α :=
  required? (held.get? name)

instance : JsonForm Message where
  toJson
    | .queryRequest query => .holding "QueryRequest" (.ofFields [("spec", toJson query)])
    | .queryResponse page => .holding "QueryResponse" (.ofFields [("page", toJson page)])
    | .subscribeRequest query => .holding "SubscribeRequest" (.ofFields [("spec", toJson query)])
    | .subscribeAck page feed =>
      .holding "SubscribeAck" (.ofFields [("page", toJson page), ("feed_id", toJson feed)])
    | .error code message =>
      .holding "Error" (.ofFields [("code", toJson code), ("message", toJson message)])
  ofJson? j := do
    match ← j.case? with
    | ("QueryRequest", some held) => return .queryRequest (← field? "spec" held)
    | ("QueryResponse", some held) => return .queryResponse (← field? "page" held)
    | ("SubscribeRequest", some held) => return .subscribeRequest (← field? "spec" held)
    | ("SubscribeAck", some held) =>
      return .subscribeAck (← field? "page" held) (← field? "feed_id" held)
    | ("Error", some held) => return .error (← field? "code" held) (← field? "message" held)
    | _ => none

instance : BinaryForm Message where
  write
    | .queryRequest query => writeCase 0 ++ write query
    | .queryResponse page => writeCase 1 ++ write page
    | .subscribeRequest query => writeCase 2 ++ write query
    | .subscribeAck page feed => writeCase 3 ++ write page ++ write feed
    | .error code message => writeCase 4 ++ write code ++ write message
  read := do
    match ← word 4 with
    | 0 => return .queryRequest (← read)
    | 1 => return .queryResponse (← read)
    | 2 => return .subscribeRequest (← read)
    | 3 => return .subscribeAck (← read) (← read)
    | 4 => return .error (← read) (← read)
    | _ => failure

end Message

end LedgerQuery
