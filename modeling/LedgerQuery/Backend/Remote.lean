/-
  LedgerQuery.Backend.Remote

  The backend for clients that reach a vault through frames: a request goes out, one reply comes
  back, and the stream of a subscription is opened by the feed number in the reply.
-/
import LedgerQuery.Backend.Node
import LedgerQuery.Toml.Settings

namespace LedgerQuery

/-! ## Settings -/

/-- The settings of a client: the greatest payload, whether checksums are looked at, and the page
    size for going through all results. -/
structure RemoteConfig where
  maxMessageSize : UInt64 := 16777216
  verifyChecksums : Bool := true
  pageSize : UInt32 := PageSpec.defaultSize
  deriving DecidableEq

namespace RemoteConfig

def codec (c : RemoteConfig) : Codec := ⟨c.maxMessageSize, c.verifyChecksums⟩

instance : JsonForm RemoteConfig where
  toJson c := .ofFields [("max_message_size", toJson c.maxMessageSize),
    ("verify_checksums", toJson c.verifyChecksums), ("page_size", toJson c.pageSize)]
  ofJson? j := do
    return {
      maxMessageSize := ← setting? "max_message_size" 16777216 j
      verifyChecksums := ← setting? "verify_checksums" true j
      pageSize := ← setting? "page_size" PageSpec.defaultSize j }

/-- The settings in a TOML document, with the words in which its reader refuses one. -/
def ofToml (wording : String → String) (source : String) : Except BackendError RemoteConfig :=
  match Toml.settings? RemoteConfig source with
  | some c => .ok c
  | none => .error (.config (wording source))

end RemoteConfig

/-! ## Transport -/

/-- How frames reach a server in a state `σ`. -/
structure Transport (σ : Type) where
  /-- Send a framed request and wait for the framed reply. -/
  call : Bytes → Attempt σ BackendError Bytes
  /-- Open an announced feed. -/
  openFeed : UInt64 → Attempt σ BackendError StreamId
  /-- Let go of a stream. -/
  release : StreamId → σ → σ

/-- The transport to the server of the node itself. -/
def Transport.loopback : Transport Node where
  call request := .of (Node.call request)
  openFeed feed := .of (Node.openFeed feed)
  release := Node.release

namespace Transport

variable {σ : Type}

/-- Send a request and read the reply; an error that is sent back is a failure here. -/
def exchange (t : Transport σ) (c : Codec) (request : Message) :
    Attempt σ BackendError Message := do
  let frame ← Attempt.known (c.encode request)
  let reply ← t.call frame
  let (response, _) ← Attempt.known (c.decode reply)
  match response with
  | .error code message => throw (.remote code message)
  | response => return response

end Transport

/-- The backend at the other end of a transport. -/
def Backend.remote {σ : Type} (t : Transport σ) (c : RemoteConfig) : Backend σ where
  query q := do
    match ← t.exchange c.codec (.queryRequest q) with
    | .queryResponse page => return page
    | other => throw (.unexpectedMessage other.name)
  subscribe q := do
    match ← t.exchange c.codec (.subscribeRequest q) with
    | .subscribeAck page feed => return (page, ← t.openFeed feed)
    | other => throw (.unexpectedMessage other.name)
  release := t.release
  maxPageSize _ := max c.pageSize 1

end LedgerQuery
