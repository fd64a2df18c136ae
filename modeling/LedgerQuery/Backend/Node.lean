/-
  LedgerQuery.Backend.Node

  A node: a vault, and the server that answers framed requests from it. A subscription is
  announced under a feed number, and its stream is kept until the client opens that feed. A
  stream whose announcement cannot be framed is let go.
-/
import LedgerQuery.Backend.Basic
import LedgerQuery.Wire.Frame

namespace LedgerQuery

/-- The server of a node: the words in which its reader of payloads refuses one, how it frames
    messages, the announced feeds that are not opened yet, and the number of the next one. -/
structure Server where
  wording : Bytes → String
  codec : Codec := {}
  feeds : List (UInt64 × StreamId) := []
  nextFeed : UInt64 := 1

/-- A vault with its server. -/
structure Node where
  vault : Vault := {}
  server : Server

namespace Node

/-- Do something to the vault. -/
def onVault {β : Type} (use : Vault → β × Vault) (n : Node) : β × Node :=
  let (found, vault) := use n.vault
  (found, { n with vault })

/-- Let go of a stream. -/
def release (stream : StreamId) (n : Node) : Node := { n with vault := n.vault.release stream }

/-! ## Requests -/

/-- A reply, and the stream that it announces. -/
structure Reply where
  message : Message
  feed : Option (UInt64 × StreamId) := none

/-- Answer a message. -/
def handle (n : Node) : Message → Reply × Node
  | .queryRequest q =>
    match n.vault.query q with
    | .ok page => (⟨.queryResponse page, none⟩, n)
    | .error e => (⟨.ofVaultError e, none⟩, n)
  | .subscribeRequest q =>
    match n.vault.track q with
    | (.ok (page, stream), vault) =>
      let feed := n.server.nextFeed
      (⟨.subscribeAck page feed, some (feed, stream)⟩,
        ⟨vault, { n.server with nextFeed := feed + 1 }⟩)
    | (.error e, vault) => (⟨.ofVaultError e, none⟩, { n with vault })
  | m => (⟨.error Message.badRequest (m.name ++ " is not a request"), none⟩, n)

/-- Answer a framed request, which may be malformed. -/
def answer (n : Node) (request : Bytes) : Reply × Node :=
  match n.server.codec.decode request with
  | .ok (m, _) => n.handle m
  | .error e => (⟨.error Message.badRequest (e.message n.server.wording), none⟩, n)

/-- Keep an announced stream until it is opened. -/
def register (n : Node) (feed : UInt64 × StreamId) : Node :=
  { n with server := { n.server with feeds := n.server.feeds ++ [feed] } }

/-- The framed reply to a framed request. -/
def call (request : Bytes) (n : Node) : Except BackendError Bytes × Node :=
  let (reply, n) := n.answer request
  match n.server.codec.encode reply.message with
  | .ok frame => (.ok frame, reply.feed.elim n n.register)
  | .error e =>
    (n.server.codec.encode (.error Message.internalError (e.message n.server.wording)),
      reply.feed.elim n fun feed => n.release feed.2)

/-- Open an announced feed, which can be done once. -/
def openFeed (feed : UInt64) (n : Node) : Except BackendError StreamId × Node :=
  match n.server.feeds.lookup feed with
  | some stream =>
    (.ok stream,
      { n with server := { n.server with feeds := n.server.feeds.filter (·.1 ≠ feed) } })
  | none => (.error (.unknownFeed feed), n)

end Node

/-- The backend for code that runs on the node itself. -/
def Backend.host : Backend Node where
  query q := .look fun n => (n.vault.query q).mapError .vault
  subscribe q := .mapError .vault (.of (Node.onVault fun v => v.track q))
  release := Node.release
  maxPageSize n := n.vault.config.maxPageSize

end LedgerQuery
