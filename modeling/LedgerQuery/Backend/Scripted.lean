/-
  LedgerQuery.Backend.Scripted

  Backends and transports that answer from a list, and write down what they are asked. They stand
  in for a node where only the questions and the handling of the answers matter.
-/
import LedgerQuery.Backend.Remote

namespace LedgerQuery

/-- The greatest number of changes that a scripted stream holds. -/
def scriptedCapacity : Nat := 64

/-- A closed channel that holds changes. -/
def Channel.ofUpdates (changes : List Update) : Channel Update :=
  let put (c : Channel Update) (u : Update) : Channel Update := (c.send? u).getD c
  (changes.foldl put (.ofCapacity scriptedCapacity)).close

/-! ## Backends -/

/-- The pages that are still to be answered with, the queries so far, and the channel of the only
    stream. -/
structure Script where
  answers : List (Except BackendError (Page StoredRecord))
  asked : List Query := []
  channel : Channel Update := .ofUpdates []

namespace Script

/-- Write a query down and take the next answer; after the last, pages are empty. -/
def next (q : Query) (s : Script) : Except BackendError (Page StoredRecord) × Script :=
  (s.answers.headD (.ok .empty),
    { s with answers := s.answers.drop 1, asked := s.asked ++ [q] })

/-- The backend that answers from the script. -/
def backend (maxPageSize : UInt32) : Backend Script where
  query q := .of (next q)
  subscribe q := do return (← Attempt.of (next q), 0)
  release _ s := { s with channel := s.channel.detach }
  maxPageSize _ := maxPageSize

end Script

/-! ## Transports -/

/-- The replies that are still to be sent, the requests so far, the feeds that can be opened, and
    the channels of those that are. -/
structure ScriptedWire where
  replies : List (Except BackendError Bytes)
  feeds : List (UInt64 × List Update) := []
  requests : List Bytes := []
  channels : List (Channel Update) := []

namespace ScriptedWire

/-- Write a request down and send the next reply; after the last, requests come back. -/
def call (request : Bytes) (w : ScriptedWire) : Except BackendError Bytes × ScriptedWire :=
  (w.replies.headD (.ok request),
    { w with replies := w.replies.drop 1, requests := w.requests ++ [request] })

/-- Open a feed, which can be done once. -/
def openFeed (feed : UInt64) (w : ScriptedWire) : Except BackendError StreamId × ScriptedWire :=
  match w.feeds.lookup feed with
  | none => (.error (.unknownFeed feed), w)
  | some changes =>
    (.ok w.channels.length,
      { w with
        feeds := w.feeds.filter (·.1 ≠ feed)
        channels := w.channels ++ [.ofUpdates changes] })

/-- The transport that replies from the script. -/
def transport : Transport ScriptedWire where
  call request := .of (call request)
  openFeed feed := .of (openFeed feed)
  release stream w := { w with channels := w.channels.modify stream .detach }

end ScriptedWire

end LedgerQuery
