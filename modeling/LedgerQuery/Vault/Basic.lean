/-
  LedgerQuery.Vault.Basic

  A vault: its store, and the trackers that are told of every change that concerns them. A
  tracker lives as long as somebody holds its stream; one whose stream has been let go is
  forgotten at the next commit.
-/
import LedgerQuery.Vault.Channel
import LedgerQuery.Vault.Config
import LedgerQuery.Vault.Store

namespace LedgerQuery

/-! ## Trackers -/

/-- The name of a tracker's stream. -/
abbrev StreamId := Nat

/-- A tracker: the criteria that it follows, and the channel that it is told through. -/
structure Tracker where
  stream : StreamId
  criteria : Criteria
  channel : Channel Update

namespace Tracker

/-- What a tracker is told of a change. -/
def restrict (t : Tracker) (u : Update) : Update := u.restrict t.criteria.admitsIgnoringStatus

/-- Tell a tracker of a change, unless it does not concern it; none if nobody listens. -/
def notify? (u : Update) (t : Tracker) : Option Tracker :=
  let concern := t.restrict u
  if concern.isEmpty then if t.channel.attached then some t else none
  else (t.channel.send? concern).map fun channel => { t with channel }

end Tracker

/-! ## Vaults -/

/-- A vault: its settings, its records, and its trackers in the order they came. -/
structure Vault where
  config : VaultConfig := {}
  store : Store := .empty
  trackers : List Tracker := []
  nextStream : StreamId := 0

namespace Vault

/-- Commit a transaction at a time and tell the trackers. A rejected one changes nothing. -/
def commit (now : Instant) (v : Vault) (t : Transaction) : Except VaultError (Update × Vault) :=
  match v.store.commit v.config.isRelevant now t with
  | .error e => .error e
  | .ok (change, store) =>
    .ok (change, { v with store, trackers := v.trackers.filterMap (Tracker.notify? change) })

/-- The page that a query asks for. -/
def query (v : Vault) (q : Query) : Except VaultError (Page StoredRecord) :=
  if v.config.maxPageSize < q.paging.size then
    .error (.pageTooLarge q.paging.size v.config.maxPageSize)
  else .ok (v.store.page q)

/-! ## Streams -/

/-- Register a tracker. Capacities of more than half the range of a word, for which there is no
    channel, are left out: here they have one like the others. -/
def subscribe (v : Vault) (criteria : Criteria) : StreamId × Vault :=
  let tracker := ⟨v.nextStream, criteria, .ofCapacity v.config.channelCapacity.toNat⟩
  (v.nextStream, { v with trackers := v.trackers ++ [tracker], nextStream := v.nextStream + 1 })

/-- Change the channel of a stream. -/
def updateChannel (stream : StreamId) (change : Channel Update → Channel Update) (v : Vault) :
    Vault :=
  { v with
    trackers := v.trackers.map fun t =>
      if t.stream = stream then { t with channel := change t.channel } else t }

/-- The channel of a stream. -/
def channel? (v : Vault) (stream : StreamId) : Option (Channel Update) :=
  (v.trackers.find? fun t => t.stream = stream).map Tracker.channel

/-- Let go of a stream. -/
def release (stream : StreamId) (v : Vault) : Vault := v.updateChannel stream .detach

/-- A page and a stream of the later changes that concern the query's criteria. The stream is
    opened before the page is looked at, so that no commit falls between; it is let go again if
    the query fails. -/
def track (v : Vault) (q : Query) : Except VaultError (Page StoredRecord × StreamId) × Vault :=
  -- The vault with the stream is handed back in both cases; a failure lets go of it.
  let (stream, v) := v.subscribe q.criteria
  match v.query q with
  | .ok page => (.ok (page, stream), v)
  | .error e => (.error e, v.release stream)

/-- Do something with the channel of a stream; without that stream, with a closed one. -/
def withChannel {β : Type} (stream : StreamId) (use : Channel Update → β × Channel Update)
    (v : Vault) : β × Vault :=
  let channel := (v.channel? stream).getD (Channel.ofCapacity 1).close
  let (found, channel) := use channel
  (found, v.updateChannel stream fun _ => channel)

/-- Take the next thing out of a stream. -/
def receive (stream : StreamId) (v : Vault) : Reading Update × Vault :=
  v.withChannel stream Channel.receive

/-- Shut the vault down: the streams get no more changes, and keep those they hold. -/
def close (v : Vault) : Vault :=
  { v with trackers := v.trackers.map fun t => { t with channel := t.channel.close } }

end Vault

end LedgerQuery
