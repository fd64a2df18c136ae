/-
  LedgerQuery.Proofs.Vault.Routing

  What trackers are sent in a run of a vault in which queries are tracked, transactions are
  offered and streams are let go. The journal of the run says which changes there were, and for
  each stream that is still held how long the journal was when it was opened; the invariant
  `Chronicle.Routed` says that the trackers that are listened to are those of these streams, in
  their order, each with a channel that was sent what the journal has for it since. Main
  statement: `routing_exact`.
-/
import Mathlib.Data.List.Basic
import LedgerQuery.Proofs.Vault.Stream
import LedgerQuery.Proofs.Vault.Told

namespace LedgerQuery

/-! ## Channels that nobody has read -/

namespace Channel

variable {α : Type} {capacity : Nat} {xs : List α}

/-- A channel of which nothing has been read after values have been put in: it holds the latest
    of them, as many as it can, and its receiver has missed the others. -/
def after (capacity : Nat) (xs : List α) : Channel α where
  capacity := capacity
  held := xs.drop (xs.length - capacity)
  missed := xs.length - capacity

theorem ofCapacity_eq_after (n : Nat) : (ofCapacity n : Channel α) = after (powerFrom n) [] := by
  rw [after, List.drop_nil, List.length_nil, Nat.zero_sub]
  rfl

/-- What it holds and what was missed are together what was put in. -/
theorem missed_add_length_after (capacity : Nat) (xs : List α) :
    (after capacity xs).missed + (after capacity xs).held.length = xs.length := by
  show xs.length - capacity + (xs.drop (xs.length - capacity)).length = xs.length
  rw [List.length_drop]
  omega

/-- Putting in one more value. -/
theorem send?_after (hcapacity : 0 < capacity) (xs : List α) (x : α) :
    (after capacity xs).send? x = some (after capacity (xs ++ [x])) := by
  have hheld : (after capacity xs).held.length = xs.length - (xs.length - capacity) :=
    List.length_drop
  have hlength : (xs ++ [x]).length = xs.length + 1 := List.length_append
  unfold send?
  rw [if_pos (show (after capacity xs).attached = true from rfl), hheld]
  by_cases hroom : xs.length < capacity
  · have hmissed : xs.length - capacity = 0 := by omega
    have hmissed' : xs.length + 1 - capacity = 0 := by omega
    have hlt : xs.length - (xs.length - capacity) < (after capacity xs).capacity := by
      show xs.length - (xs.length - capacity) < capacity
      omega
    rw [if_pos hlt]
    simp only [after, hlength, hmissed, hmissed', List.drop_zero]
  · -- Full: it drops one more of the values than before, the new one at the end.
    have hge : ¬ xs.length - (xs.length - capacity) < (after capacity xs).capacity := by
      show ¬ xs.length - (xs.length - capacity) < capacity
      omega
    have hmissed : xs.length + 1 - capacity = xs.length - capacity + 1 := by omega
    have hdrop : (xs ++ [x]).drop (xs.length - capacity + 1) =
        (xs.drop (xs.length - capacity)).drop 1 ++ [x] := by
      rw [List.drop_append_of_le_length (by omega), List.drop_drop]
    rw [if_neg hge]
    simp only [after, hlength, hmissed, hdrop]

end Channel

/-! ## Telling trackers -/

namespace Update

variable {u : Update} {k : StoredRecord}

theorem isEmpty_of_mem_consumed (h : k ∈ u.consumed) : u.isEmpty = false := by
  rw [isEmpty, List.isEmpty_eq_false_iff_exists_mem.2 ⟨k, h⟩, Bool.false_and]

theorem isEmpty_of_mem_produced (h : k ∈ u.produced) : u.isEmpty = false := by
  rw [isEmpty, List.isEmpty_eq_false_iff_exists_mem.2 ⟨k, h⟩, Bool.and_false]

end Update

namespace Tracker

variable {t : Tracker} {u : Update}

/-- What a tracker is told of a change: what concerns it, unless that is nothing. -/
def concerns (t : Tracker) (u : Update) : List Update :=
  [t.restrict u].filter fun concern => !concern.isEmpty

/-- A tracker whose channel nobody has read stays, whether or not the change concerns it. -/
theorem notify?_of_after {capacity : Nat} {xs : List Update} (hcapacity : 0 < capacity)
    (h : t.channel = .after capacity xs) :
    t.notify? u = some { t with channel := .after capacity (xs ++ t.concerns u) } := by
  have hattached : t.channel.attached = true := by rw [h]; rfl
  unfold notify? concerns
  dsimp only
  by_cases hnone : (t.restrict u).isEmpty = true
  · rw [if_pos hnone, if_pos hattached, List.filter_cons_of_neg (by simp [hnone]), List.filter_nil,
      List.append_nil, ← h]
  · rw [if_neg hnone, h, Channel.send?_after hcapacity, List.filter_cons_of_pos (by simp [hnone]),
      List.filter_nil]
    rfl

/-- A commit looks only at the trackers that somebody listens to. -/
theorem filterMap_notify? (u : Update) (trackers : List Tracker) :
    trackers.filterMap (notify? u) =
      (trackers.filter heard).filterMap (notify? u) := by
  rw [List.filterMap_filter]
  refine List.filterMap_congr fun t _ => ?_
  split
  · rfl
  · rename_i hunheard
    exact notify?_of_not_heard (Bool.eq_false_iff.2 hunheard)

end Tracker

namespace Vault

variable {v w : Vault} {now : Instant} {t : Transaction} {change : Update} {stream : StreamId}

/-! ## Names of streams -/

/-- The trackers of a reachable vault have names of their own, the earlier the smaller. -/
theorem Reachable.streams_ascend (h : v.Reachable) :
    (v.trackers.map Tracker.stream).Pairwise (· < ·) := by
  induction h with
  | empty config => exact .nil
  | commit _ hsize hcommitted ih => exact ih.sublist (streams_commit hcommitted).1
  | @track v hbefore q ih =>
    obtain ⟨-, -, -, hstreams⟩ := track_snd (v := v) q
    rw [hstreams, List.pairwise_append]
    refine ⟨ih, List.pairwise_singleton _ _, fun a ha b hb => ?_⟩
    obtain ⟨old, hold, rfl⟩ := List.mem_map.1 ha
    rw [List.mem_singleton.1 hb]
    exact hbefore.stream_lt old hold
  | receive _ stream ih =>
    show ((Vault.updateChannel stream _ _).trackers.map Tracker.stream).Pairwise _
    rw [streams_updateChannel]
    exact ih
  | release _ stream ih =>
    show ((Vault.updateChannel stream _ _).trackers.map Tracker.stream).Pairwise _
    rw [streams_updateChannel]
    exact ih

/-- So a tracker is found under its stream. -/
theorem Reachable.channel?_of_mem (h : v.Reachable) {tracker : Tracker}
    (hmem : tracker ∈ v.trackers) : v.channel? tracker.stream = some tracker.channel := by
  have hascend := List.pairwise_map.1 h.streams_ascend
  have hfind : v.trackers.find? (·.stream = tracker.stream) = some tracker := by
    generalize v.trackers = trackers at hmem hascend
    induction trackers with
    | nil => cases hmem
    | cons first rest ih =>
      obtain ⟨hfirst, hrest⟩ := List.pairwise_cons.1 hascend
      rcases List.mem_cons.1 hmem with rfl | hmem
      · rw [List.find?_cons_of_pos (by simp)]
      · have hne := Nat.ne_of_lt (hfirst tracker hmem)
        rw [List.find?_cons_of_neg (by simpa using hne)]
        exact ih hmem hrest
  rw [channel?, hfind]
  rfl

/-! ## Runs -/

/-- A stream that was opened: its name, the criteria it follows, and how many transactions had
    been accepted before. -/
structure Registration where
  stream : StreamId
  criteria : Criteria
  since : Nat

/-- What is sent to a stream that was opened: of each change accepted since then, in order, what
    the criteria admit with the status left aside, unless that is nothing. -/
def Registration.sent (log : List Entry) (r : Registration) : List Update :=
  ((log.drop r.since).map fun e => e.change.restrict r.criteria.admitsIgnoringStatus).filter
    fun u => !u.isEmpty

/-- A vault with its journal and the streams that are held, in the order they were opened. -/
structure Chronicle where
  vault : Vault
  journal : List Entry := []
  held : List Registration := []

/-- What happens to a vault: a query is tracked, a transaction is offered, or a stream is let
    go. -/
inductive Action where
  | track (q : Query)
  | record (now : Instant) (t : Transaction)
  | drop (stream : StreamId)

/-- A transaction has at most as many outputs as an index of a reference can count. -/
def Action.Countable : Action → Prop
  | .record _ t => t.outputs.length ≤ UInt32.size
  | _ => True

instance : DecidablePred Action.Countable
  | .track _ => .isTrue trivial
  | .record _ t => inferInstanceAs (Decidable (t.outputs.length ≤ UInt32.size))
  | .drop _ => .isTrue trivial

namespace Chronicle

/-- One action. A query that fails hands out no stream, and a transaction that is rejected leaves
    the vault as it is. -/
def act (c : Chronicle) : Action → Chronicle
  | .track q =>
    match c.vault.track q with
    | (.ok (_, stream), vault) =>
      { c with vault, held := c.held ++ [⟨stream, q.criteria, c.journal.length⟩] }
    | (.error _, vault) => { c with vault }
  | .record now t =>
    let (vault, journal) := offer (c.vault, c.journal) (now, t)
    { c with vault, journal }
  | .drop stream =>
    { c with
      vault := c.vault.release stream
      held := c.held.filter fun r => decide (r.stream ≠ stream) }

/-- A run from an empty vault. -/
def run (config : VaultConfig) (actions : List Action) : Chronicle :=
  actions.foldl act { vault := { config } }

/-! ## The invariant -/

/-- The tracker of a stream that is held. -/
def tracker (config : VaultConfig) (log : List Entry) (r : Registration) : Tracker :=
  ⟨r.stream, r.criteria, .after (Channel.powerFrom config.channelCapacity.toNat) (r.sent log)⟩

/-- What holds after every run: the trackers that are listened to are those of the streams that
    are held, and have been sent what the journal has for them. -/
structure Routed (config : VaultConfig) (c : Chronicle) : Prop where
  reachable : c.vault.Reachable
  config_eq : c.vault.config = config
  remembers : Remembers c.journal c.vault.store
  opened : ∀ r ∈ c.held, r.since ≤ c.journal.length
  trackers : c.vault.trackers.filter Tracker.heard = c.held.map (tracker config c.journal)

variable {config : VaultConfig} {c : Chronicle} {log : List Entry} {r : Registration} {e : Entry}

theorem capacity_pos (config : VaultConfig) :
    0 < Channel.powerFrom config.channelCapacity.toNat := by
  have hle := Channel.le_powerFrom config.channelCapacity.toNat
  omega

/-- What a new entry of the journal adds to what a stream is sent. -/
theorem sent_append (h : r.since ≤ log.length) (e : Entry) :
    r.sent (log ++ [e]) = r.sent log ++ (tracker config log r).concerns e.change := by
  rw [Registration.sent, List.drop_append_of_le_length h, List.map_append, List.filter_append]
  rfl

/-- Of a change, each stream that is held is told what concerns it. -/
theorem notify?_tracker (h : r.since ≤ log.length) (e : Entry) :
    (tracker config log r).notify? e.change = some (tracker config (log ++ [e]) r) := by
  rw [Tracker.notify?_of_after (capacity_pos config) rfl, ← sent_append h]
  rfl

/-- After an accepted commit the trackers are those of the streams that are held. -/
theorem Routed.trackers_of_commit (h : c.Routed config)
    (hcommit : c.vault.commit now t = .ok (change, w)) :
    w.trackers = c.held.map (tracker config (c.journal ++ [⟨t, change⟩])) := by
  obtain ⟨-, hw⟩ := commit_eq_ok hcommit
  have htold : w.trackers = c.vault.trackers.filterMap (Tracker.notify? change) := by rw [hw]
  rw [htold, Tracker.filterMap_notify?, h.trackers, List.filterMap_map, ← List.filterMap_eq_map']
  exact List.filterMap_congr fun r hr => notify?_tracker (h.opened r hr) ⟨t, change⟩

/-! ## Each action keeps it -/

theorem Routed.empty (config : VaultConfig) : Routed config { vault := { config } } where
  reachable := .empty config
  config_eq := rfl
  remembers := .empty
  opened _ hr := nomatch hr
  trackers := rfl

theorem Routed.record (h : c.Routed config) (hsize : t.outputs.length ≤ UInt32.size) :
    (c.act (.record now t)).Routed config := by
  cases hcommit : c.vault.commit now t with
  | error e =>
    have hsame : c.act (.record now t) = c := by
      simp only [act, offer, hcommit]
    rw [hsame]
    exact h
  | ok result =>
    obtain ⟨change, w⟩ := result
    have hact : c.act (.record now t) =
        { c with vault := w, journal := c.journal ++ [⟨t, change⟩] } := by
      simp only [act, offer, hcommit]
    obtain ⟨hstore, hw⟩ := commit_eq_ok hcommit
    have hindexed := h.reachable.sound.indexed
    rw [hact]
    refine ⟨h.reachable.commit hsize hcommit, ?_, ?_, fun r hr => ?_, ?_⟩
    · show w.config = config
      rw [hw, ← h.config_eq]
    · exact h.remembers.commit hindexed (hindexed.committed hstore)
    · have hopened := h.opened r hr
      show r.since ≤ (c.journal ++ [_]).length
      rw [List.length_append]
      omega
    · -- Those that were not listened to are gone.
      show w.trackers.filter Tracker.heard = _
      rw [h.trackers_of_commit hcommit, List.filter_eq_self]
      intro tracker htracker
      obtain ⟨r, -, rfl⟩ := List.mem_map.1 htracker
      rfl

/-- Letting go of a stream takes its tracker out of those that are listened to. -/
theorem heard_release (v : Vault) (stream : StreamId) :
    (v.release stream).trackers.filter Tracker.heard =
      (v.trackers.filter Tracker.heard).filter fun t => decide (t.stream ≠ stream) := by
  show (v.trackers.map _).filter _ = _
  generalize v.trackers = trackers
  induction trackers with
  | nil => rfl
  | cons first rest ih =>
    rw [List.map_cons]
    by_cases hname : first.stream = stream
    · have hgone : ({ first with channel := first.channel.detach } : Tracker).heard = false := rfl
      rw [if_pos hname, List.filter_cons_of_neg (by simp [hgone]), ih]
      cases hheard : first.heard
      · rw [List.filter_cons_of_neg (by simp [hheard])]
      · rw [List.filter_cons_of_pos hheard, List.filter_cons_of_neg (by simp [hname])]
    · rw [if_neg hname]
      cases hheard : first.heard
      · rw [List.filter_cons_of_neg (by simp [hheard]), List.filter_cons_of_neg (by simp [hheard]),
          ih]
      · rw [List.filter_cons_of_pos hheard, List.filter_cons_of_pos hheard,
          List.filter_cons_of_pos (by simp [hname]), ih]

theorem Routed.drop (h : c.Routed config) (stream : StreamId) :
    (c.act (.drop stream)).Routed config where
  reachable := h.reachable.release stream
  config_eq := h.config_eq
  remembers := h.remembers
  opened r hr := h.opened r (List.mem_filter.1 hr).1
  trackers := by
    show (c.vault.release stream).trackers.filter _ = (c.held.filter _).map _
    rw [heard_release, h.trackers, List.filter_map]
    rfl

/-- A new tracker is listened to. -/
theorem heard_subscribe (v : Vault) (criteria : Criteria) :
    (v.subscribe criteria).2.trackers.filter Tracker.heard = v.trackers.filter Tracker.heard ++
      [⟨v.nextStream, criteria, .ofCapacity v.config.channelCapacity.toNat⟩] := by
  rw [subscribe, List.filter_append]
  rfl

/-- A query that fails adds none, since its stream is let go again. -/
theorem heard_release_subscribe (hv : v.Named) (criteria : Criteria) :
    ((v.subscribe criteria).2.release v.nextStream).trackers.filter Tracker.heard =
      v.trackers.filter Tracker.heard := by
  rw [trackers_release_subscribe hv, List.filter_append]
  exact List.append_nil _

theorem Routed.track (h : c.Routed config) (q : Query) : (c.act (.track q)).Routed config := by
  obtain ⟨hstore, hconfig, -, -⟩ := track_snd (v := c.vault) q
  have hreachable := h.reachable.track q
  rcases track_cases c.vault q with ⟨page, htrack⟩ | ⟨e, htrack⟩
  · rw [htrack] at hreachable hstore hconfig
    have hact : c.act (.track q) = { c with
        vault := (c.vault.subscribe q.criteria).2
        held := c.held ++ [⟨c.vault.nextStream, q.criteria, c.journal.length⟩] } := by
      simp only [act, htrack]
    rw [hact]
    refine ⟨hreachable, hconfig.trans h.config_eq, hstore ▸ h.remembers, fun r hr => ?_, ?_⟩
    · rcases List.mem_append.1 hr with hold | hnew
      · exact h.opened r hold
      · exact Nat.le_of_eq (congrArg Registration.since (List.mem_singleton.1 hnew))
    · -- The journal has nothing for the new stream yet.
      have hnothing : Registration.sent c.journal
          ⟨c.vault.nextStream, q.criteria, c.journal.length⟩ = [] := by
        rw [Registration.sent, List.drop_length, List.map_nil, List.filter_nil]
      show (c.vault.subscribe q.criteria).2.trackers.filter _ = (c.held ++ [_]).map _
      rw [heard_subscribe, h.trackers, List.map_append, List.map_singleton, tracker, hnothing,
        Channel.ofCapacity_eq_after, h.config_eq]
  · rw [htrack] at hreachable hstore hconfig
    have hact : c.act (.track q) =
        { c with vault := (c.vault.subscribe q.criteria).2.release c.vault.nextStream } := by
      simp only [act, htrack]
    rw [hact]
    exact ⟨hreachable, hconfig.trans h.config_eq, hstore ▸ h.remembers, h.opened,
      (heard_release_subscribe h.reachable.named q.criteria).trans h.trackers⟩

/-- Every run. -/
theorem routed_run {actions : List Action} (hsize : ∀ a ∈ actions, a.Countable) :
    (run config actions).Routed config := by
  suffices hrun : ∀ c : Chronicle, c.Routed config → (actions.foldl act c).Routed config from
    hrun _ (.empty config)
  induction actions with
  | nil => exact fun _ h => h
  | cons a rest ih =>
    intro c h
    refine ih (fun b hb => hsize b (List.mem_cons_of_mem _ hb)) _ ?_
    cases a with
    | track q => exact h.track q
    | record now t => exact h.record (hsize _ List.mem_cons_self)
    | drop stream => exact h.drop stream

/-! ## What is sent -/

/-- A change that holds something is sent exactly if the journal has it for the stream, since only
    what is empty is left out. -/
theorem exists_sent_iff {test : Update → Prop} (htest : ∀ u, test u → u.isEmpty = false) :
    (∃ u ∈ r.sent log, test u) ↔
      ∃ e ∈ log.drop r.since, test (e.change.restrict r.criteria.admitsIgnoringStatus) := by
  constructor
  · rintro ⟨u, hu, hholds⟩
    obtain ⟨e, he, rfl⟩ := List.mem_map.1 (List.mem_filter.1 hu).1
    exact ⟨e, he, hholds⟩
  · rintro ⟨e, he, hholds⟩
    refine ⟨_, List.mem_filter.2 ⟨List.mem_map_of_mem he, ?_⟩, hholds⟩
    rw [htest _ hholds]
    rfl

/-- Of a record produced since a stream was opened, the consumption is sent exactly if it is
    consumed and the production was sent. -/
theorem Routed.consumed_sent_iff (h : c.Routed config) {k : StoredRecord}
    (he : e ∈ c.journal.drop r.since) (hk : k ∈ e.change.produced) :
    (∃ u ∈ r.sent c.journal, k.reference ∈ u.consumed.map StoredRecord.reference) ↔
      (∃ current ∈ c.vault.store.records,
        current.reference = k.reference ∧ current.status = .consumed) ∧
        ∃ u ∈ r.sent c.journal, k ∈ u.produced := by
  have hconsumes : ∀ u : Update, k.reference ∈ u.consumed.map StoredRecord.reference →
      u.isEmpty = false := by
    intro u hu
    obtain ⟨record, hrecord, -⟩ := List.mem_map.1 hu
    exact Update.isEmpty_of_mem_consumed hrecord
  rw [exists_sent_iff hconsumes, exists_sent_iff fun u => Update.isEmpty_of_mem_produced]
  exact h.remembers.consumed_iff h.reachable.sound.indexed he hk

/-- Routing loses, invents and reorders nothing, in every run that tracks queries, offers
    transactions and lets go of streams. The channel of a stream that is held has been sent the
    changes accepted since it was opened, in order, each restricted to the records that the
    criteria admit with the status left aside, and those of which nothing is left are not sent:
    what it holds and what it has missed together are these, and it has missed none unless they
    are more than the capacity that is configured. So a record produced since then is in a list of
    consumed records that was sent exactly if it is consumed and its production was sent. After
    another accepted transaction the trackers of the vault are those of the streams that are held,
    in the order they were opened; one that is rejected changes nothing. -/
theorem routing_exact (config : VaultConfig) (actions : List Action)
    (hsize : ∀ a ∈ actions, a.Countable) :
    let c := run config actions
    (∀ r ∈ c.held,
      let changes := (c.journal.drop r.since).map fun e =>
        e.change.restrict r.criteria.admitsIgnoringStatus
      let sent := changes.filter fun u => !u.isEmpty
      (∃ channel, c.vault.channel? r.stream = some channel ∧
        channel.missed + channel.held.length = sent.length ∧
        channel.held = sent.drop channel.missed ∧
        (sent.length ≤ max config.channelCapacity.toNat 1 → channel.missed = 0)) ∧
      ∀ e ∈ c.journal.drop r.since, ∀ k ∈ e.change.produced,
        (∃ u ∈ sent, k.reference ∈ u.consumed.map StoredRecord.reference) ↔
          (∃ current ∈ c.vault.store.records,
            current.reference = k.reference ∧ current.status = .consumed) ∧
            ∃ u ∈ sent, k ∈ u.produced) ∧
    (∀ (now : Instant) (t : Transaction) (change : Update) (w : Vault),
      c.vault.commit now t = .ok (change, w) →
        c.act (.record now t) =
          { c with vault := w, journal := c.journal ++ [⟨t, change⟩] } ∧
        w.trackers.map (fun t => (t.stream, t.criteria)) =
          c.held.map fun r => (r.stream, r.criteria)) ∧
    ∀ (now : Instant) (t : Transaction) (e : VaultError),
      c.vault.commit now t = .error e → c.act (.record now t) = c := by
  intro c
  have hrouted : c.Routed config := routed_run hsize
  refine ⟨?_, ?_, ?_⟩
  · intro r hr changes sent
    -- The tracker of a stream that is held is the one that the journal accounts for.
    have hmem : tracker config c.journal r ∈ c.vault.trackers := by
      have hheard := List.mem_map_of_mem (f := tracker config c.journal) hr
      rw [← hrouted.trackers] at hheard
      exact (List.mem_filter.1 hheard).1
    have hfound := hrouted.reachable.channel?_of_mem hmem
    refine ⟨⟨_, hfound, Channel.missed_add_length_after _ sent, rfl, ?_⟩,
      fun e he k hk => hrouted.consumed_sent_iff he hk⟩
    intro hfits
    have hle := Channel.le_powerFrom config.channelCapacity.toNat
    show sent.length - Channel.powerFrom config.channelCapacity.toNat = 0
    omega
  · intro now t change w hcommit
    refine ⟨by simp only [act, offer, hcommit], ?_⟩
    rw [hrouted.trackers_of_commit hcommit, List.map_map]
    rfl
  · intro now t e hcommit
    simp only [act, offer, hcommit]

/-- Streams of items, of all records and again of all records are opened. An item and a note are
    opened together, once more in vain, and each is passed on. The last stream is let go. -/
def itemsAmongAll : List Action :=
  let types (own : String) : List RecordType := [⟨own⟩, .any]
  let output (own : String) (back : Option RecordRef) : Output := ⟨back, types own, .null, [], none⟩
  let opening : Transaction := ⟨.ofNumber 1, [], [output "test.Item" none, output "test.Note" none]⟩
  let passing (n : Nat) (own : String) (back : RecordRef) : Transaction :=
    ⟨.ofNumber n, [back], [output own (some back)]⟩
  let streamOf (type : RecordType) : Action := .track (Builder.forType type .all).build
  [streamOf ⟨"test.Item"⟩, streamOf .any, streamOf .any, .record .epoch opening,
    .record .epoch opening, .record .epoch (passing 2 "test.Note" ⟨.ofNumber 1, 1⟩),
    .record .epoch (passing 3 "test.Item" ⟨.ofNumber 1, 0⟩), .drop 2]

/-- The stream of items is sent the production of the item alone and its consumption, and nothing
    of the change that passes on the note; the stream of all records is sent every change as it is.
    A further transaction leaves the vault with the trackers of these two. -/
theorem routing_exact_itemsAmongAll :
    let c := run {} itemsAmongAll
    let told (channel : Channel Update) : List (List RecordRef × List RecordRef) :=
      channel.held.map fun u => (u.consumed.map (·.reference), u.produced.map (·.reference))
    let item : RecordRef := ⟨.ofNumber 1, 0⟩
    let note : RecordRef := ⟨.ofNumber 1, 1⟩
    (∀ a ∈ itemsAmongAll, a.Countable) ∧
      (∃ channel, c.vault.channel? 0 = some channel ∧ channel.missed = 0 ∧
        told channel = [([], [item]), ([item], [⟨.ofNumber 3, 0⟩])]) ∧
      (∃ channel, c.vault.channel? 1 = some channel ∧ channel.missed = 0 ∧
        told channel = [([], [item, note]), ([note], [⟨.ofNumber 2, 0⟩]),
          ([item], [⟨.ofNumber 3, 0⟩])]) ∧
      ∀ (t : Transaction) (change : Update) (w : Vault),
        c.vault.commit .epoch t = .ok (change, w) → w.trackers.map Tracker.stream = [0, 1] := by
  intro c told item note
  have hsize : ∀ a ∈ itemsAmongAll, a.Countable := by decide
  let items : Registration := ⟨0, (Builder.forType ⟨"test.Item"⟩ .all).criteria, 0⟩
  let everything : Registration := ⟨1, (Builder.forType .any .all).criteria, 0⟩
  have hheld : c.held = [items, everything] := rfl
  obtain ⟨hsent, hcommits, -⟩ := routing_exact {} itemsAmongAll hsize
  obtain ⟨⟨channel, hchannel, -, hqueue, hnone⟩, -⟩ := hsent items (hheld ▸ List.mem_cons_self)
  obtain ⟨⟨channel', hchannel', -, hqueue', hnone'⟩, -⟩ :=
    hsent everything (hheld ▸ List.mem_cons_of_mem _ List.mem_cons_self)
  have hmissed : channel.missed = 0 := hnone (by decide +kernel)
  have hmissed' : channel'.missed = 0 := hnone' (by decide +kernel)
  rw [hmissed, List.drop_zero] at hqueue
  rw [hmissed', List.drop_zero] at hqueue'
  refine ⟨hsize, ⟨channel, hchannel, hmissed, ?_⟩, ⟨channel', hchannel', hmissed', ?_⟩,
    fun t change w hcommit => ?_⟩
  · dsimp only [told]
    rw [hqueue]
    decide +kernel
  · dsimp only [told]
    rw [hqueue']
    decide +kernel
  · obtain ⟨-, htrackers⟩ := hcommits .epoch t change w hcommit
    have hstreams := congrArg (List.map Prod.fst) htrackers
    rw [List.map_map, List.map_map] at hstreams
    exact hstreams

end Chronicle

end Vault

end LedgerQuery
