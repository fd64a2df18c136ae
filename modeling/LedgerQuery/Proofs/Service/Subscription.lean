/-
  LedgerQuery.Proofs.Service.Subscription

  A subscriber that starts with the snapshot and applies the notifications of its feed has, when
  the feed is empty, the records that a fresh query finds. The invariant `Follower.Mirrors` says
  so at every moment, for what the list becomes when the notifications that lie ahead of the feed
  are applied to it: a commit adds to what lies ahead, and a poll takes its first notification over
  into the list. Main statement: `subscription_mirrors_vault`.
-/
import Mathlib.Data.List.Induction
import LedgerQuery.Backend.Node
import LedgerQuery.Proofs.Service.Feed
import LedgerQuery.Proofs.Service.Replay
import LedgerQuery.Proofs.Store.Page
import LedgerQuery.Proofs.Vault.Stream
import LedgerQuery.Service.Basic

namespace LedgerQuery

variable {α : Type} [RecordState α]

/-! ## Followers -/

/-- A subscriber at a node: its feed and stream, and the list of views that it keeps. -/
structure Follower (α : Type) where
  node : Node
  feed : Feed α
  stream : StreamId
  kept : List (Versioned α)

/-- What happens at a node with a subscriber: a transaction is offered, or the subscriber asks its
    feed for the next notification. -/
inductive Turn where
  | record (now : Instant) (t : Transaction)
  | poll

/-- A transaction has at most as many outputs as an index of a reference can count. -/
def Turn.Countable : Turn → Prop
  | .record _ t => t.outputs.length ≤ UInt32.size
  | .poll => True

namespace Follower

/-- A subscriber starts with the snapshot. -/
def ofSubscription (n : Node) (s : Subscription α) : Follower α := ⟨n, s.feed, s.stream, s.snapshot⟩

/-- Ask for the next notification, and apply it to the list. -/
def poll (f : Follower α) : Except QueryError (Option (Notification α)) × Follower α :=
  let ((answer, feed), node) := f.node.onVault fun v => v.withChannel f.stream fun c =>
    let (answer, feed, c) := f.feed.next c
    ((answer, feed), c)
  let kept := match answer with
    | .ok (some n) => n.applyTo f.kept
    | _ => f.kept
  (answer, { f with node, feed, kept })

/-- One turn. A transaction that is rejected changes nothing. -/
def take (f : Follower α) : Turn → Follower α
  | .record now t =>
    match f.node.vault.commit now t with
    | .ok (_, vault) => { f with node := { f.node with vault } }
    | .error _ => f
  | .poll => f.poll.2

/-- Turns in order. -/
def run (f : Follower α) (turns : List Turn) : Follower α := turns.foldl take f

/-- How many changes the feed is behind. -/
def behind (f : Follower α) : Nat := ((f.node.vault.channel? f.stream).map Channel.behind).getD 0

/-! ## The invariant -/

variable {f : Follower α} {c : Criteria} {capacity : Nat} {turn : Turn} {turns : List Turn}

/-- Criteria admit no record, status aside, that cannot be viewed. -/
def Viewable (α : Type) [RecordState α] (c : Criteria) (s : Store) : Prop :=
  ∀ r ∈ s.records, c.admitsIgnoringStatus r = true → ∃ v : Versioned α, r.view α = .ok v

/-- A follower mirrors the records that criteria admit: its tracker is there and has lost nothing,
    and what lies ahead of the feed turns its list into the views of these records. -/
structure Mirrors (c : Criteria) (capacity : Nat) (f : Follower α) : Prop where
  sound : f.node.vault.store.Sound
  anyStatus : f.feed.status = .all
  tracked : ∃ channel ahead,
    f.node.vault.trackers.find? (·.stream = f.stream) = some ⟨f.stream, c, channel⟩ ∧
    channel.attached = true ∧ channel.missed = 0 ∧ capacity ≤ channel.capacity ∧
    f.feed.Ahead channel ahead ∧
    Views (f.node.vault.store.records.filter c.admitsIgnoringStatus)
      (ahead.foldl Notification.applyTo f.kept)

/-! ### Commits -/

theorem take_record_of_error {now : Instant} {t : Transaction} {e : VaultError}
    (h : f.node.vault.commit now t = .error e) : f.take (.record now t) = f := by
  simp only [take, h]

theorem take_record_of_ok {now : Instant} {t : Transaction} {change : Update} {vault : Vault}
    (h : f.node.vault.commit now t = .ok (change, vault)) :
    f.take (.record now t) = { f with node := { f.node with vault } } := by
  simp only [take, h]

/-- A commit keeps the invariant, unless it leaves the feed too far behind. -/
theorem Mirrors.record (h : f.Mirrors c capacity) {now : Instant} {t : Transaction}
    (hsize : t.outputs.length ≤ UInt32.size)
    (hviews : Viewable α c (f.take (.record now t)).node.vault.store)
    (hbehind : (f.take (.record now t)).behind ≤ capacity) :
    (f.take (.record now t)).Mirrors c capacity := by
  cases hcommit : f.node.vault.commit now t with
  | error e =>
    rw [take_record_of_error hcommit]
    exact h
  | ok result =>
    obtain ⟨change, vault⟩ := result
    rw [take_record_of_ok hcommit] at hviews hbehind ⊢
    obtain ⟨hstore, hvault⟩ := Vault.commit_eq_ok hcommit
    obtain ⟨channel, ahead, hfind, hattached, hmissed, hcapacity, hahead, hkept⟩ := h.tracked
    have hcommitted := h.sound.indexed.committed hstore
    obtain ⟨notices, hnotices, hreplay⟩ :=
      exists_replay hcommitted h.sound.indexed hviews hkept
    obtain ⟨d, hnotify, hnothing, hsomething⟩ :=
      Tracker.exists_notify? (t := ⟨f.stream, c, channel⟩) hattached hmissed change
    have hfind' : vault.trackers.find? (·.stream = f.stream) = some ⟨f.stream, c, d⟩ := by
      rw [hvault]
      exact Vault.find?_filterMap_notify? hfind hnotify
    refine ⟨h.sound.commit hsize hstore, h.anyStatus, ?_⟩
    by_cases hempty : (change.restrict c.admitsIgnoringStatus).isEmpty = true
    · -- Nothing concerns the tracker, and nothing is told of it.
      rw [Notification.ofUpdate_of_isEmpty hempty] at hnotices
      cases hnotices
      rw [hnothing hempty] at hfind'
      exact ⟨channel, ahead, hfind', hattached, hmissed, hcapacity, hahead, hreplay⟩
    · -- The feed keeps up, so nothing in the channel has given way to the change.
      have hd : d.behind ≤ channel.capacity := by
        have hchannel : vault.channel? f.stream = some d := by
          rw [Vault.channel?, hfind']
          rfl
        simp only [behind, hchannel, Option.map_some, Option.getD_some] at hbehind
        exact Nat.le_trans hbehind hcapacity
      rw [hsomething hempty hd] at hfind'
      refine ⟨_, ahead ++ notices, hfind', hattached, hmissed, hcapacity, ?_, ?_⟩
      · exact hahead.send (h.anyStatus ▸ hnotices)
      · rw [List.foldl_append]
        exact hreplay

/-! ### Polls -/

/-- A poll reads the feed's channel, which the vault keeps under its stream. -/
theorem poll_eq {channel d : Channel Update} {g : Feed α} {found : Option (Notification α)}
    (hchannel : f.node.vault.channel? f.stream = some channel)
    (hnext : f.feed.next channel = (.ok found, g, d)) :
    f.poll = (.ok found,
      { node := { f.node with vault := f.node.vault.updateChannel f.stream fun _ => d }
        feed := g
        stream := f.stream
        kept := found.elim f.kept fun n => n.applyTo f.kept }) := by
  simp only [Follower.poll, Node.onVault, Vault.withChannel, hchannel, Option.getD_some, hnext]
  cases found <;> rfl

/-- A poll hands over the first notification that lies ahead, and keeps the invariant. -/
theorem Mirrors.poll (h : f.Mirrors c capacity) :
    f.poll.2.Mirrors c capacity ∧ ∃ answer, f.poll.1 = .ok answer ∧
      (answer = none →
        Views (f.node.vault.store.records.filter c.admitsIgnoringStatus) f.kept) := by
  obtain ⟨channel, ahead, hfind, hattached, hmissed, hcapacity, hahead, hkept⟩ := h.tracked
  obtain ⟨g, held, hnext, hstatus, hrest⟩ := hahead.next hmissed
  have hchannel : f.node.vault.channel? f.stream = some channel := by
    rw [Vault.channel?, hfind]
    rfl
  rw [poll_eq hchannel hnext]
  refine ⟨⟨h.sound, hstatus.trans h.anyStatus, { channel with held }, ahead.tail, ?_, hattached,
    hmissed, hcapacity, hrest, ?_⟩, ahead.head?, rfl, fun hnone => ?_⟩
  · exact Vault.find?_updateChannel hfind _
  · -- The first notification has moved from what lies ahead into the list.
    cases ahead with
    | nil => exact hkept
    | cons n rest => exact hkept
  · rw [List.head?_eq_none_iff.1 hnone] at hkept
    exact hkept

/-! ### Runs -/

theorem sound_take (h : f.node.vault.store.Sound) (hturn : turn.Countable) :
    (f.take turn).node.vault.store.Sound := by
  cases turn with
  | poll => exact h
  | record now t =>
    cases hcommit : f.node.vault.commit now t with
    | error e =>
      rw [take_record_of_error hcommit]
      exact h
    | ok result =>
      rw [take_record_of_ok hcommit]
      exact h.commit hturn (Vault.commit_eq_ok hcommit).1

theorem sound_run (h : f.node.vault.store.Sound) (hturns : ∀ turn ∈ turns, turn.Countable) :
    (f.run turns).node.vault.store.Sound := by
  induction turns generalizing f with
  | nil => exact h
  | cons turn rest ih =>
    exact ih (sound_take h (hturns turn List.mem_cons_self))
      fun turn hturn => hturns turn (List.mem_cons_of_mem _ hturn)

/-- No record is lost, so that those before a turn can be viewed if those after it can. -/
theorem viewable_of_take (h : f.node.vault.store.Sound)
    (hviews : Viewable α c (f.take turn).node.vault.store) :
    Viewable α c f.node.vault.store := by
  cases turn with
  | poll => exact hviews
  | record now t =>
    cases hcommit : f.node.vault.commit now t with
    | error e =>
      rw [take_record_of_error hcommit] at hviews
      exact hviews
    | ok result =>
      rw [take_record_of_ok hcommit] at hviews
      have hcommitted := h.indexed.committed (Vault.commit_eq_ok hcommit).1
      intro r hr hadmits
      refine exists_view_mark_iff.1 (hviews (Store.mark now t.inputs r) ?_ ?_)
      · rw [hcommitted.records_eq]
        exact List.mem_append_left _ (List.mem_map_of_mem hr)
      · rw [c.admitsIgnoringStatus_mark]
        exact hadmits

/-- At no moment is the feed behind by more changes than a number. -/
def KeepsUp (capacity : Nat) (f : Follower α) (turns : List Turn) : Prop :=
  ∀ before, before <+: turns → (f.run before).behind ≤ capacity

/-- The invariant holds all the way. -/
theorem Mirrors.run (h : f.Mirrors c capacity) (hturns : ∀ turn ∈ turns, turn.Countable)
    (hkeeps : f.KeepsUp capacity turns) (hviews : Viewable α c (f.run turns).node.vault.store) :
    (f.run turns).Mirrors c capacity := by
  -- On the turns from the end: what can be viewed is known of the last state.
  induction turns using List.reverseRecOn with
  | nil => exact h
  | append_singleton turns turn ih =>
    have hrun : f.run (turns ++ [turn]) = (f.run turns).take turn := List.foldl_concat _ _ _ _
    have hbefore : ∀ turn ∈ turns, turn.Countable := fun turn hturn =>
      hturns turn (List.mem_append_left _ hturn)
    have hbehind := hkeeps _ (List.prefix_refl _)
    rw [hrun] at hviews hbehind ⊢
    have hmirrors := ih hbefore
      (fun before hinitial => hkeeps before (hinitial.trans (List.prefix_append turns [turn])))
      (viewable_of_take (sound_run h.sound hbefore) hviews)
    cases turn with
    | poll => exact hmirrors.poll.1
    | record now t =>
      exact hmirrors.record (hturns _ (List.mem_append_right _ List.mem_cons_self)) hviews hbehind

end Follower

/-! ## Subscriptions -/

variable {n : Node} {q : Query} {views : List (Versioned α)}

/-- An unsorted query whose first page is large enough finds all records that it matches, in the
    order of their slots. -/
theorem Vault.query_of_unsorted {v : Vault} (hunsorted : q.sort.isUnsorted = true)
    (hfirst : q.paging.number = 1)
    (hsize : (v.store.records.filter q.criteria.admits).length ≤ q.paging.size.toNat)
    (hallowed : q.paging.size ≤ v.config.maxPageSize) :
    v.query q = .ok ⟨v.store.records.filter q.criteria.admits,
      UInt64.ofNat (v.store.records.filter q.criteria.admits).length⟩ := by
  rw [← Store.select_unsorted hunsorted] at hsize ⊢
  rw [Vault.query_of_le hallowed, Store.page_of_le hfirst hsize]

/-- If criteria take any status, leaving it aside selects the same records. -/
theorem Criteria.filter_admits {c : Criteria} (h : ∀ f ∈ c.filters, f.status = .all)
    (records : List StoredRecord) :
    records.filter c.admits = records.filter c.admitsIgnoringStatus :=
  List.filter_congr fun _ _ => admits_of_status_all h

/-- A subscription on the node itself starts with the views of what the query finds, and reads a
    new stream. -/
theorem Service.subscribe_on (hunsorted : q.sort.isUnsorted = true) (hfirst : q.paging.number = 1)
    (hsize : (n.vault.store.records.filter q.criteria.admits).length ≤ q.paging.size.toNat)
    (hallowed : q.paging.size ≤ n.vault.config.maxPageSize)
    (hviews : Views (n.vault.store.records.filter q.criteria.admits) views) :
    (Service.subscribe ⟨Backend.host⟩ q).on n =
      (.ok ⟨views, { status := q.criteria.status }, n.vault.nextStream⟩,
        { n with vault := (n.vault.subscribe q.criteria).2 }) := by
  have hquery := Vault.query_of_unsorted (v := (n.vault.subscribe q.criteria).2) hunsorted hfirst
    hsize hallowed
  -- The stream is opened before the query is answered, which makes no difference to the answer.
  have htrack : n.vault.track q = (.ok (⟨n.vault.store.records.filter q.criteria.admits,
      UInt64.ofNat (n.vault.store.records.filter q.criteria.admits).length⟩, n.vault.nextStream),
        (n.vault.subscribe q.criteria).2) := by
    simp only [Vault.track, hquery]
    rfl
  have hbackend : ((Backend.host.subscribe q).mapError QueryError.backend).on n =
      (.ok (⟨n.vault.store.records.filter q.criteria.admits,
        UInt64.ofNat (n.vault.store.records.filter q.criteria.admits).length⟩,
          n.vault.nextStream), { n with vault := (n.vault.subscribe q.criteria).2 }) := by
    simp only [Backend.host, Attempt.on_mapError, Attempt.on_of, Node.onVault, htrack]
    rfl
  rw [Service.subscribe, Attempt.on_bind, hbackend]
  simp only [Page.mapM, mapM_eq_ok_iff.2 hviews, Except.map, Attempt.on_pure]

/-- A new subscriber mirrors what it has subscribed to. -/
theorem Follower.Mirrors.ofSubscription (hn : n.vault.Reachable)
    (hstatus : q.criteria.status = .all)
    (hviews : Views (n.vault.store.records.filter q.criteria.admitsIgnoringStatus) views) :
    (Follower.ofSubscription { n with vault := (n.vault.subscribe q.criteria).2 }
        ⟨views, { status := q.criteria.status }, n.vault.nextStream⟩).Mirrors q.criteria
      (max n.vault.config.channelCapacity.toNat 1) := by
  refine ⟨hn.sound, hstatus, .ofCapacity n.vault.config.channelCapacity.toNat, [],
    Vault.find?_subscribe hn q.criteria, rfl, rfl, Channel.le_powerFrom _, ⟨[], .nil, rfl⟩, hviews⟩

/-- A subscription keeps a faithful view. Queries that a builder of subscriptions leads to, unless
    its steps set the status or the record types, take any status and match records of one type
    only. For such a query, unsorted and with all matching records on its first page, subscribing
    goes through, if these records can be viewed; and whatever transactions are then offered and
    whenever the feed is asked, it never fails, as long as all matching records can be viewed and
    the feed is never further behind than the capacity that is configured. When it has nothing more
    to tell, the list that started with the snapshot holds the views that a fresh query finds. -/
theorem subscription_mirrors_vault (α : Type) [RecordState α] :
    (∀ (σ : Type) (service : Service σ α) (steps : List Builder.Step) (b : Builder),
      Builder.keepScope steps = true → service.subscriptionBuilder.run steps = .ok b →
      (∀ f ∈ b.build.criteria.filters, f.status = .all) ∧
        ∀ r, b.build.criteria.admitsIgnoringStatus r = true →
          r.isAssignableTo (RecordState.recordType α) = true) ∧
    ∀ (n : Node) (q : Query), n.vault.Reachable → (∀ f ∈ q.criteria.filters, f.status = .all) →
      q.sort.isUnsorted = true → q.paging.number = 1 →
      (n.vault.store.records.filter q.criteria.admits).length ≤ q.paging.size.toNat →
      q.paging.size ≤ n.vault.config.maxPageSize →
      Follower.Viewable α q.criteria n.vault.store →
      ∃ (s : Subscription α) (n' : Node), (Service.subscribe ⟨Backend.host⟩ q).on n = (.ok s, n') ∧
        ∀ turns : List Turn,
          let start := Follower.ofSubscription n' s
          let f := start.run turns
          (∀ turn ∈ turns, turn.Countable) →
          start.KeepsUp (max n.vault.config.channelCapacity.toNat 1) turns →
          Follower.Viewable α q.criteria f.node.vault.store →
          ∃ answer, f.poll.1 = .ok answer ∧
            (answer = none → ∀ paging : PageSpec, paging.number = 1 →
              (f.node.vault.store.records.filter q.criteria.admits).length ≤ paging.size.toNat →
              paging.size ≤ f.node.vault.config.maxPageSize →
              (ResultSequence.page ⟨Backend.host, ⟨q.criteria, paging, .unsorted⟩⟩).on f.node =
                (.ok ⟨f.kept, UInt64.ofNat f.kept.length⟩, f.node)) := by
  refine ⟨fun σ service steps b hsteps hrun => ?_, fun n q hn hstatus hunsorted hfirst hsize
    hallowed hviewable => ?_⟩
  · have hscoped := Builder.scoped_run hsteps hrun
    exact ⟨fun f hf => (hscoped.filters f hf).1,
      fun r hr => hscoped.keepsTo.isAssignableTo hr⟩
  · obtain ⟨views, hviews⟩ := exists_views (α := α) fun r hr =>
      hviewable r (List.mem_filter.1 hr).1 (List.mem_filter.1 hr).2
    refine ⟨_, _, Service.subscribe_on hunsorted hfirst hsize hallowed
      (Criteria.filter_admits hstatus _ ▸ hviews), ?_⟩
    intro turns start f hturns hkeeps hfinal
    have hstart : start.Mirrors q.criteria (max n.vault.config.channelCapacity.toNat 1) :=
      .ofSubscription hn (Criteria.status_of_status_all hstatus) hviews
    -- The run keeps the invariant of the follower, and a poll at its end tells what that means.
    obtain ⟨-, answer, hanswer, hkept⟩ := (hstart.run hturns hkeeps hfinal).poll
    refine ⟨answer, hanswer, fun hnone paging hfirst' hsize' hallowed' => ?_⟩
    have hfound : Views (f.node.vault.store.records.filter q.criteria.admits) f.kept := by
      rw [Criteria.filter_admits hstatus]
      exact hkept hnone
    have hhost : (Backend.host.query ⟨q.criteria, paging, .unsorted⟩).on f.node =
        (.ok ⟨f.node.vault.store.records.filter q.criteria.admits,
          UInt64.ofNat (f.node.vault.store.records.filter q.criteria.admits).length⟩, f.node) := by
      have hquery := Vault.query_of_unsorted (q := ⟨q.criteria, paging, .unsorted⟩) rfl hfirst'
        hsize' hallowed'
      show ((f.node.vault.query _).mapError BackendError.vault, f.node) = _
      rw [hquery]
      rfl
    rw [ResultSequence.page_on_of_views hhost hfound, hfound.length_eq]

/-- A record is opened and passed on, with rejected transactions in between, and the feed is asked
    once after each. -/
def polledInBetween : List Turn :=
  Vault.openedAndPassedOn.flatMap fun (now, t) => [.record now t, .poll]

/-- Steps of a builder that leave the status and the record types alone. -/
def relevantOrNamed : List Builder.Step :=
  [.set (.relevancy .relevant), .block .or [.filter (.ok (.notNull (.ofRecord .linearId)))]]

/-- The query that these steps build for a subscription to all records. -/
def relevantOrNamedQuery : Query := ((Builder.forType .any .all).performAll relevantOrNamed).2.build

/-- After that the list holds both versions, the first as consumed, as a fresh query does. -/
theorem subscription_mirrors_vault_polledInBetween :
    let node : Node := { server := { wording := fun _ => "io error: " } }
    let start : Follower AnyRecord :=
      .ofSubscription { node with vault := (Vault.subscribe {} relevantOrNamedQuery.criteria).2 }
        ⟨[], { status := .all }, 0⟩
    let f := start.run polledInBetween
    f.kept.map (·.status) = [.consumed, .unconsumed] ∧
      (ResultSequence.page ⟨Backend.host, relevantOrNamedQuery⟩).on f.node =
        (.ok ⟨f.kept, 2⟩, f.node) := by
  intro node start f
  have hkept : f.kept.map (·.status) = [.consumed, .unconsumed] := by decide +kernel
  -- The last poll has taken the only notification left, so that the next one has none to tell of.
  have hpolled : (f.poll.1.toOption.map Option.isNone) = some true := by decide +kernel
  have hviews (s : Store) : Follower.Viewable AnyRecord relevantOrNamedQuery.criteria s :=
    fun _ _ _ => ⟨_, rfl⟩
  have hturns : ∀ turn ∈ polledInBetween, turn.Countable := by
    have hsize : ∀ call ∈ Vault.openedAndPassedOn, call.2.outputs.length ≤ UInt32.size := by decide
    intro turn hturn
    obtain ⟨call, hcall, hmem⟩ := List.mem_flatMap.1 hturn
    rcases List.mem_cons.1 hmem with rfl | hpoll
    · exact hsize call hcall
    · rw [List.mem_singleton.1 hpoll]
      trivial
  have hkeeps : start.KeepsUp 1024 polledInBetween := by
    have hstates : ∀ k < 9, (start.run (polledInBetween.take k)).behind ≤ 1024 := by
      decide +kernel
    intro before hbefore
    rw [List.prefix_iff_eq_take.1 hbefore]
    exact hstates _ (Nat.lt_succ_of_le hbefore.length_le)
  obtain ⟨hbuilders, hsubscriptions⟩ := subscription_mirrors_vault AnyRecord
  obtain ⟨hstatus, -⟩ := hbuilders Node ⟨Backend.host⟩ relevantOrNamed _ (by decide) rfl
  obtain ⟨s, n, hsubscribe, hruns⟩ := hsubscriptions node relevantOrNamedQuery (.empty {}) hstatus
    rfl rfl (by decide) (by decide) (hviews _)
  have hstart : (Service.subscribe ⟨Backend.host⟩ relevantOrNamedQuery).on node =
      (.ok (⟨[], { status := .all }, 0⟩ : Subscription AnyRecord),
        { node with vault := (Vault.subscribe {} relevantOrNamedQuery.criteria).2 }) :=
    Service.subscribe_on rfl rfl (by decide) (by decide) .nil
  rw [hstart] at hsubscribe
  cases hsubscribe
  obtain ⟨answer, hanswer, hfresh⟩ := hruns polledInBetween hturns hkeeps (hviews _)
  have hnone : answer = none := by
    rw [show f.poll.1 = .ok answer from hanswer] at hpolled
    cases answer with
    | none => rfl
    | some n => cases hpolled
  have hlength : f.kept.length = 2 := by
    have hmapped := congrArg List.length hkept
    rwa [List.length_map] at hmapped
  have hpage := hfresh hnone .initial rfl (by decide +kernel) (by decide +kernel)
  refine ⟨hkept, hpage.trans ?_⟩
  rw [hlength]
  rfl

end LedgerQuery
