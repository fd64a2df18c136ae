/-
  LedgerQuery.Proofs.Backend.Subscribe

  What a subscription over frames leaves at the node when its client hears of an error. If the node
  has announced no feed there is nothing: no feed is pending that was not before, and the vault
  forgets the tracker. If the node has announced one, and the client could not read the
  announcement, the feed stays pending under a number that nobody knows, and its tracker stays with
  it. Main statement: `remote_subscribe_leftovers`.
-/
import LedgerQuery.Proofs.Backend.Feeds
import LedgerQuery.Proofs.Backend.Loopback

namespace LedgerQuery

variable {n : Node} {client : RemoteConfig} {q : Query} {request : Bytes}

/-! ## The exchange -/

/-- What a subscription over frames makes of a reply: it opens the feed that is announced. -/
def Transport.opened {σ : Type} (t : Transport σ) :
    Message → Attempt σ BackendError (Page StoredRecord × StreamId)
  | .subscribeAck page feed => do return (page, ← t.openFeed feed)
  | other => throw (.unexpectedMessage other.name)

/-- A subscription over frames to the node itself: framing, the call, reading the reply, and opening
    the feed. -/
theorem remote_subscribe_on (client : RemoteConfig) (q : Query) (n : Node) :
    ((Backend.remote .loopback client).subscribe q).on n =
      match client.codec.encode (.subscribeRequest q) with
      | .error e => (.error e, n)
      | .ok request =>
        match (n.call request).1.bind (Transport.hear client.codec) with
        | .error e => (.error e, (n.call request).2)
        | .ok m => (Transport.loopback.opened m).on (n.call request).2 := by
  have hexchange : ((Backend.remote .loopback client).subscribe q).on n =
      match (Transport.loopback.exchange client.codec (.subscribeRequest q)).on n with
      | (.error e, s) => (.error e, s)
      | (.ok m, s) => (Transport.loopback.opened m).on s := by
    show (Bind.bind _ _ : Attempt Node BackendError _).on n = _
    rw [Attempt.on_bind]
    rcases (Transport.loopback.exchange client.codec (.subscribeRequest q)).on n with ⟨e | m, s⟩
    · rfl
    · cases m <;> rfl
  rw [hexchange, Transport.exchange_on]
  cases client.codec.encode (.subscribeRequest q) with
  | error e => rfl
  | ok request =>
    show (match ((n.call request).1.bind (Transport.hear client.codec), (n.call request).2) with
      | (.error e, s) => (.error e, s)
      | (.ok m, s) => (Transport.loopback.opened m).on s : Except BackendError _ × Node) = _
    cases hheard : (n.call request).1.bind (Transport.hear client.codec) with
    | error e => simp only [hheard]
    | ok m => simp only [hheard]

/-- Asking for a feed that is not pending changes nothing, nor does any other message. -/
theorem opened_error {m : Message} {e : BackendError}
    (h : ((Transport.loopback.opened m).on n).1 = .error e) :
    ((Transport.loopback.opened m).on n).2 = n := by
  cases m with
  | subscribeAck page feed =>
    rw [Transport.opened, Attempt.on_bind] at h ⊢
    cases hfound : n.server.feeds.lookup feed with
    | none => simp only [Transport.loopback, Attempt.on_of, Node.openFeed, hfound]
    | some stream =>
      simp only [Transport.loopback, Attempt.on_of, Node.openFeed, hfound] at h
      cases h
  | queryRequest q => rfl
  | queryResponse page => rfl
  | subscribeRequest q => rfl
  | error code text => rfl

/-- A subscription that fails leaves the node as its request does. -/
theorem remote_subscribe_error {e : BackendError}
    (h : (((Backend.remote .loopback client).subscribe q).on n).1 = .error e) :
    (((Backend.remote .loopback client).subscribe q).on n).2 =
      match client.codec.encode (.subscribeRequest q) with
      | .error _ => n
      | .ok request => (n.call request).2 := by
  rw [remote_subscribe_on] at h ⊢
  cases hrequest : client.codec.encode (.subscribeRequest q) with
  | error e => rfl
  | ok request =>
    rw [hrequest] at h
    dsimp only at h ⊢
    cases hheard : (n.call request).1.bind (Transport.hear client.codec) with
    | error e => rfl
    | ok m =>
      rw [hheard] at h
      exact opened_error h

/-! ## An announcement that is read -/

/-- The page that a vault hands out with a stream holds recorded records. -/
theorem portable_of_track {page : Page StoredRecord} {stream : StreamId} {w : Vault}
    (hportable : ∀ r ∈ n.vault.store.records, r.payload.Portable Json.deepest)
    (htrack : n.vault.track q = (.ok (page, stream), w)) (feed : UInt64) :
    (Message.subscribeAck page feed).Portable :=
  fun _ hr => hportable _ (Vault.mem_of_query (Vault.query_of_track htrack) hr)

/-- A client that admits whatever its node sends reads the announcement, and opens the feed. -/
theorem remote_subscribe_ok (hserver : n.server.codec.Bounded)
    (hportable : ∀ r ∈ n.vault.store.records, r.payload.Portable Json.deepest)
    (hlimits : n.server.codec.maxMessageSize ≤ client.maxMessageSize)
    (hrequest : client.codec.encode (.subscribeRequest q) = .ok request)
    (hannounced : n.announces request ≠ none) :
    ∃ found, (((Backend.remote .loopback client).subscribe q).on n).1 = .ok found := by
  cases n.called request with
  | other hunasked hsilent hnode => exact absurd hsilent hannounced
  | @abandoned q' used next hasked hsilent hnumbered hnode => exact absurd hsilent hannounced
  | @announced q' used page hasked htracked htold hreplied hnode =>
    obtain ⟨frame, hreply, hencode⟩ := hreplied
    have hframed : n.server.codec.Admits (.subscribeAck page n.server.nextFeed) :=
      Codec.admits_of_encode hencode
    have hread : client.codec.Admits (.subscribeAck page n.server.nextFeed) :=
      Nat.le_trans hframed (UInt64.le_iff_toNat_le.1 hlimits)
    have hheard : (n.call request).1.bind (Transport.hear client.codec) =
        .ok (.subscribeAck page n.server.nextFeed) := by
      rw [Codec.encode_of_le hframed] at hencode
      cases hencode
      rw [hreply]
      exact Transport.hear_of_admits hserver hframed
        (portable_of_track hportable htracked n.server.nextFeed) hread
    -- The feed has just been registered, so it is found.
    have hpending : ∃ stream, (n.server.feeds ++
        [(n.server.nextFeed, n.vault.nextStream)]).lookup n.server.nextFeed = some stream := by
      rw [List.lookup_append]
      cases n.server.feeds.lookup n.server.nextFeed with
      | some stream => exact ⟨stream, rfl⟩
      | none => exact ⟨n.vault.nextStream, by simp⟩
    obtain ⟨stream, hfound⟩ := hpending
    refine ⟨(page, stream), ?_⟩
    rw [remote_subscribe_on, hrequest]
    dsimp only
    rw [hheard, hnode]
    dsimp only
    rw [Transport.opened, Attempt.on_bind]
    simp only [Transport.loopback, Attempt.on_of, Node.openFeed, hfound]
    rfl

/-! ## What is left behind -/

namespace Vault

variable {v w : Vault} {now : Instant} {t : Transaction} {change : Update}

/-- The trackers after a commit were there before. -/
theorem mem_streams_commit (hcommit : v.commit now t = .ok (change, w)) {tracker : Tracker}
    (hmem : tracker ∈ w.trackers) : tracker.stream ∈ v.trackers.map Tracker.stream :=
  (streams_commit hcommit).1.subset (List.mem_map_of_mem hmem)

/-- A commit forgets a new tracker whose stream is let go, and keeps the others at most. -/
theorem mem_streams_commit_release {c : Criteria}
    (hcommit : ((v.subscribe c).2.release v.nextStream).commit now t = .ok (change, w))
    {tracker : Tracker} (hmem : tracker ∈ w.trackers) :
    tracker.stream ∈ v.trackers.map Tracker.stream := by
  have habandoned : ((v.subscribe c).2.release v.nextStream).Abandoned v.nextStream :=
    .of_release (Nat.lt_succ_self _)
  have hold := mem_streams_commit hcommit hmem
  rw [Vault.release, streams_updateChannel, Vault.subscribe, List.map_append] at hold
  rcases List.mem_append.1 hold with hold | hnew
  · exact hold
  · exact absurd (List.mem_singleton.1 hnew) (habandoned.not_mem_commit hcommit tracker hmem)

/-- A commit keeps a new tracker whose stream is held. -/
theorem exists_tracker_commit_subscribe {c : Criteria}
    (hcommit : (v.subscribe c).2.commit now t = .ok (change, w)) :
    ∃ tracker ∈ w.trackers, tracker.stream = v.nextStream := by
  obtain ⟨-, hw⟩ := commit_eq_ok hcommit
  obtain ⟨channel, hnotify, -⟩ := Tracker.exists_notify?
    (t := ⟨v.nextStream, c, .ofCapacity v.config.channelCapacity.toNat⟩) rfl rfl change
  refine ⟨⟨v.nextStream, c, channel⟩, ?_, rfl⟩
  rw [hw]
  exact List.mem_filterMap.2 ⟨_, List.mem_append_right _ (List.mem_singleton_self _), hnotify⟩

end Vault

namespace Node

/-- A request in reply to which no feed is announced adds no pending feed, and no tracker of its own
    outlasts an accepted transaction. -/
theorem leftovers_of_silent (h : n.announces request = none) :
    (n.call request).2.server.feeds = n.server.feeds ∧
      ∀ (now : Instant) (t : Transaction) (change : Update) (w : Vault),
        (n.call request).2.vault.commit now t = .ok (change, w) → ∀ tracker ∈ w.trackers,
          tracker.stream ∈ n.vault.trackers.map Tracker.stream := by
  cases n.called request with
  | other hunasked hsilent hnode =>
    rw [hnode]
    exact ⟨rfl, fun now t change w hcommit tracker hmem => Vault.mem_streams_commit hcommit hmem⟩
  | @announced q' used page hasked htracked htold hreplied hnode =>
    rw [htold] at h
    cases h
  | @abandoned q' used next hasked hsilent hnumbered hnode =>
    rw [hnode]
    exact ⟨rfl, fun now t change w hcommit tracker hmem =>
      Vault.mem_streams_commit_release hcommit hmem⟩

/-- A request in reply to which a feed is announced leaves it pending, and leaves a tracker of its
    own, whose stream is named by none of the older ones. -/
theorem leftovers_of_announced (hn : n.vault.Reachable) (h : n.announces request ≠ none) :
    (n.call request).2.server.feeds =
        n.server.feeds ++ [(n.server.nextFeed, n.vault.nextStream)] ∧
      ∀ (now : Instant) (t : Transaction) (change : Update) (w : Vault),
        (n.call request).2.vault.commit now t = .ok (change, w) → ∃ tracker ∈ w.trackers,
          tracker.stream ∉ n.vault.trackers.map Tracker.stream := by
  cases n.called request with
  | other hunasked hsilent hnode => exact absurd hsilent h
  | @abandoned q' used next hasked hsilent hnumbered hnode => exact absurd hsilent h
  | @announced q' used page hasked htracked htold hreplied hnode =>
    rw [hnode]
    refine ⟨rfl, fun now t change w hcommit => ?_⟩
    obtain ⟨tracker, hmem, hstream⟩ := Vault.exists_tracker_commit_subscribe hcommit
    refine ⟨tracker, hmem, fun hold => ?_⟩
    have hlt : tracker.stream < n.vault.nextStream := hn.named _ hold
    rw [hstream] at hlt
    exact Nat.lt_irrefl _ hlt

end Node

/-- What a subscription leaves at the node when its client hears of an error. A tracker of the vault
    that was not there before belongs to the subscription. If no feed has been announced in reply
    to the request, the pending feeds are those from before, and after the next accepted
    transaction so are the trackers. If one has been announced, it is pending, and its tracker
    stays, although the client has read of neither. That does not happen to a client that admits
    whatever its node sends, if the recorded payloads survive as text. -/
theorem remote_subscribe_leftovers (n : Node) (hn : n.vault.Reachable) (client : RemoteConfig)
    (q : Query) (e : BackendError)
    (herror : (((Backend.remote .loopback client).subscribe q).on n).1 = .error e) :
    let left := (((Backend.remote .loopback client).subscribe q).on n).2
    let announced := ∃ request, client.codec.encode (.subscribeRequest q) = .ok request ∧
      n.announces request ≠ none
    (¬ announced → left.server.feeds = n.server.feeds ∧
      ∀ (now : Instant) (t : Transaction) (change : Update) (w : Vault),
        left.vault.commit now t = .ok (change, w) → ∀ tracker ∈ w.trackers,
          tracker.stream ∈ n.vault.trackers.map Tracker.stream) ∧
    (announced →
      left.server.feeds = n.server.feeds ++ [(n.server.nextFeed, n.vault.nextStream)] ∧
      ∀ (now : Instant) (t : Transaction) (change : Update) (w : Vault),
        left.vault.commit now t = .ok (change, w) → ∃ tracker ∈ w.trackers,
          tracker.stream ∉ n.vault.trackers.map Tracker.stream) ∧
    (n.server.codec.Bounded → n.server.codec.maxMessageSize ≤ client.maxMessageSize →
      (∀ r ∈ n.vault.store.records, r.payload.Portable Json.deepest) → ¬ announced) := by
  intro left announced
  have hleft := remote_subscribe_error herror
  have hcalled : ∀ {request}, client.codec.encode (.subscribeRequest q) = .ok request →
      left = (n.call request).2 := by
    intro request hrequest
    rw [hrequest] at hleft
    exact hleft
  refine ⟨fun hunannounced => ?_, fun hannounced => ?_,
    fun hserver hlimits hportable hannounced => ?_⟩
  · cases hrequest : client.codec.encode (.subscribeRequest q) with
    | error e =>
      -- The request has not been sent.
      rw [hrequest] at hleft
      rw [show left = n from hleft]
      exact ⟨rfl, fun now t change w hcommit tracker hmem => Vault.mem_streams_commit hcommit hmem⟩
    | ok request =>
      have hsilent : n.announces request = none := by
        cases htold : n.announces request with
        | none => rfl
        | some feed =>
          refine absurd ⟨request, hrequest, ?_⟩ hunannounced
          rw [htold]
          exact Option.some_ne_none feed
      rw [hcalled hrequest]
      exact Node.leftovers_of_silent hsilent
  · obtain ⟨request, hrequest, htold⟩ := hannounced
    rw [hcalled hrequest]
    exact Node.leftovers_of_announced hn htold
  · obtain ⟨request, hrequest, htold⟩ := hannounced
    obtain ⟨found, hok⟩ := remote_subscribe_ok hserver hportable hlimits hrequest htold
    rw [hok] at herror
    cases herror

/-- A client that admits its request and not the announcement hears of an error, and the feed and
    its tracker stay. -/
theorem remote_subscribe_leftovers_smallClient :
    let q : Query := ⟨.forType .any .all, .initial, .unsorted⟩
    let small : RemoteConfig := { maxMessageSize := 128 }
    let subscription := ((Backend.remote .loopback small).subscribe q).on passedOnNode
    passedOnNode.vault.Reachable ∧ (∃ e, subscription.1 = .error e) ∧
      passedOnNode.server.feeds = [] ∧ subscription.2.server.feeds = [(1, 0)] ∧
      ∀ (now : Instant) (t : Transaction) (change : Update) (w : Vault),
        subscription.2.vault.commit now t = .ok (change, w) → ∃ tracker ∈ w.trackers,
          tracker.stream ∉ passedOnNode.vault.trackers.map Tracker.stream := by
  intro q small subscription
  have hreachable : passedOnNode.vault.Reachable := .recordAll {} (by decide)
  have hfails : subscription.1.toOption.isNone = true := by decide +kernel
  have hannounced : ∃ request, small.codec.encode (.subscribeRequest q) = .ok request ∧
      passedOnNode.announces request ≠ none :=
    ⟨_, Codec.encode_of_le (by decide +kernel), by decide +kernel⟩
  have hends : passedOnNode.server.feeds ++ [(passedOnNode.server.nextFeed,
      passedOnNode.vault.nextStream)] = [(1, 0)] := by decide +kernel
  obtain ⟨e, herror⟩ : ∃ e, subscription.1 = .error e := by
    cases h : subscription.1 with
    | ok found => rw [h] at hfails; cases hfails
    | error e => exact ⟨e, rfl⟩
  have hleft := (remote_subscribe_leftovers passedOnNode hreachable small q e herror).2.1 hannounced
  -- Written out as in `hleft`, so that nothing is evaluated.
  dsimp only [subscription]
  rw [hends] at hleft
  exact ⟨hreachable, ⟨e, herror⟩, rfl, hleft⟩

end LedgerQuery
