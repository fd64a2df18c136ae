/-
  LedgerQuery.Proofs.Backend.Feeds

  The feeds that a node announces. A framed request does one of three things to the node: it is no
  subscription and changes nothing, it opens a stream and announces it under the next feed number,
  or it leaves nothing behind but a stream that is let go (`Node.Called`). In every run of requests,
  feeds that are opened and transactions, the feed numbers that have been announced therefore
  ascend, and those that are pending are the ones that have not been opened (`Registry.Holds`).
  Main statement: `feed_registry`.
-/
import LedgerQuery.Backend.Node
import LedgerQuery.Proofs.Vault.Stream
import LedgerQuery.Proofs.Wire.Frame

namespace LedgerQuery

/-! ## Announcements in frames -/

/-- The feed that a message announces. -/
def Message.feed? : Message → Option UInt64
  | .subscribeAck _ feed => some feed
  | _ => none

namespace Codec

open Binary

/-- The feed that a frame announces: a frame with the tag of an announcement ends in it. -/
def announced? (bytes : Bytes) : Option UInt64 :=
  if (bytes.drop 4).headD 0 = 4 then
    some (UInt64.ofNat (ofLittleEndian (bytes.drop (bytes.length - 8))))
  else none

/-- A frame ends as its payload does. -/
theorem exists_frame_eq_append (tag : UInt8) (front back : Bytes) :
    ∃ before, frame tag (front ++ back) = before ++ back := by
  refine ⟨bigEndian (UInt32.ofNat ((front ++ back).length + countedHeader)) ++
    tag :: (bigEndian (Crc32.checksum (front ++ back)) ++ front), ?_⟩
  rw [frame, List.append_assoc, List.cons_append, List.append_assoc]

/-- A frame announces what its message does. -/
theorem announced?_frame (m : Message) : announced? (frame m.tag (write m)) = m.feed? := by
  have htag : ((frame m.tag (write m)).drop 4).headD 0 = m.tag := by
    rw [← List.append_nil (frame m.tag (write m)), headD_drop_frame]
  rw [announced?, htag]
  cases m with
  | subscribeAck page feed =>
    have hlength : (write feed).length = 8 := length_littleEndian 8 feed.toNat
    have hread : ofLittleEndian (write feed) = feed.toNat :=
      ofLittleEndian_littleEndian feed.toNat_lt
    -- The number of the feed is the last that is written.
    obtain ⟨before, hbefore⟩ := exists_frame_eq_append 4 (writeCase 3 ++ write page) (write feed)
    have hframe : frame (Message.subscribeAck page feed).tag
        (write (Message.subscribeAck page feed)) = before ++ write feed := hbefore
    rw [if_pos (show (Message.subscribeAck page feed).tag = 4 from rfl), hframe,
      List.length_append, hlength, Nat.add_sub_cancel, List.drop_left, hread, UInt64.ofNat_toNat]
    rfl
  | queryRequest q => rfl
  | queryResponse page => rfl
  | subscribeRequest q => rfl
  | error code text => rfl

/-- What a codec frames announces what the message does, if it is framed at all. -/
theorem announced?_encode {d : Codec} {m : Message} {bytes : Bytes} (h : d.encode m = .ok bytes) :
    announced? bytes = m.feed? := by
  unfold encode at h
  dsimp only at h
  split at h
  · cases h
  · cases h
    exact announced?_frame m

/-- A message that announces nothing announces nothing framed either. -/
theorem announced?_of_feed?_eq_none {m : Message} (h : m.feed? = none) (d : Codec) :
    (d.encode m).toOption.bind announced? = none := by
  cases hencode : d.encode m with
  | error e => rfl
  | ok bytes => exact (announced?_encode hencode).trans h

end Codec

/-! ## One request -/

namespace Node

variable {n : Node} {request : Bytes} {q : Query} {used : Nat}

/-- The feed that the framed reply to a framed request announces. -/
def announces (n : Node) (request : Bytes) : Option UInt64 :=
  (n.call request).1.toOption.bind Codec.announced?

/-- What a framed request does to a node. -/
inductive Called (n : Node) (request : Bytes) : Prop
  /-- It is no subscription. -/
  | other (unasked : ∀ q used, n.server.codec.decode request ≠ .ok (.subscribeRequest q, used))
    (silent : n.announces request = none) (node : (n.call request).2 = n) : Called n request
  /-- It is one, whose stream is announced under the next feed number. -/
  | announced {q : Query} {used : Nat} {page : Page StoredRecord}
    (asked : n.server.codec.decode request = .ok (.subscribeRequest q, used))
    (tracked : n.vault.track q =
      (.ok (page, n.vault.nextStream), (n.vault.subscribe q.criteria).2))
    (told : n.announces request = some n.server.nextFeed)
    (replied : ∃ frame, (n.call request).1 = .ok frame ∧
      n.server.codec.encode (.subscribeAck page n.server.nextFeed) = .ok frame)
    (node : (n.call request).2 =
      ⟨(n.vault.subscribe q.criteria).2,
        { n.server with
          feeds := n.server.feeds ++ [(n.server.nextFeed, n.vault.nextStream)]
          nextFeed := n.server.nextFeed + 1 }⟩) : Called n request
  /-- It is one, whose stream is let go: the query failed, or the announcement was not framed. -/
  | abandoned {q : Query} {used : Nat} {next : UInt64}
    (asked : n.server.codec.decode request = .ok (.subscribeRequest q, used))
    (silent : n.announces request = none)
    (numbered : next = n.server.nextFeed ∨ next = n.server.nextFeed + 1)
    (node : (n.call request).2 =
      ⟨(n.vault.subscribe q.criteria).2.release n.vault.nextStream,
        { n.server with nextFeed := next }⟩) : Called n request

/-- A reply that announces nothing. -/
theorem call_silent {m : Message} {n' : Node} (hanswer : n.answer request = (⟨m, none⟩, n'))
    (hfeed : m.feed? = none) : n.announces request = none ∧ (n.call request).2 = n' := by
  unfold announces
  simp only [call, hanswer, Option.elim_none]
  cases hencode : n'.server.codec.encode m with
  | ok bytes => exact ⟨(Codec.announced?_encode hencode).trans hfeed, rfl⟩
  | error e => exact ⟨Codec.announced?_of_feed?_eq_none rfl _, rfl⟩

/-- What is no subscription is answered without a change. -/
theorem answer_other
    (h : ∀ q used, n.server.codec.decode request ≠ .ok (.subscribeRequest q, used)) :
    ∃ m : Message, m.feed? = none ∧ n.answer request = (⟨m, none⟩, n) := by
  unfold answer
  cases hdecode : n.server.codec.decode request with
  | error e => exact ⟨_, rfl, rfl⟩
  | ok found =>
    obtain ⟨m, used⟩ := found
    cases m with
    | subscribeRequest q => exact absurd hdecode (h q used)
    | queryRequest q =>
      dsimp only [handle]
      cases n.vault.query q with
      | ok page => exact ⟨_, rfl, rfl⟩
      | error e => exact ⟨_, rfl, rfl⟩
    | queryResponse page => exact ⟨_, rfl, rfl⟩
    | subscribeAck page feed => exact ⟨_, rfl, rfl⟩
    | error code text => exact ⟨_, rfl, rfl⟩

/-- Every request does one of the three. -/
theorem called (n : Node) (request : Bytes) : n.Called request := by
  by_cases hother : ∀ q used, n.server.codec.decode request ≠ .ok (.subscribeRequest q, used)
  · obtain ⟨m, hfeed, hanswer⟩ := answer_other hother
    obtain ⟨hsilent, hnode⟩ := call_silent hanswer hfeed
    exact .other hother hsilent hnode
  · simp only [Classical.not_forall, Classical.not_not] at hother
    obtain ⟨q, used, hdecode⟩ := hother
    have hanswer : n.answer request = n.handle (.subscribeRequest q) := by
      simp only [answer, hdecode]
    rcases Vault.track_cases n.vault q with ⟨page, htrack⟩ | ⟨e, htrack⟩
    · have hreply : n.answer request =
          (⟨.subscribeAck page n.server.nextFeed, some (n.server.nextFeed, n.vault.nextStream)⟩,
            ⟨(n.vault.subscribe q.criteria).2,
              { n.server with nextFeed := n.server.nextFeed + 1 }⟩) := by
        rw [hanswer]
        simp only [handle, htrack]
      -- The number is taken in either case, but without a frame nobody is told of it.
      cases hencode : n.server.codec.encode (.subscribeAck page n.server.nextFeed) with
      | ok bytes =>
        refine .announced hdecode htrack ?_ ⟨bytes, ?_, hencode⟩ ?_
        · simp only [announces, call, hreply, hencode]
          exact Codec.announced?_encode hencode
        · simp only [call, hreply, hencode]
        · simp only [call, hreply, hencode]
          rfl
      | error e =>
        refine .abandoned hdecode ?_ (.inr rfl) ?_
        · simp only [announces, call, hreply, hencode]
          exact Codec.announced?_of_feed?_eq_none rfl _
        · simp only [call, hreply, hencode]
          rfl
    · -- The vault has opened a stream and lets go of it, since it cannot answer the query.
      have hreply : n.answer request = (⟨.ofVaultError e, none⟩,
          { n with vault := (n.vault.subscribe q.criteria).2.release n.vault.nextStream }) := by
        rw [hanswer]
        simp only [handle, htrack]
      obtain ⟨hsilent, hnode⟩ := call_silent hreply rfl
      exact .abandoned hdecode hsilent (.inl rfl) hnode

end Node

/-! ## Runs -/

/-- A node, the feeds that it has announced in a run with the streams that were opened for them,
    and the feeds that have been opened. -/
structure Registry where
  node : Node
  announced : List (UInt64 × StreamId) := []
  opened : List UInt64 := []

namespace Registry

/-- What happens to a node: a framed request comes in, which may be malformed, a feed is asked
    for, or a transaction is offered to the vault. -/
inductive Action where
  | call (request : Bytes)
  | openFeed (feed : UInt64)
  | commit (now : Instant) (t : Transaction)

/-- Whether a server with a codec reads a subscription. -/
def Action.subscribes (d : Codec) : Action → Bool
  | .call request =>
    match d.decode request with
    | .ok (.subscribeRequest _, _) => true
    | _ => false
  | _ => false

/-- One action. A stream is opened under the next name that the vault has. -/
def take (r : Registry) : Action → Registry
  | .call request =>
    { r with
      node := (r.node.call request).2
      announced := r.announced ++
        ((r.node.announces request).map fun feed => (feed, r.node.vault.nextStream)).toList }
  | .openFeed feed =>
    match r.node.openFeed feed with
    | (.ok _, node) => { r with node, opened := r.opened ++ [feed] }
    | (.error _, node) => { r with node }
  | .commit now t =>
    match r.node.vault.commit now t with
    | .ok (_, vault) => { r with node := { r.node with vault } }
    | .error _ => r

/-- A run, from a vault with a fresh server that has words for payloads and a codec. -/
def run (v : Vault) (wording : Bytes → String) (d : Codec) (actions : List Action) : Registry :=
  actions.foldl take { node := ⟨v, { wording, codec := d }⟩ }

/-! ## The invariant -/

/-- What holds after every run in which so many feed numbers have been taken. -/
structure Holds (d : Codec) (taken : Nat) (r : Registry) : Prop where
  codec_eq : r.node.server.codec = d
  next_eq : r.node.server.nextFeed = UInt64.ofNat (taken + 1)
  /-- Numbers are announced at most once they are taken. -/
  numbered : ∀ feed ∈ r.announced.map Prod.fst, feed.toNat ≤ taken
  ascending : (r.announced.map Prod.fst).Pairwise (· < ·)
  opened : ∀ feed ∈ r.opened, feed ∈ r.announced.map Prod.fst
  pending : r.node.server.feeds = r.announced.filter fun a => decide (a.1 ∉ r.opened)
  named : r.node.vault.Named

variable {r : Registry} {d : Codec} {taken : Nat} {v w : Vault} {now : Instant} {t : Transaction}
  {change : Update} {stream : StreamId}

theorem Holds.start (hv : v.Named) (wording : Bytes → String) (d : Codec) :
    Holds d 0 { node := ⟨v, { wording, codec := d }⟩ } where
  codec_eq := rfl
  next_eq := rfl
  numbered _ h := nomatch h
  ascending := .nil
  opened _ h := nomatch h
  pending := rfl
  named := hv

/-- The number after the next one. -/
theorem Holds.next_add_one (h : r.Holds d taken) :
    r.node.server.nextFeed + 1 = UInt64.ofNat (taken + 1 + 1) := by
  rw [h.next_eq, UInt64.ofNat_add (taken + 1)]
  rfl

/-- A stream that is announced under the next number, which is greater than those before it. -/
theorem Holds.announce (h : r.Holds d taken) (hroom : taken + 1 < UInt64.size) (hv : v.Named)
    (stream : StreamId) :
    Holds d (taken + 1) { r with
      node := ⟨v, { r.node.server with
        feeds := r.node.server.feeds ++ [(r.node.server.nextFeed, stream)]
        nextFeed := r.node.server.nextFeed + 1 }⟩
      announced := r.announced ++ [(r.node.server.nextFeed, stream)] } := by
  have htaken : r.node.server.nextFeed.toNat = taken + 1 := by
    rw [h.next_eq]
    exact UInt64.toNat_ofNat_of_lt' hroom
  refine ⟨h.codec_eq, h.next_add_one, fun feed hfeed => ?_, ?_, fun feed hfeed => ?_, ?_, hv⟩
  · rw [List.map_append] at hfeed
    rcases List.mem_append.1 hfeed with hold | hnew
    · exact Nat.le_succ_of_le (h.numbered feed hold)
    · rw [List.mem_singleton.1 hnew]
      exact Nat.le_of_eq htaken
  · show ((r.announced ++ [_]).map Prod.fst).Pairwise _
    rw [List.map_append, List.pairwise_append]
    refine ⟨h.ascending, List.pairwise_singleton _ _, fun a ha b hb => ?_⟩
    have hle := h.numbered a ha
    rw [List.mem_singleton.1 hb]
    refine UInt64.lt_iff_toNat_lt.2 ?_
    show a.toNat < r.node.server.nextFeed.toNat
    omega
  · rw [List.map_append]
    exact List.mem_append_left _ (h.opened feed hfeed)
  · -- Whatever has been opened was announced before, under a smaller number.
    have hnew : r.node.server.nextFeed ∉ r.opened := by
      intro hopened
      have hle := h.numbered _ (h.opened _ hopened)
      omega
    show r.node.server.feeds ++ _ = (r.announced ++ _).filter _
    rw [h.pending, List.filter_append, List.filter_cons_of_pos (by simpa using hnew),
      List.filter_nil]

/-- A number may be taken without being announced. -/
theorem Holds.skip (h : r.Holds d taken) (hv : v.Named) {next : UInt64} {skipped : Nat}
    (hnext : next = UInt64.ofNat (skipped + 1)) (hle : taken ≤ skipped) :
    Holds d skipped { r with node := ⟨v, { r.node.server with nextFeed := next }⟩ } where
  codec_eq := h.codec_eq
  next_eq := hnext
  numbered feed hfeed := Nat.le_trans (h.numbered feed hfeed) hle
  ascending := h.ascending
  opened := h.opened
  pending := h.pending
  named := hv

/-- A request takes at most one feed number, and none if it is no subscription. -/
theorem Holds.call (h : r.Holds d taken) (request : Bytes)
    (hroom : taken + (if (Action.call request).subscribes d then 1 else 0) < UInt64.size) :
    ∃ next, next ≤ taken + (if (Action.call request).subscribes d then 1 else 0) ∧
      (r.take (.call request)).Holds d next := by
  have hsubscribes : ∀ {q used}, r.node.server.codec.decode request =
      .ok (.subscribeRequest q, used) → (Action.call request).subscribes d = true := by
    intro q used hasked
    rw [h.codec_eq] at hasked
    simp only [Action.subscribes, hasked]
  cases r.node.called request with
  | other hunasked hsilent hnode =>
    have hsame : r.take (.call request) = r := by
      simp only [take, hsilent, hnode, Option.map_none, Option.toList_none, List.append_nil]
    rw [hsame]
    exact ⟨taken, Nat.le_add_right _ _, h⟩
  | @announced q used page hasked htracked htold hreplied hnode =>
    rw [if_pos (hsubscribes hasked)] at hroom ⊢
    have hnamed := h.named.track q
    rw [htracked] at hnamed
    refine ⟨taken + 1, Nat.le_refl _, ?_⟩
    simp only [take, htold, hnode, Option.map_some, Option.toList_some]
    exact h.announce hroom hnamed r.node.vault.nextStream
  | @abandoned q used next hasked hsilent hnumbered hnode =>
    rw [if_pos (hsubscribes hasked)]
    have hnamed : ((r.node.vault.subscribe q.criteria).2.release r.node.vault.nextStream).Named :=
      (h.named.subscribe q.criteria).updateChannel _ _
    simp only [take, hsilent, hnode, Option.map_none, Option.toList_none, List.append_nil]
    rcases hnumbered with rfl | rfl
    · exact ⟨taken, Nat.le_succ _, h.skip hnamed h.next_eq (Nat.le_refl _)⟩
    · exact ⟨taken + 1, Nat.le_refl _, h.skip hnamed h.next_add_one (Nat.le_succ _)⟩

/-- A feed that is looked up among announced ones with numbers of their own. -/
theorem lookup_eq_some_iff {feeds : List (UInt64 × StreamId)} {feed : UInt64}
    (h : (feeds.map Prod.fst).Pairwise (· < ·)) :
    feeds.lookup feed = some stream ↔ (feed, stream) ∈ feeds := by
  induction feeds with
  | nil => simp
  | cons first rest ih =>
    obtain ⟨number, name⟩ := first
    rw [List.map_cons, List.pairwise_cons] at h
    rw [List.lookup_cons, List.mem_cons, Prod.mk.injEq]
    by_cases hfeed : feed = number
    · subst hfeed
      rw [beq_self_eq_true]
      constructor
      · intro hname
        cases hname
        exact .inl ⟨rfl, rfl⟩
      · rintro (⟨-, rfl⟩ | hrest)
        · rfl
        · -- The numbers ascend, so that the first one does not come again.
          exact absurd (h.1 feed (List.mem_map_of_mem hrest)) (UInt64.lt_irrefl feed)
    · rw [beq_eq_false_iff_ne.2 hfeed]
      dsimp only
      rw [ih h.2]
      simp [hfeed]

/-- The pending feeds are those that are announced and not opened, each with its stream. -/
theorem Holds.lookup_feeds (h : r.Holds d taken) {feed : UInt64} :
    r.node.server.feeds.lookup feed = some stream ↔
      (feed, stream) ∈ r.announced ∧ feed ∉ r.opened := by
  have hascending : (r.node.server.feeds.map Prod.fst).Pairwise (· < ·) := by
    rw [h.pending]
    exact h.ascending.sublist (List.filter_sublist.map _)
  rw [lookup_eq_some_iff hascending, h.pending, List.mem_filter, decide_eq_true_iff]

theorem Holds.openFeed (h : r.Holds d taken) (feed : UInt64) :
    (r.take (.openFeed feed)).Holds d taken := by
  cases hfound : r.node.server.feeds.lookup feed with
  | none =>
    simp only [take, Node.openFeed, hfound]
    exact h
  | some stream =>
    obtain ⟨hannounced, -⟩ := h.lookup_feeds.1 hfound
    simp only [take, Node.openFeed, hfound]
    refine ⟨h.codec_eq, h.next_eq, h.numbered, h.ascending, fun other hother => ?_, ?_, h.named⟩
    · rcases List.mem_append.1 hother with hold | hnew
      · exact h.opened other hold
      · rw [List.mem_singleton.1 hnew]
        exact List.mem_map_of_mem hannounced
    · -- One feed more is left out.
      show r.node.server.feeds.filter _ = _
      rw [h.pending, List.filter_filter]
      refine List.filter_congr fun a _ => ?_
      simp [not_or, and_comm]

theorem Holds.commit (h : r.Holds d taken) (now : Instant) (t : Transaction) :
    (r.take (.commit now t)).Holds d taken := by
  cases hcommit : r.node.vault.commit now t with
  | error e =>
    simp only [take, hcommit]
    exact h
  | ok result =>
    obtain ⟨change, w⟩ := result
    simp only [take, hcommit]
    exact ⟨h.codec_eq, h.next_eq, h.numbered, h.ascending, h.opened, h.pending,
      h.named.commit hcommit⟩

/-- Every run with fewer subscriptions than there are feed numbers. -/
theorem holds_run {v : Vault} (hv : v.Named) (wording : Bytes → String) (d : Codec)
    {actions : List Action} (hcount : actions.countP (·.subscribes d) < UInt64.size) :
    ∃ taken, (run v wording d actions).Holds d taken := by
  -- On the actions that are left, with the numbers that have been taken so far.
  suffices hrun : ∀ (taken : Nat) (r : Registry), r.Holds d taken →
      taken + actions.countP (·.subscribes d) < UInt64.size →
        ∃ last, (actions.foldl take r).Holds d last from
    hrun 0 _ (.start hv wording d) (by omega)
  clear hcount
  induction actions with
  | nil => exact fun taken r h _ => ⟨taken, h⟩
  | cons a rest ih =>
    intro taken r h hroom
    rw [List.countP_cons] at hroom
    cases a with
    | call request =>
      obtain ⟨next, hnext, hholds⟩ := h.call request (by omega)
      exact ih next _ hholds (by omega)
    | openFeed feed => exact ih taken _ (h.openFeed feed) (by omega)
    | commit now t => exact ih taken _ (h.commit now t) (by omega)

/-! ## Streams that are let go -/

/-- No action takes up a stream that is abandoned. -/
theorem abandoned_take (h : r.node.vault.Abandoned stream) (a : Action) :
    (r.take a).node.vault.Abandoned stream := by
  cases a with
  | call request =>
    show ((r.node.call request).2).vault.Abandoned stream
    cases r.node.called request with
    | other hunasked hsilent hnode => rw [hnode]; exact h
    | @announced q used page hasked htracked htold hreplied hnode =>
      rw [hnode]
      exact h.subscribe q.criteria
    | @abandoned q used next hasked hsilent hnumbered hnode =>
      rw [hnode]
      exact (h.subscribe q.criteria).release _
  | openFeed feed =>
    cases hfound : r.node.server.feeds.lookup feed with
    | none => simp only [take, Node.openFeed, hfound]; exact h
    | some opened => simp only [take, Node.openFeed, hfound]; exact h
  | commit now t =>
    cases hcommit : r.node.vault.commit now t with
    | error e => simp only [take, hcommit]; exact h
    | ok result => simp only [take, hcommit]; exact h.commit hcommit

theorem abandoned_foldl_take (h : r.node.vault.Abandoned stream) (actions : List Action) :
    (actions.foldl take r).node.vault.Abandoned stream := by
  induction actions generalizing r with
  | nil => exact h
  | cons a rest ih => exact ih (abandoned_take h a)

/-! ## The registry -/

/-- Feeds are announced once and opened once, in every run of framed requests, feeds that are asked
    for and transactions, on a fresh server of a reachable vault, with fewer subscriptions than
    there are feed numbers. The numbers that are announced in frames ascend, and those that are
    pending are the ones that have not been opened. Asking for a pending feed leads to the stream
    that was opened for it, and asking for any other fails. A number is announced only to a
    subscription, whose query the vault has tracked under that stream; a subscription to which
    none is announced leaves no feed behind, and the vault forgets its tracker with the next
    accepted transaction, whatever happens until then. -/
theorem feed_registry (v : Vault) (hv : v.Reachable) (wording : Bytes → String) (d : Codec)
    (actions : List Action) (hcount : actions.countP (·.subscribes d) < UInt64.size) :
    let r := run v wording d actions
    (r.announced.map Prod.fst).Pairwise (· < ·) ∧
    r.node.server.feeds = r.announced.filter (fun a => decide (a.1 ∉ r.opened)) ∧
    (∀ feed stream, (r.node.openFeed feed).1 = .ok stream ↔
      (feed, stream) ∈ r.announced ∧ feed ∉ r.opened) ∧
    (∀ feed, feed ∉ r.announced.map Prod.fst ∨ feed ∈ r.opened →
      (r.node.openFeed feed).1 = .error (.unknownFeed feed)) ∧
    (∀ request feed, r.node.announces request = some feed → ∃ q used page,
      d.decode request = .ok (.subscribeRequest q, used) ∧
      r.node.vault.track q =
        (.ok (page, r.node.vault.nextStream), (r.take (.call request)).node.vault)) ∧
    ∀ request q used, d.decode request = .ok (.subscribeRequest q, used) →
      r.node.announces request = none →
      let next := r.take (.call request)
      next.node.server.feeds = r.node.server.feeds ∧
      ∀ (more : List Action) (now : Instant) (t : Transaction) (change : Update) (w : Vault),
        (more.foldl take next).node.vault.commit now t = .ok (change, w) →
          ∀ tracker ∈ w.trackers, tracker.stream ≠ r.node.vault.nextStream := by
  intro r
  obtain ⟨taken, h⟩ : ∃ taken, r.Holds d taken := holds_run hv.named wording d hcount
  refine ⟨h.ascending, h.pending, fun feed stream => ?_, fun feed hfeed => ?_,
    fun request feed hannounced => ?_, fun request q used hasked hsilent => ?_⟩
  · rw [← h.lookup_feeds, Node.openFeed]
    cases r.node.server.feeds.lookup feed <;> simp
  · have hnone : r.node.server.feeds.lookup feed = none := by
      rw [Option.eq_none_iff_forall_ne_some]
      intro stream hfound
      obtain ⟨hannounced, hunopened⟩ := h.lookup_feeds.1 hfound
      rcases hfeed with hunknown | hopened
      · exact hunknown (List.mem_map_of_mem hannounced)
      · exact hunopened hopened
    rw [Node.openFeed, hnone]
  · cases r.node.called request with
    | other hunasked hsilent hnode =>
      rw [hsilent] at hannounced
      cases hannounced
    | @announced q used page hasked htracked htold hreplied hnode =>
      refine ⟨q, used, page, h.codec_eq ▸ hasked, ?_⟩
      rw [htracked]
      show _ = (_, ((r.node.call request).2).vault)
      rw [hnode]
    | @abandoned q used next hasked hsilent hnumbered hnode =>
      rw [hsilent] at hannounced
      cases hannounced
  · cases r.node.called request with
    | other hunasked hsilent' hnode' => exact absurd (h.codec_eq ▸ hasked) (hunasked q used)
    | @announced q used page hasked' htracked htold hreplied hnode' =>
      rw [htold] at hsilent
      cases hsilent
    | @abandoned q used number hasked' hsilent' hnumbered hnode' =>
      intro next
      have hnode : next.node =
          ⟨(r.node.vault.subscribe q.criteria).2.release r.node.vault.nextStream,
            { r.node.server with nextFeed := number }⟩ := hnode'
      refine ⟨by rw [hnode], fun more now t change w hcommit => ?_⟩
      -- The call itself has let go of the stream, and no later action attaches anyone to it.
      have habandoned : next.node.vault.Abandoned r.node.vault.nextStream := by
        rw [hnode]
        exact .of_release (Nat.lt_succ_self _)
      exact (abandoned_foldl_take habandoned more).not_mem_commit hcommit

/-- The framed request for a subscription to all records. -/
def subscribeToAll : Bytes :=
  let m := Message.subscribeRequest (Builder.forType .any .all).build
  Codec.frame m.tag (Binary.write m)

/-- Two subscriptions are announced, and the first feed is opened, which can be done once. The
    server says of any payload that it ends too early. -/
theorem feed_registry_openedOnce :
    let actions := [.call subscribeToAll, .call subscribeToAll, .openFeed 1]
    let r := run {} (fun _ => "io error: ") {} actions
    actions.countP (·.subscribes {}) < UInt64.size ∧
      r.announced = [(1, 0), (2, 1)] ∧ r.opened = [1] ∧ r.node.server.feeds = [(2, 1)] ∧
      (r.node.openFeed 2).1 = .ok 1 ∧ (r.node.openFeed 1).1 = .error (.unknownFeed 1) := by
  intro actions r
  have hcount : actions.countP (·.subscribes {}) < UInt64.size :=
    Nat.lt_of_le_of_lt List.countP_le_length (by decide)
  have hrun : r.announced = [(1, 0), (2, 1)] ∧ r.opened = [1] := by decide +kernel
  obtain ⟨hannounced, hopened⟩ := hrun
  obtain ⟨-, hpending, hopen, hunknown, -⟩ :=
    feed_registry {} (.empty {}) (fun _ => "io error: ") {} actions hcount
  have hsecond : (2, 1) ∈ r.announced ∧ 2 ∉ r.opened := by
    rw [hannounced, hopened]
    decide
  have hfirst : (1 : UInt64) ∈ r.opened := by
    rw [hopened]
    exact List.mem_singleton_self 1
  refine ⟨hcount, hannounced, hopened, ?_, (hopen 2 1).2 hsecond, hunknown 1 (.inr hfirst)⟩
  show r.node.server.feeds = _
  rw [hpending, hannounced, hopened]
  rfl

end Registry

end LedgerQuery
