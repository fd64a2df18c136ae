/-
  LedgerQuery.Proofs.Backend.Server

  A server and arbitrary bytes. What is read from the front of a request decides what it is
  answered with (`Node.Answers`), and the answer is sent in a frame that the server itself could
  read, or else an error that tells why it could not be framed (`Codec.exists_of_sent`). Nothing
  that is recorded changes, and a stream that the request has opened is kept only if it is
  announced. Main statement: `server_survives`.
-/
import LedgerQuery.Proofs.Backend.Subscribe
import LedgerQuery.Proofs.Wire.Prefix

namespace LedgerQuery

/-- Whether a message asks for something. -/
def Message.isRequest : Message → Bool
  | .queryRequest _ | .subscribeRequest _ => true
  | _ => false

/-! ## What is sent -/

namespace Codec

open Binary

variable {c : Codec} {wording : Bytes → String} {m : Message} {bytes : Bytes}

/-- What is sent for a reply is the frame of a message that its sender reads back: the reply, or
    an error of the server. -/
theorem exists_of_sent (hc : c.Bounded) (hm : m.Portable)
    (h : c.sent wording m = .ok bytes) :
    ∃ told : Message, c.Admits told ∧ bytes = frame told.tag (write told) ∧
      c.decode bytes = .ok (told, bytes.length) ∧
      (told = m ∨ ∃ text, told = .error Message.internalError text) := by
  have hread {told : Message} (hframed : c.encode told = .ok bytes) (hportable : told.Portable) :
      c.Admits told ∧ bytes = frame told.tag (write told) ∧
        c.decode bytes = .ok (told, bytes.length) := by
    have hadmits := admits_of_encode hframed
    obtain rfl := eq_frame_of_encode hframed
    exact ⟨hadmits, rfl, decode_of_admits hc hadmits hportable hadmits⟩
  unfold sent at h
  cases hframed : c.encode m with
  | ok found =>
    rw [hframed] at h
    cases h
    obtain ⟨hadmits, hframe, hdecode⟩ := hread hframed hm
    exact ⟨m, hadmits, hframe, hdecode, .inl rfl⟩
  | error e =>
    -- What is sent in place of the reply is an error, which holds no records.
    rw [hframed] at h
    obtain ⟨hadmits, hframe, hdecode⟩ := hread h (Message.portable_error _ _)
    exact ⟨_, hadmits, hframe, hdecode, .inr ⟨_, rfl⟩⟩

/-- Nothing is sent only if not even the error can be framed. -/
theorem sent_eq_error_iff : (∃ e, c.sent wording m = .error e) ↔
    ∃ fault, c.encode m = .error fault ∧
      ¬ c.Admits (.error Message.internalError (fault.message wording)) := by
  unfold sent
  cases hframed : c.encode m with
  | ok found => simp
  | error fault =>
    simp only [Except.error.injEq, exists_eq_left']
    constructor
    · rintro ⟨e, he⟩ hadmits
      rw [encode_of_le hadmits] at he
      cases he
    · exact fun hlarge => ⟨_, encode_of_not_admits hlarge⟩

end Codec

/-! ## Answers -/

namespace Node

open Binary

variable {n : Node} {request bytes : Bytes} {m : Message} {page : Page StoredRecord} {feed : UInt64}

/-- What a server replies to a framed request, by what it reads from the front of the request. -/
inductive Answers (n : Node) (request : Bytes) : Message → Prop where
  | page {q : Query} {used : Nat} {page : Page StoredRecord}
    (asked : n.server.codec.decode request = .ok (.queryRequest q, used))
    (found : n.vault.query q = .ok page) : Answers n request (.queryResponse page)
  | ack {q : Query} {used : Nat} {page : Page StoredRecord}
    (asked : n.server.codec.decode request = .ok (.subscribeRequest q, used))
    (found : n.vault.query q = .ok page) :
    Answers n request (.subscribeAck page n.server.nextFeed)
  | refused {m : Message} {used : Nat} (asked : n.server.codec.decode request = .ok (m, used))
    (asks : m.isRequest = true) (e : VaultError) : Answers n request (.ofVaultError e)
  | unasked {m : Message} {used : Nat} (read : n.server.codec.decode request = .ok (m, used))
    (other : m.isRequest = false) :
    Answers n request (.error Message.badRequest (m.name ++ " is not a request"))
  | malformed {e : BackendError} (unread : n.server.codec.decode request = .error e) :
    Answers n request (.error Message.badRequest (e.message n.server.wording))

/-- Every request is answered so, and the codec and the words for payloads stay. -/
theorem answers (n : Node) (request : Bytes) :
    n.Answers request (n.answer request).1.message ∧
      (n.answer request).2.server.codec = n.server.codec ∧
      (n.answer request).2.server.wording = n.server.wording := by
  unfold answer
  cases hread : n.server.codec.decode request with
  | error e => exact ⟨.malformed hread, rfl, rfl⟩
  | ok found =>
    obtain ⟨m, used⟩ := found
    -- Two kinds of messages reach the vault; the others are answered by their name alone.
    cases m with
    | queryRequest q =>
      dsimp only [handle]
      cases hquery : n.vault.query q with
      | ok page => exact ⟨.page hread hquery, rfl, rfl⟩
      | error e => exact ⟨.refused hread rfl e, rfl, rfl⟩
    | subscribeRequest q =>
      dsimp only [handle]
      rcases n.vault.track_cases q with ⟨page, htrack⟩ | ⟨e, htrack⟩
      · rw [htrack]
        exact ⟨.ack hread (Vault.query_of_track htrack), rfl, rfl⟩
      · rw [htrack]
        exact ⟨.refused hread rfl e, rfl, rfl⟩
    | queryResponse page => exact ⟨.unasked hread rfl, rfl, rfl⟩
    | subscribeAck page feed => exact ⟨.unasked hread rfl, rfl, rfl⟩
    | error code text => exact ⟨.unasked hread rfl, rfl, rfl⟩

theorem call_fst (n : Node) (request : Bytes) :
    (n.call request).1 =
      n.server.codec.sent n.server.wording (n.answer request).1.message := by
  obtain ⟨-, hcodec, hwording⟩ := n.answers request
  unfold call Codec.sent
  dsimp only
  rw [hcodec, hwording]
  cases n.server.codec.encode (n.answer request).1.message <;> rfl

namespace Answers

theorem portable (h : n.Answers request m)
    (hportable : ∀ r ∈ n.vault.store.records, r.payload.Portable Json.deepest) : m.Portable := by
  cases h with
  | page hasked hfound => exact fun r hr => hportable r (Vault.mem_of_query hfound hr)
  | ack hasked hfound => exact fun r hr => hportable r (Vault.mem_of_query hfound hr)
  | refused hasked hasks e => exact Message.portable_error _ _
  | unasked hread hother => exact Message.portable_error _ _
  | malformed hunread => exact Message.portable_error _ _

theorem isRequest (h : n.Answers request m) : m.isRequest = false := by
  cases h <;> rfl

end Answers

/-- The answer to a request is a frame that holds a message and nothing else. -/
def Tells (n : Node) (request : Bytes) (m : Message) : Prop :=
  ∃ bytes, (n.call request).1 = .ok bytes ∧ n.server.codec.decode bytes = .ok (m, bytes.length)

section

variable (hcodec : n.server.codec.Bounded)
  (hportable : ∀ r ∈ n.vault.store.records, r.payload.Portable Json.deepest)

include hcodec hportable

/-- A frame that is sent holds the reply, or an error of the server. -/
theorem exists_of_call (h : (n.call request).1 = .ok bytes) :
    ∃ told : Message, n.server.codec.Admits told ∧ bytes = Codec.frame told.tag (write told) ∧
      n.server.codec.decode bytes = .ok (told, bytes.length) ∧
      (n.Answers request told ∨ ∃ text, told = .error Message.internalError text) := by
  rw [call_fst] at h
  obtain ⟨hanswers, -⟩ := n.answers request
  obtain ⟨told, hadmits, hframe, hdecode, hcases⟩ :=
    Codec.exists_of_sent hcodec (hanswers.portable hportable) h
  refine ⟨told, hadmits, hframe, hdecode, hcases.imp_left fun htold => ?_⟩
  rw [htold]
  exact hanswers

/-- A message that is told is the reply, or an error of the server; it announces what the answer
    does. -/
theorem Tells.cases (h : n.Tells request m) :
    n.announces request = m.feed? ∧ n.server.codec.Admits m ∧
      (n.Answers request m ∨ ∃ text, m = .error Message.internalError text) := by
  obtain ⟨bytes, hcall, hdecode⟩ := h
  obtain ⟨told, hadmits, hframe, hread, hcases⟩ := exists_of_call hcodec hportable hcall
  rw [hdecode] at hread
  cases hread
  refine ⟨?_, hadmits, hcases⟩
  rw [announces, hcall, hframe]
  exact Codec.announced?_frame m

/-- A reply that is admitted is told. -/
theorem tells_of_admits (hreply : (n.answer request).1.message = m)
    (h : n.server.codec.Admits m) : n.Tells request m := by
  obtain ⟨hanswers, -⟩ := n.answers request
  rw [hreply] at hanswers
  refine ⟨Codec.frame m.tag (write m), ?_, ?_⟩
  · rw [call_fst, hreply, Codec.sent_of_admits _ h]
  · exact Codec.decode_of_admits hcodec h (hanswers.portable hportable) h

/-- A page is told exactly to a request that starts with the frame of a query for it, if the page
    can be framed. -/
theorem tells_page_iff : n.Tells request (.queryResponse page) ↔
    ∃ q : Query, n.server.codec.StartsWith request (.queryRequest q) ∧
      n.vault.query q = .ok page ∧ n.server.codec.Admits (.queryResponse page) := by
  constructor
  · intro h
    obtain ⟨-, hadmits, hanswers | ⟨text, htext⟩⟩ := h.cases hcodec hportable
    · -- A query is the only request that is answered with a page.
      cases hanswers with
      | @page q used page hasked hfound =>
        exact ⟨q, Codec.startsWith_iff.2 ⟨used, hasked⟩, hfound, hadmits⟩
    · cases htext
  · rintro ⟨q, hstarts, hquery, hadmits⟩
    obtain ⟨used, hread⟩ := Codec.startsWith_iff.1 hstarts
    refine tells_of_admits hcodec hportable ?_ hadmits
    simp only [answer, hread, handle, hquery]

/-- A feed is announced exactly to a request that starts with the frame of a subscription, if the
    query is answered and the announcement can be framed. -/
theorem tells_ack_iff : n.Tells request (.subscribeAck page feed) ↔
    ∃ q : Query, n.server.codec.StartsWith request (.subscribeRequest q) ∧
      n.vault.query q = .ok page ∧ feed = n.server.nextFeed ∧
      n.server.codec.Admits (.subscribeAck page feed) := by
  constructor
  · intro h
    obtain ⟨-, hadmits, hanswers | ⟨text, htext⟩⟩ := h.cases hcodec hportable
    · cases hanswers with
      | @ack q used page hasked hfound =>
        exact ⟨q, Codec.startsWith_iff.2 ⟨used, hasked⟩, hfound, rfl, hadmits⟩
    · cases htext
  · rintro ⟨q, hstarts, hquery, rfl, hadmits⟩
    obtain ⟨used, hread⟩ := Codec.startsWith_iff.1 hstarts
    refine tells_of_admits hcodec hportable ?_ hadmits
    simp only [answer, hread, handle, Vault.track_of_query hquery]

/-- The stream of an announced feed is listened to, and its feed is pending. -/
theorem Tells.exists_tracker (h : n.Tells request (.subscribeAck page feed)) :
    ∃ tracker : Tracker, tracker.heard = true ∧
      (n.call request).2.vault.trackers = n.vault.trackers ++ [tracker] ∧
      (n.call request).2.server.feeds = n.server.feeds ++ [(feed, tracker.stream)] := by
  obtain ⟨hannounced, -, -⟩ := h.cases hcodec hportable
  -- Calls that announce nothing are ruled out by what is told.
  cases n.called request with
  | other hunasked hsilent hnode =>
    rw [hsilent] at hannounced
    cases hannounced
  | @abandoned q used next hasked hsilent hnumbered hnode =>
    rw [hsilent] at hannounced
    cases hannounced
  | @announced q used page hasked htracked htold hreplied hnode =>
    rw [htold] at hannounced
    cases hannounced
    rw [hnode]
    exact ⟨_, rfl, rfl, rfl⟩

/-- Without an announcement no feed is pending that was not before, and no stream is listened to
    that the request has opened. -/
theorem trackers_of_not_tells (hn : n.vault.Named)
    (h : ∀ page feed, ¬ n.Tells request (.subscribeAck page feed)) :
    (n.call request).2.server.feeds = n.server.feeds ∧ ∃ created : List Tracker,
      (n.call request).2.vault.trackers = n.vault.trackers ++ created ∧
        ∀ tracker ∈ created, tracker.heard = false := by
  cases n.called request with
  | other hunasked hsilent hnode =>
    rw [hnode]
    exact ⟨rfl, [], (List.append_nil _).symm, fun _ hmem => nomatch hmem⟩
  | @abandoned q used next hasked hsilent hnumbered hnode =>
    rw [hnode]
    refine ⟨rfl, _, Vault.trackers_release_subscribe hn q.criteria, fun tracker hmem => ?_⟩
    rw [List.mem_singleton.1 hmem]
    rfl
  | @announced q used page hasked htracked htold hreplied hnode =>
    -- Such an announcement would be read.
    obtain ⟨bytes, hcall, hencode⟩ := hreplied
    have hadmits := Codec.admits_of_encode hencode
    obtain rfl := Codec.eq_frame_of_encode hencode
    have hread := Codec.decode_of_admits hcodec hadmits
      (portable_of_track hportable htracked n.server.nextFeed) hadmits
    exact absurd ⟨_, hcall, hread⟩ (h page n.server.nextFeed)

end

/-- No request changes what is recorded, or how messages are framed. -/
theorem call_keeps (n : Node) (request : Bytes) :
    (n.call request).2.vault.store = n.vault.store ∧
      (n.call request).2.vault.config = n.vault.config ∧
      (n.call request).2.server.codec = n.server.codec := by
  cases n.called request with
  | other hunasked hsilent hnode => rw [hnode]; exact ⟨rfl, rfl, rfl⟩
  | announced hasked htracked htold hreplied hnode => rw [hnode]; exact ⟨rfl, rfl, rfl⟩
  | abandoned hasked hsilent hnumbered hnode => rw [hnode]; exact ⟨rfl, rfl, rfl⟩

/-- A server survives any bytes. Whatever it is sent, what is recorded stays, and an answer is a
    frame that the server itself would read to its end, with a message that asks for nothing. It
    tells of a page, or announces a feed, exactly if the bytes start with the frame of a query, or
    of a subscription, that the vault answers, and the answer can be framed; the page is then one
    that the vault allows. If the bytes start with no frame, or with one that asks for nothing, the
    answer is an error that blames the request, if that error can be framed, in whatever words the
    server refuses a payload; and there is no answer at all only if neither the reply nor the error
    that says so can be framed. The trackers and the pending feeds from before stay. A stream that
    the request opens is listened to, and pending under the feed that is announced, if the answer is
    an announcement; if not, nobody listens to it any more, and no feed is pending that was not
    before. -/
theorem server_survives (n : Node) (hn : n.vault.Reachable) (hcodec : n.server.codec.Bounded)
    (hportable : ∀ r ∈ n.vault.store.records, r.payload.Portable Json.deepest)
    (request : Bytes) :
    let codec := n.server.codec
    let wording := n.server.wording
    let after := (n.call request).2
    (after.vault.store = n.vault.store ∧ after.vault.config = n.vault.config ∧
      after.server.codec = codec) ∧
    (∀ bytes, (n.call request).1 = .ok bytes →
      ∃ m : Message, codec.decode bytes = .ok (m, bytes.length) ∧ m.isRequest = false) ∧
    (∀ page, n.Tells request (.queryResponse page) ↔
      ∃ q : Query, codec.StartsWith request (.queryRequest q) ∧ n.vault.query q = .ok page ∧
        codec.Admits (.queryResponse page)) ∧
    (∀ page feed, n.Tells request (.subscribeAck page feed) ↔
      ∃ q : Query, codec.StartsWith request (.subscribeRequest q) ∧ n.vault.query q = .ok page ∧
        feed = n.server.nextFeed ∧ codec.Admits (.subscribeAck page feed)) ∧
    (∀ q page, n.vault.query q = .ok page →
      q.paging.number ≠ 0 ∧ q.paging.size ≠ 0 ∧ q.paging.size ≤ n.vault.config.maxPageSize) ∧
    (∀ e : BackendError, codec.decode request = .error e →
      codec.Admits (.error Message.badRequest (e.message wording)) →
      n.Tells request (.error Message.badRequest (e.message wording))) ∧
    (∀ m used, codec.decode request = .ok (m, used) → m.isRequest = false →
      codec.Admits (.error Message.badRequest (m.name ++ " is not a request")) →
      n.Tells request (.error Message.badRequest (m.name ++ " is not a request"))) ∧
    ((∃ e, (n.call request).1 = .error e) ↔
      ∃ fault, codec.encode (n.answer request).1.message = .error fault ∧
        ¬ codec.Admits (.error Message.internalError (fault.message wording))) ∧
    (∀ page feed, n.Tells request (.subscribeAck page feed) → ∃ tracker : Tracker,
      tracker.heard = true ∧ after.vault.trackers = n.vault.trackers ++ [tracker] ∧
        after.server.feeds = n.server.feeds ++ [(feed, tracker.stream)]) ∧
    ((∀ page feed, ¬ n.Tells request (.subscribeAck page feed)) →
      after.server.feeds = n.server.feeds ∧ ∃ created : List Tracker,
        after.vault.trackers = n.vault.trackers ++ created ∧
          ∀ tracker ∈ created, tracker.heard = false) := by
  intro codec wording after
  refine ⟨n.call_keeps request, fun bytes hcall => ?_, fun page => tells_page_iff hcodec hportable,
    fun page feed => tells_ack_iff hcodec hportable, fun q page hquery => ?_,
    fun e hunread hfits => ?_, fun m used hread hother hfits => ?_, ?_,
    fun page feed h => h.exists_tracker hcodec hportable,
    trackers_of_not_tells hcodec hportable hn.named⟩
  · obtain ⟨told, -, -, hdecode, hanswers | ⟨text, rfl⟩⟩ := exists_of_call hcodec hportable hcall
    · exact ⟨told, hdecode, hanswers.isRequest⟩
    · exact ⟨_, hdecode, rfl⟩
  · exact ⟨q.paging.number_ne_zero, q.paging.size_ne_zero, (Vault.query_eq_ok_iff.1 hquery).1⟩
  · refine tells_of_admits hcodec hportable ?_ hfits
    rw [answer, hunread]
  · refine tells_of_admits hcodec hportable ?_ hfits
    rw [answer, hread]
    cases m with
    | queryRequest q => cases hother
    | subscribeRequest q => cases hother
    | queryResponse page => rfl
    | subscribeAck page feed => rfl
    | error code text => rfl
  · rw [call_fst]
    exact Codec.sent_eq_error_iff

/-- Three bytes, which are less than a header, are answered with an error; so are a payload that
    starts with the number of no message and the frame of an answer. A subscription to all records
    is announced, with both records of the node, and its stream is listened to. -/
theorem server_survives_passedOn :
    let stray := Codec.frame 1 [7, 0, 0, 0]
    let answer :=
      Codec.frame (Message.queryResponse .empty).tag (write (Message.queryResponse .empty))
    passedOnNode.vault.Reachable ∧ passedOnNode.server.codec.Bounded ∧
      passedOnNode.Tells [1, 2, 3]
        (.error Message.badRequest "framing error: too short") ∧
      passedOnNode.Tells stray (.error Message.badRequest
        "deserialization error: invalid value: integer `7`, expected variant index 0 <= i < 5") ∧
      passedOnNode.Tells answer (.error Message.badRequest "QueryResponse is not a request") ∧
      ∃ page feed tracker, passedOnNode.Tells Registry.subscribeToAll (.subscribeAck page feed) ∧
        tracker.heard = true ∧
        (passedOnNode.call Registry.subscribeToAll).2.vault.trackers = [tracker] ∧
        (passedOnNode.call Registry.subscribeToAll).2.server.feeds = [(feed, tracker.stream)] := by
  intro stray answer
  have hreachable : passedOnNode.vault.Reachable := .recordAll {} (by decide)
  have hcodec : passedOnNode.server.codec.Bounded := by unfold Codec.Bounded; decide +kernel
  have hportable : ∀ r ∈ passedOnNode.vault.store.records, r.payload.Portable Json.deepest :=
    List.forall_mem_cons.2 ⟨.null, List.forall_mem_singleton.2 .null⟩
  obtain ⟨-, -, -, -, -, hmalformed, -⟩ :=
    server_survives passedOnNode hreachable hcodec hportable [1, 2, 3]
  obtain ⟨-, -, -, -, -, hstray, -⟩ :=
    server_survives passedOnNode hreachable hcodec hportable stray
  obtain ⟨-, -, -, -, -, -, hunasked, -⟩ :=
    server_survives passedOnNode hreachable hcodec hportable answer
  obtain ⟨-, -, -, -, -, -, -, -, hannounced, hsilent⟩ :=
    server_survives passedOnNode hreachable hcodec hportable Registry.subscribeToAll
  have hunread : passedOnNode.server.codec.decode stray =
      .error (.deserialization [7, 0, 0, 0]) := by
    rw [← List.append_nil stray, Codec.decode_frame_append (by decide) [], if_neg (by decide)]
    rfl
  have hread : passedOnNode.server.codec.decode answer =
      .ok (.queryResponse .empty, answer.length) :=
    Codec.decode_of_admits hcodec (by unfold Codec.Admits; decide +kernel)
      (fun _ hr => nomatch hr) (by unfold Codec.Admits; decide +kernel)
  -- Were the subscription not announced, no feed would be pending.
  obtain ⟨page, feed, htold⟩ : ∃ page feed,
      passedOnNode.Tells Registry.subscribeToAll (.subscribeAck page feed) := by
    refine Classical.byContradiction fun hnone => ?_
    obtain ⟨hfeeds, -⟩ := hsilent fun page feed htold => hnone ⟨page, feed, htold⟩
    have hpending : (passedOnNode.call Registry.subscribeToAll).2.server.feeds.length = 1 := by
      decide +kernel
    rw [hfeeds] at hpending
    cases hpending
  obtain ⟨tracker, hheard, htrackers, hfeeds⟩ := hannounced page feed htold
  exact ⟨hreachable, hcodec, hmalformed _ rfl (by unfold Codec.Admits; decide +kernel),
    hstray _ hunread (by unfold Codec.Admits; decide +kernel),
    hunasked _ _ hread rfl (by unfold Codec.Admits; decide +kernel), page, feed, tracker, htold,
    hheard, htrackers, hfeeds⟩

/-- The words for a payload decide whether the error fits: these take a hundred bytes. -/
example : (({ passedOnNode with
      server := { wording := caseWording, codec := { maxMessageSize := 70 } } } : Node).call
        (Codec.frame 1 [7, 0, 0, 0])).1.toOption =
    some (Codec.frame 255 (write (Message.error Message.internalError
      "message too large: 100 bytes (max 70)"))) := by decide +kernel

end Node

end LedgerQuery
