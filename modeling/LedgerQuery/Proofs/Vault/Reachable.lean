/-
  LedgerQuery.Proofs.Vault.Reachable

  The vaults that calls bring about. Transactions are committed, queries are tracked, streams are
  read and let go, in any order; what holds of every such vault is proved here once: its store is
  sound (`Reachable.sound`), and the streams of its trackers are those handed out so far
  (`Reachable.stream_lt`), so that a new stream gets a name of its own.
-/
import LedgerQuery.Proofs.Store.Page
import LedgerQuery.Proofs.Vault.Journal

namespace LedgerQuery.Vault

variable {v w : Vault} {now : Instant} {t : Transaction} {change : Update}

/-! ## What the calls do -/

/-- A commit that goes through is one of the store; the trackers are told of the change. -/
theorem commit_eq_ok (h : v.commit now t = .ok (change, w)) :
    v.store.commit v.config.isRelevant now t = .ok (change, w.store) ∧
      w = { v with
        store := w.store
        trackers := v.trackers.filterMap (Tracker.notify? change) } := by
  unfold commit at h
  cases hcommit : v.store.commit v.config.isRelevant now t with
  | error e =>
    rw [hcommit] at h
    cases h
  | ok result =>
    rw [hcommit] at h
    cases h
    exact ⟨rfl, rfl⟩

/-- A page that is not too large is answered. -/
theorem query_of_le {q : Query} (h : q.paging.size ≤ v.config.maxPageSize) :
    v.query q = .ok (v.store.page q) := if_neg (UInt32.not_lt.2 h)

/-- A query that is answered asks for a page that is not too large, and gets it. -/
theorem query_eq_ok_iff {q : Query} {page : Page StoredRecord} :
    v.query q = .ok page ↔ q.paging.size ≤ v.config.maxPageSize ∧ v.store.page q = page := by
  unfold query
  split
  · rename_i hlarge
    simp [UInt32.not_le.2 hlarge]
  · rename_i hsize
    simp [UInt32.not_lt.1 hsize]

/-- A page that a vault answers with holds records of its store. -/
theorem mem_of_query {q : Query} {page : Page StoredRecord} (h : v.query q = .ok page)
    {r : StoredRecord} (hr : r ∈ page.records) : r ∈ v.store.records := by
  obtain ⟨-, rfl⟩ := query_eq_ok_iff.1 h
  exact Store.mem_of_mem_page hr

/-- A tracker that stays keeps its stream and its criteria. -/
theorem of_notify?_eq_some {old new : Tracker} (h : old.notify? change = some new) :
    new.stream = old.stream ∧ new.criteria = old.criteria := by
  unfold Tracker.notify? at h
  dsimp only at h
  split at h
  · split at h
    · cases h
      exact ⟨rfl, rfl⟩
    · cases h
  · obtain ⟨channel, -, rfl⟩ := Option.map_eq_some_iff.1 h
    exact ⟨rfl, rfl⟩

/-- A commit opens no stream, and leaves the trackers in their order. -/
theorem streams_commit (h : v.commit now t = .ok (change, w)) :
    (w.trackers.map Tracker.stream).Sublist (v.trackers.map Tracker.stream) ∧
      w.nextStream = v.nextStream := by
  obtain ⟨-, hw⟩ := commit_eq_ok h
  rw [hw]
  refine ⟨?_, rfl⟩
  generalize v.trackers = trackers
  induction trackers with
  | nil => exact List.Sublist.slnil
  | cons old rest ih =>
    cases hnotify : old.notify? change with
    | none =>
      rw [List.filterMap_cons_none hnotify]
      exact ih.cons _
    | some new =>
      rw [List.filterMap_cons_some hnotify, List.map_cons, List.map_cons,
        (of_notify?_eq_some hnotify).1]
      exact ih.cons_cons _

/-- Changing channels renames no stream. -/
theorem streams_updateChannel (stream : StreamId) (f : Channel Update → Channel Update) :
    (v.updateChannel stream f).trackers.map Tracker.stream = v.trackers.map Tracker.stream := by
  rw [updateChannel, List.map_map]
  refine List.map_congr_left fun t _ => ?_
  rw [Function.comp_apply]
  split <;> rfl

/-- A query is tracked under the next name; if it fails, its stream is let go again. -/
theorem track_cases (v : Vault) (q : Query) :
    (∃ page, v.track q = (.ok (page, v.nextStream), (v.subscribe q.criteria).2)) ∨
      ∃ e, v.track q = (.error e, (v.subscribe q.criteria).2.release v.nextStream) := by
  cases hquery : (v.subscribe q.criteria).2.query q with
  | ok page =>
    refine .inl ⟨page, ?_⟩
    simp only [track, hquery]
    rfl
  | error e =>
    refine .inr ⟨e, ?_⟩
    simp only [track, hquery]
    rfl

/-- A query that is answered is tracked with the same page. -/
theorem track_of_query {q : Query} {page : Page StoredRecord} (h : v.query q = .ok page) :
    v.track q = (.ok (page, v.nextStream), (v.subscribe q.criteria).2) := by
  have hquery : (v.subscribe q.criteria).2.query q = .ok page := h
  simp only [track, hquery]
  rfl

/-- The page of a query that is tracked is that of the query itself. -/
theorem query_of_track {q : Query} {page : Page StoredRecord} {stream : StreamId}
    (h : v.track q = (.ok (page, stream), w)) : v.query q = .ok page := by
  cases hquery : v.query q with
  | ok found =>
    rw [track_of_query hquery] at h
    cases h
    rfl
  | error e =>
    have hsame : (v.subscribe q.criteria).2.query q = .error e := hquery
    simp only [track, hsame] at h
    cases h

/-- Tracking a query adds a tracker under the next name, and changes nothing that is recorded. -/
theorem track_snd (q : Query) :
    (v.track q).2.store = v.store ∧ (v.track q).2.config = v.config ∧
      (v.track q).2.nextStream = v.nextStream + 1 ∧
      (v.track q).2.trackers.map Tracker.stream =
        v.trackers.map Tracker.stream ++ [v.nextStream] := by
  have hstreams : (v.subscribe q.criteria).2.trackers.map Tracker.stream =
      v.trackers.map Tracker.stream ++ [v.nextStream] := List.map_append
  rcases track_cases v q with ⟨page, htrack⟩ | ⟨e, htrack⟩
  · rw [htrack]
    exact ⟨rfl, rfl, rfl, hstreams⟩
  · rw [htrack]
    exact ⟨rfl, rfl, rfl, (streams_updateChannel _ _).trans hstreams⟩

/-! ## Names of streams -/

/-- The streams of the trackers have been handed out before. -/
def Named (v : Vault) : Prop := ∀ stream ∈ v.trackers.map Tracker.stream, stream < v.nextStream

theorem Named.commit (h : v.Named) (hcommit : v.commit now t = .ok (change, w)) : w.Named := by
  obtain ⟨hsublist, hnext⟩ := streams_commit hcommit
  intro stream hmem
  rw [hnext]
  exact h stream (hsublist.subset hmem)

theorem Named.updateChannel (h : v.Named) (stream : StreamId)
    (f : Channel Update → Channel Update) : (v.updateChannel stream f).Named := by
  intro name hmem
  rw [streams_updateChannel] at hmem
  exact h name hmem

theorem Named.subscribe (h : v.Named) (c : Criteria) : (v.subscribe c).2.Named := by
  intro stream hmem
  rw [Vault.subscribe, List.map_append] at hmem
  rcases List.mem_append.1 hmem with hold | hnew
  · exact Nat.lt_succ_of_lt (h stream hold)
  · rw [List.mem_singleton.1 hnew]
    exact Nat.lt_succ_self _

theorem Named.track (h : v.Named) (q : Query) : (v.track q).2.Named := by
  rcases track_cases v q with ⟨page, htrack⟩ | ⟨e, htrack⟩
  · rw [htrack]
    exact h.subscribe q.criteria
  · rw [htrack]
    exact (h.subscribe q.criteria).updateChannel _ _

/-! ## Reachable vaults -/

/-- A vault that calls have brought about from an empty one. A transaction has at most as many
    outputs as an index of a reference can count; a call that is rejected changes nothing and is
    left out. -/
inductive Reachable : Vault → Prop where
  | empty (config : VaultConfig) : Reachable { config }
  | commit {v w : Vault} {now : Instant} {t : Transaction} {change : Update} (before : Reachable v)
      (size : t.outputs.length ≤ UInt32.size) (committed : v.commit now t = .ok (change, w)) :
      Reachable w
  | track {v : Vault} (before : Reachable v) (q : Query) : Reachable (v.track q).2
  | receive {v : Vault} (before : Reachable v) (stream : StreamId) : Reachable (v.receive stream).2
  | release {v : Vault} (before : Reachable v) (stream : StreamId) : Reachable (v.release stream)

/-- The store of a reachable vault keeps the invariant of stores. -/
theorem Reachable.sound (h : v.Reachable) : v.store.Sound := by
  induction h with
  | empty config => exact .empty
  | commit _ hsize hcommitted ih => exact ih.commit hsize (commit_eq_ok hcommitted).1
  | track _ q ih =>
    rw [(track_snd q).1]
    exact ih
  | receive _ stream ih => exact ih
  | release _ stream ih => exact ih

theorem Reachable.named (h : v.Reachable) : v.Named := by
  induction h with
  | empty config => exact fun _ hmem => nomatch hmem
  | commit _ _ hcommitted ih => exact ih.commit hcommitted
  | track _ q ih => exact ih.track q
  | receive _ stream ih => exact ih.updateChannel stream _
  | release _ stream ih => exact ih.updateChannel stream _

theorem Reachable.stream_lt (h : v.Reachable) : ∀ t ∈ v.trackers, t.stream < v.nextStream :=
  fun _ ht => h.named _ (List.mem_map_of_mem ht)

/-- Offering transactions, accepted or not, leads to a reachable vault. -/
theorem Reachable.recordAll (config : VaultConfig) {calls : List (Instant × Transaction)}
    (hsize : ∀ call ∈ calls, call.2.outputs.length ≤ UInt32.size) :
    (Vault.recordAll { config } calls).1.Reachable := by
  suffices hrun : ∀ state : Vault × List Entry, state.1.Reachable →
      (calls.foldl offer state).1.Reachable from hrun _ (.empty config)
  induction calls with
  | nil => exact fun _ hstate => hstate
  | cons call rest ih =>
    intro state hstate
    refine ih (fun c hc => hsize c (List.mem_cons_of_mem _ hc)) _ ?_
    unfold offer
    cases hcommit : state.1.commit call.1 call.2 with
    | error e => exact hstate
    | ok result => exact hstate.commit (hsize call List.mem_cons_self) hcommit

end LedgerQuery.Vault
