/-
  LedgerQuery.Proofs.Resolve.Live

  Following a link through a backend that serves the pages of one store. A link to at most one
  record takes a single query, whose page tells none, one and many apart (`singleThrough_on`). A
  link to any number of records returns all of their views (`allThrough_on`); that was proved of a
  backend that counts its queries, and the counter does not change what comes back
  (`allThrough_counted`).
-/
import LedgerQuery.Proofs.Resolve.All

namespace LedgerQuery

/-! ## Nodes and their clients -/

namespace Node

/-- A client that a node can serve: its pages are within the limit of the vault, both sides have
    message limits that a length word can tell, and the recorded payloads survive as text. -/
structure Supports (n : Node) (client : RemoteConfig) : Prop where
  pages : max client.pageSize 1 ≤ n.vault.config.maxPageSize
  client : client.codec.Bounded
  server : n.server.codec.Bounded
  portable : ∀ r ∈ n.vault.store.records, r.payload.Portable Json.deepest

/-- A query whose request and reply are within the message limits of both sides. -/
def Fits (n : Node) (client : RemoteConfig) (q : Query) : Prop :=
  client.codec.Passes n.server.codec (.queryRequest q) ∧
    client.codec.Passes n.server.codec (n.replyTo q)

variable {n : Node} {client : RemoteConfig} {q : Query}

/-- A client has the page of a query that is within the limit of the node, if its frames fit. -/
theorem Supports.remote_query_on (h : n.Supports client) (hfits : n.Fits client q)
    (hsize : q.paging.size ≤ n.vault.config.maxPageSize) :
    ((Backend.remote .loopback client).query q).on n = (.ok (n.vault.store.page q), n) :=
  remote_query_of_le h.client h.server h.portable hfits.1 hfits.2 hsize

end Node

namespace Resolver

variable {σ α : Type} [RecordState α] {backend : Backend σ} {s : σ} {store : Store} {b : Builder}
  {views : List (Versioned α)} {r : Resolver α}

/-! ## Without the counter -/

/-- A query that is counted has the same answer. -/
theorem fetch_counted {answer : Except ResolveError (Page (Versioned α))} {s' : σ}
    (h : (fetch backend b).on s = (answer, s')) (asked : Nat) :
    (fetch backend.counted b).on (s, asked) = (answer, s', asked + 1) := by
  have hquery : (backend.counted.query b.build).on (s, asked) =
      (((backend.query b.build).on s).1, ((backend.query b.build).on s).2, asked + 1) := rfl
  rcases hplain : (backend.query b.build).on s with ⟨e | page, t⟩ <;>
    simp only [fetch, ResultSequence.page, Attempt.on_mapError, Attempt.on_bind, hquery,
      hplain] at h ⊢ <;>
    cases h <;> rfl

/-- One turn of the loop: the page that is asked for either ends it or is followed by the next. -/
theorem fetchFrom_on (backend : Backend σ) (b : Builder) (p : PageSpec)
    (found : List (Versioned α)) (s : σ) :
    (fetchFrom backend b p found).on s = match (fetch backend (b.page p)).on s with
      | (.error e, s) => (.error e, s)
      | (.ok page, s) =>
        if page.records.length < p.size.toNat ∨ page.total.toNat ≤ (found ++ page.records).length
        then (.ok (found ++ page.records), s)
        else (fetchFrom backend b p.next (found ++ page.records)).on s := by
  rw [fetchFrom, Attempt.on_bind]
  rcases (fetch backend (b.page p)).on s with ⟨e | page, s⟩
  · rfl
  · dsimp only
    split <;> rfl

theorem fetchFrom_counted {p : PageSpec} {found : List (Versioned α)}
    {outcome : Except ResolveError (List (Versioned α))} {s' : σ}
    (h : (fetchFrom backend b p found).on s = (outcome, s')) (asked : Nat) :
    ∃ total, (fetchFrom backend.counted b p found).on (s, asked) = (outcome, s', total) := by
  -- On the room that is left below the greatest total; a turn asks for the same page on both sides.
  generalize hleft : UInt64.size - found.length = left
  induction left using Nat.strongRecOn generalizing p found s asked with
  | ind left ih =>
    rw [fetchFrom_on] at h ⊢
    rcases hfetch : (fetch backend (b.page p) : Attempt _ _ (Page (Versioned α))).on s with
      ⟨e | page, t⟩
    · rw [hfetch] at h
      rw [fetch_counted hfetch]
      cases h
      exact ⟨_, rfl⟩
    · rw [hfetch] at h
      rw [fetch_counted hfetch]
      dsimp only at h ⊢
      by_cases hend : page.records.length < p.size.toNat ∨
          page.total.toNat ≤ (found ++ page.records).length
      · rw [if_pos hend] at h ⊢
        cases h
        exact ⟨_, rfl⟩
      · rw [if_neg hend] at h ⊢
        have hsize := p.size_pos
        have hbound := page.total.toNat_lt
        have hcount : UInt64.size = 18446744073709551616 := rfl
        rw [List.length_append] at hend
        refine ih (UInt64.size - (found ++ page.records).length) ?_ h (asked + 1) rfl
        rw [List.length_append]
        omega

/-- Following a link through a backend that counts is following it through the backend. -/
theorem allThrough_counted {outcome : Except ResolveError (List (Versioned α))} {s' : σ}
    (h : (r.allThrough backend).on s = (outcome, s')) (asked : Nat) :
    ∃ total, (r.allThrough backend.counted).on (s, asked) = (outcome, s', total) := by
  simp only [allThrough, Attempt.on_bind, Attempt.on_known, Attempt.on_look] at h ⊢
  cases hbuilder : r.builder with
  | error e =>
    rw [hbuilder] at h
    cases h
    exact ⟨_, rfl⟩
  | ok b =>
    have hlimit : backend.counted.maxPageSize (s, asked) = backend.maxPageSize s := rfl
    rw [hbuilder] at h
    dsimp only at h ⊢
    rw [hlimit]
    cases hfirst : (firstPage (max (backend.maxPageSize s) 1) : Except ResolveError PageSpec) with
    | error e =>
      rw [hfirst] at h
      cases h
      exact ⟨_, rfl⟩
    | ok p =>
      rw [hfirst] at h
      exact fetchFrom_counted h asked

/-- Following a link to any number of records through a backend that serves the pages of a
    store. -/
theorem allThrough_on {size : UInt32}
    (hb : r.restrict (.forType (RecordState.recordType α) r.status) = .ok b)
    (hlimit : backend.maxPageSize s = size) (hsize : size ≠ 0)
    (hserves : Serves backend s store (b.sortBy (.on .reference .ascending)) size
      (pagesFor size.toNat views.length))
    (hviews : Views (store.select (b.sortBy (.on .reference .ascending)).build) views)
    (hcount : views.length ≤ PageSpec.lastNumber.toNat * size.toNat) :
    (r.allThrough backend).on s = (.ok views, s) := by
  cases hrun : (r.allThrough backend).on s with
  | mk outcome s' =>
    obtain ⟨total, hcounted⟩ := allThrough_counted hrun 0
    rw [allThrough_counted_on hb hlimit hsize hserves hviews hcount] at hcounted
    cases hcounted
    rfl

/-! ## At most one record -/

/-- The size of the only page that is asked for, which holds two records if the backend allows
    it and at least one in any case. -/
theorem one_le_min_max (limit : UInt32) : 1 ≤ (min (max limit 1) 2).toNat := by
  have hmax : 1 ≤ max limit 1 := by
    show 1 ≤ if limit ≤ 1 then 1 else limit
    split
    · exact UInt32.le_refl 1
    · exact UInt32.le_of_lt (UInt32.not_le.1 ‹_›)
  show 1 ≤ (if max limit 1 ≤ 2 then max limit 1 else 2).toNat
  split
  · exact UInt32.le_iff_toNat_le.1 hmax
  · decide

theorem min_max_ne_zero (limit : UInt32) : min (max limit 1) 2 ≠ 0 := by
  intro hzero
  have hpos := one_le_min_max limit
  rw [hzero] at hpos
  exact absurd hpos (by decide)

/-- The first page of a query holds the first views, and tells how many there are. -/
theorem fetch_first_on {p : PageSpec} (hnumber : p.number = 1)
    (hquery : (backend.query (b.page p).build).on s = (.ok (store.page (b.page p).build), s))
    (hviews : Views (store.select b.build) views) :
    (fetch backend (b.page p) : Attempt _ _ (Page (Versioned α))).on s =
      (.ok ⟨views.take p.size.toNat, UInt64.ofNat views.length⟩, s) := by
  rw [fetch_on hquery hviews, hnumber, show (1 : UInt32).toNat - 1 = 0 from rfl, Nat.zero_mul,
    List.drop_zero]

omit [RecordState α] in
/-- The order in which records come makes no difference. -/
theorem atMostOne_perm {found others : List (Versioned α)} (h : found.Perm others) :
    atMostOne found = atMostOne others := by
  by_cases hmany : 1 < others.length
  · rw [atMostOne, h.length_eq, atMostOne, if_pos hmany, if_pos hmany]
  · match others with
    | [] => rw [h.eq_nil]
    | [v] => rw [h.eq_singleton]
    | _ :: _ :: _ => exact absurd (by simp) hmany

/-- Following a link to at most one record takes the first page of the query alone: its records
    are the views if there is no more than one, and the total tells how many there are. -/
theorem singleThrough_on {p : PageSpec}
    (hb : r.restrict (.forType (RecordState.recordType α) r.status) = .ok b)
    (hnumber : p.number = 1) (hsize : p.size = min (max (backend.maxPageSize s) 1) 2)
    (hquery : (backend.query (b.page p).build).on s = (.ok (store.page (b.page p).build), s))
    (hviews : Views (store.select b.build) views) (hcount : views.length < UInt64.size) :
    (r.singleThrough backend).on s = (atMostOne views, s) := by
  have hbuilder : r.builder = .ok b := builder_eq_ok_iff.2 hb
  have htotal : (UInt64.ofNat views.length).toNat = views.length :=
    UInt64.toNat_ofNat_of_lt' hcount
  have hmany : 1 < UInt64.ofNat views.length ↔ 1 < views.length := by
    rw [UInt64.lt_iff_toNat_lt, htotal]
    rfl
  rw [singleThrough, Attempt.on_bind, hbuilder, Attempt.on_known]
  dsimp only
  rw [Attempt.on_bind, Attempt.on_look, ← hsize, firstPage_size hnumber]
  dsimp only
  rw [Attempt.on_bind, fetch_first_on hnumber hquery hviews]
  dsimp only
  by_cases h : 1 < views.length
  · rw [if_pos (hmany.2 h), htotal, atMostOne, if_pos h]
    rfl
  · -- The page has room for one record, so it holds all views.
    have hroom : views.length ≤ p.size.toNat := by
      have hpos := one_le_min_max (backend.maxPageSize s)
      rw [hsize]
      omega
    rw [if_neg (fun hlt => h (hmany.1 hlt)), Attempt.on_known, List.take_of_length_le hroom,
      atMostOne, if_neg h]

end Resolver

end LedgerQuery
