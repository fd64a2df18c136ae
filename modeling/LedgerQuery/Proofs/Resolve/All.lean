/-
  LedgerQuery.Proofs.Resolve.All

  Following a link to any number of records, page after page. A backend that serves the pages of
  one store (`Serves`) is asked for exactly as many pages as the matching records fill, and the
  pages put together are their views (`fetchFrom_counted_on`): what has come after `k` pages is the
  first `k * size` views. Main statement: `all_returns_each_once`, for the node itself and for
  clients over frames.
-/
import LedgerQuery.Proofs.Backend.Loopback
import LedgerQuery.Proofs.Service.View
import LedgerQuery.Proofs.Vault.History
import LedgerQuery.Resolve.Basic

namespace LedgerQuery

variable {σ : Type}

/-- A backend that counts the queries that it is asked. -/
def Backend.counted (backend : Backend σ) : Backend (σ × Nat) where
  query q := .of fun (s, asked) =>
    let (answer, s) := (backend.query q).on s
    (answer, s, asked + 1)
  subscribe q := .of fun (s, asked) =>
    let (answer, s) := (backend.subscribe q).on s
    (answer, s, asked)
  release stream := fun (s, asked) => (backend.release stream s, asked)
  maxPageSize := fun (s, _) => backend.maxPageSize s

namespace Resolver

/-! ## How many pages -/

/-- How many pages of a size are asked for to see a number of records; the first one always is. -/
def pagesFor (size count : Nat) : Nat := max 1 ((count + size - 1) / size)

variable {size count k : Nat}

/-- The pages before the last one do not hold all records. -/
theorem mul_lt_of_lt_pagesFor (hsize : 0 < size) (hk : 0 < k) (h : k < pagesFor size count) :
    k * size < count := by
  have hceil : k + 1 ≤ (count + size - 1) / size := by unfold pagesFor at h; omega
  rw [Nat.le_div_iff_mul_le hsize, Nat.add_mul] at hceil
  omega

/-- All pages together do. -/
theorem le_pagesFor_mul (hsize : 0 < size) : count ≤ pagesFor size count * size := by
  have hceil : (count + size - 1) / size * size ≤ pagesFor size count * size :=
    Nat.mul_le_mul_right _ (Nat.le_max_right _ _)
  have hdiv := Nat.div_add_mod (count + size - 1) size
  have hmod := Nat.mod_lt (count + size - 1) hsize
  rw [Nat.mul_comm] at hdiv
  omega

/-! ## Page after page -/

variable {α : Type} [RecordState α] {backend : Backend σ} {s : σ} {store : Store} {b : Builder}
  {size : UInt32} {last : Nat} {views : List (Versioned α)} {p : PageSpec}

/-- The builder of a link is what it makes of the builder for its type. -/
theorem builder_eq_ok_iff {r : Resolver α} :
    r.builder = .ok b ↔ r.restrict (.forType (RecordState.recordType α) r.status) = .ok b := by
  rw [builder]
  cases r.restrict (.forType (RecordState.recordType α) r.status) <;> simp [Except.mapError]

/-- A backend answers with the pages of a store, up to a page number, and nothing changes. -/
def Serves (backend : Backend σ) (s : σ) (store : Store) (b : Builder) (size : UInt32)
    (last : Nat) : Prop :=
  ∀ p : PageSpec, p.size = size → p.number.toNat ≤ last →
    (backend.query (b.page p).build).on s = (.ok (store.page (b.page p).build), s)

/-- A page that is asked for holds the views at its place, and tells how many there are. -/
theorem fetch_on {s' : σ}
    (hquery : (backend.query (b.page p).build).on s = (.ok (store.page (b.page p).build), s'))
    (hviews : Views (store.select b.build) views) :
    (fetch backend (b.page p) : Attempt _ _ (Page (Versioned α))).on s =
      (.ok ⟨(views.drop ((p.number.toNat - 1) * p.size.toNat)).take p.size.toNat,
        UInt64.ofNat views.length⟩, s') := by
  have hpage : Views (store.page (b.page p).build).records
      ((views.drop ((p.number.toNat - 1) * p.size.toNat)).take p.size.toNat) := by
    rw [Store.page_records, Store.select_page]
    exact List.forall₂_take _ (List.forall₂_drop _ hviews)
  have htotal : (store.page (b.page p).build).total = UInt64.ofNat views.length :=
    congrArg UInt64.ofNat hviews.length_eq
  rw [fetch, Attempt.on_mapError, ResultSequence.page_on_of_views hquery hpage, htotal]
  rfl

/-- The same through a backend that counts. -/
theorem fetch_counted_on (hserves : Serves backend s store b size last)
    (hviews : Views (store.select b.build) views) (hsize : p.size = size)
    (hlast : p.number.toNat ≤ last) (asked : Nat) :
    (fetch backend.counted (b.page p) : Attempt _ _ (Page (Versioned α))).on (s, asked) =
      (.ok ⟨(views.drop ((p.number.toNat - 1) * size.toNat)).take size.toNat,
        UInt64.ofNat views.length⟩, s, asked + 1) := by
  have hquery : (backend.counted.query (b.page p).build).on (s, asked) =
      (.ok (store.page (b.page p).build), s, asked + 1) := by
    simp only [Backend.counted, Attempt.on_of, hserves p hsize hlast]
  rw [fetch_on hquery hviews, hsize]

/-- One turn of the loop: it ends when all views have come, and goes on with the next page
    otherwise. -/
theorem fetchFrom_counted_step (hserves : Serves backend s store b size last)
    (hviews : Views (store.select b.build) views) (hsize : p.size = size)
    (hcount : views.length ≤ PageSpec.lastNumber.toNat * size.toNat)
    (hlast : p.number.toNat ≤ last) (asked : Nat) :
    (fetchFrom backend.counted b p
        (views.take ((p.number.toNat - 1) * size.toNat))).on (s, asked) =
      if views.length ≤ p.number.toNat * size.toNat then (.ok views, s, asked + 1)
      else (fetchFrom backend.counted b p.next
        (views.take (p.number.toNat * size.toNat))).on (s, asked + 1) := by
  have hend : p.number.toNat * size.toNat =
      (p.number.toNat - 1) * size.toNat + size.toNat := by
    rw [← Nat.succ_mul, Nat.succ_eq_add_one, Nat.sub_add_cancel p.number_pos]
  -- What comes with the page continues what came before it.
  have hfound : views.take ((p.number.toNat - 1) * size.toNat) ++
      (views.drop ((p.number.toNat - 1) * size.toNat)).take size.toNat =
        views.take (p.number.toNat * size.toNat) := by
    rw [← List.take_add, hend]
  -- The announced total is the number of views, which fits into a word.
  have htotal : (UInt64.ofNat views.length).toNat = views.length := by
    have hbound := Nat.mul_le_mul_left PageSpec.lastNumber.toNat (Nat.le_of_lt size.toNat_lt)
    have hnumber : PageSpec.lastNumber.toNat = 4294967295 := rfl
    rw [UInt64.toNat_ofNat', Nat.mod_eq_of_lt (by omega)]
  rw [fetchFrom, Attempt.on_bind, fetch_counted_on hserves hviews hsize hlast]
  dsimp only
  rw [hfound, htotal, hsize]
  by_cases hall : views.length ≤ p.number.toNat * size.toNat
  · rw [if_pos hall, List.take_of_length_le hall, if_pos (.inr (Nat.le_refl _))]
    rfl
  · -- More is to come, so the page is full and neither way out is open.
    have hshort : ¬ (((views.drop ((p.number.toNat - 1) * size.toNat)).take size.toNat).length <
        size.toNat ∨ views.length ≤ (views.take (p.number.toNat * size.toNat)).length) := by
      rw [List.length_take, List.length_take, List.length_drop]
      omega
    rw [if_neg hall, if_neg hshort]

/-- Asking from one page on, with what the pages before it hold, returns all views and asks for
    each page from there to the last one once. -/
theorem fetchFrom_counted_on
    (hserves : Serves backend s store b size (pagesFor size.toNat views.length))
    (hviews : Views (store.select b.build) views)
    (hcount : views.length ≤ PageSpec.lastNumber.toNat * size.toNat) (rest : Nat)
    (hsize : p.size = size)
    (hrest : p.number.toNat + rest = pagesFor size.toNat views.length) (asked : Nat) :
    (fetchFrom backend.counted b p
        (views.take ((p.number.toNat - 1) * size.toNat))).on (s, asked) =
      (.ok views, s, asked + rest + 1) := by
  have hpos : 0 < size.toNat := hsize ▸ p.size_pos
  rw [fetchFrom_counted_step hserves hviews hsize hcount (by omega)]
  -- On the pages that are left after this one.
  induction rest generalizing p asked with
  | zero =>
    have hall : views.length ≤ p.number.toNat * size.toNat := by
      rw [Nat.add_zero] at hrest
      exact hrest ▸ le_pagesFor_mul hpos
    rw [if_pos hall, Nat.add_zero]
  | succ rest ih =>
    have hlt : p.number.toNat * size.toNat < views.length :=
      mul_lt_of_lt_pagesFor hpos p.number_pos (by omega)
    have hmore : p.number ≠ PageSpec.lastNumber := fun heq =>
      absurd hcount (Nat.not_le_of_lt (heq ▸ hlt))
    have hnext : p.next.number.toNat = p.number.toNat + 1 := PageSpec.toNat_number_next hmore
    have hsize' : p.next.size = size := p.size_next.trans hsize
    have hstep := fetchFrom_counted_step hserves hviews hsize' hcount (by omega) (asked + 1)
    rw [hnext, Nat.add_sub_cancel] at hstep
    rw [if_neg (Nat.not_le_of_lt hlt), hstep, ← hnext, ih hsize' (by omega)]
    rw [Nat.add_assoc asked, Nat.add_comm 1 rest]

/-- A page size that is not zero is taken as it is. -/
theorem max_one (h : size ≠ 0) : max size 1 = size := by
  show (if size ≤ 1 then 1 else size) = size
  split
  · rename_i hle
    have hne : size.toNat ≠ 0 := fun heq => h (UInt32.toNat_inj.1 heq)
    have hle' : size.toNat ≤ 1 := UInt32.le_iff_toNat_le.1 hle
    exact UInt32.toNat_inj.1 (show 1 = size.toNat by omega)
  · rfl

/-- A first page is determined by its size. -/
theorem firstPage_size (hnumber : p.number = 1) :
    (firstPage p.size : Except ResolveError PageSpec) = .ok p := by
  obtain ⟨number, size, hne, hne'⟩ := p
  obtain rfl : number = 1 := hnumber
  simp [firstPage, PageSpec.first, PageSpec.ofParts, hne', Except.mapError]

/-- Following a link through a backend that serves the pages of a store. -/
theorem allThrough_counted_on {r : Resolver α}
    (hb : r.restrict (.forType (RecordState.recordType α) r.status) = .ok b)
    (hlimit : backend.maxPageSize s = size) (hsize : size ≠ 0)
    (hserves : Serves backend s store (b.sortBy (.on .reference .ascending)) size
      (pagesFor size.toNat views.length))
    (hviews : Views (store.select (b.sortBy (.on .reference .ascending)).build) views)
    (hcount : views.length ≤ PageSpec.lastNumber.toNat * size.toNat) :
    (r.allThrough backend.counted).on (s, 0) =
      (.ok views, s, pagesFor size.toNat views.length) := by
  have hbuilder : r.builder = .ok b := builder_eq_ok_iff.2 hb
  have hmax : max (backend.counted.maxPageSize (s, 0)) 1 = size := by
    show max (backend.maxPageSize s) 1 = size
    rw [hlimit, max_one hsize]
  let first : PageSpec := ⟨1, size, by decide, hsize⟩
  have hfirst : firstPage (max (backend.counted.maxPageSize (s, 0)) 1) = .ok first := by
    rw [hmax]
    exact firstPage_size (p := first) rfl
  have hpages : 1 ≤ pagesFor size.toNat views.length := Nat.le_max_left _ _
  -- The loop starts with the first page, nothing in front of it and no query counted.
  have hloop := fetchFrom_counted_on (p := first) hserves hviews hcount
    (pagesFor size.toNat views.length - 1) rfl (Nat.add_sub_cancel' hpages) 0
  rw [allThrough, Attempt.on_bind, hbuilder, Attempt.on_known]
  dsimp only
  rw [Attempt.on_bind, Attempt.on_look, hfirst]
  dsimp only
  have hnone : views.take (((1 : UInt32).toNat - 1) * size.toNat) = [] := by
    rw [show (1 : UInt32).toNat - 1 = 0 from rfl, Nat.zero_mul, List.take_zero]
  rw [Nat.zero_add, Nat.sub_add_cancel hpages, hnone] at hloop
  exact hloop

/-! ## The node and its clients -/

variable {n : Node}

/-- The node itself serves pages of the greatest size that it allows. -/
theorem serves_host (h : n.vault.config.maxPageSize = size) (b : Builder) (last : Nat) :
    Serves Backend.host n n.vault.store b size last :=
  fun _ hp _ => host_query_of_le (UInt32.le_of_eq (hp.trans h.symm))

/-- A client serves pages that the node allows and whose frames fit. -/
theorem serves_remote {client : RemoteConfig} (h : size ≤ n.vault.config.maxPageSize)
    (hclient : client.codec.Bounded) (hserver : n.server.codec.Bounded)
    (hportable : ∀ r ∈ n.vault.store.records, r.payload.Portable Json.deepest)
    (hfits : ∀ p : PageSpec, p.size = size → p.number.toNat ≤ last →
      client.codec.Passes n.server.codec (.queryRequest (b.page p).build) ∧
        client.codec.Passes n.server.codec (n.replyTo (b.page p).build)) :
    Serves (Backend.remote .loopback client) n n.vault.store b size last := by
  intro p hp hlast
  obtain ⟨hrequest, hreply⟩ := hfits p hp hlast
  exact remote_query_of_le hclient hserver hportable hrequest hreply
    (UInt32.le_trans (UInt32.le_of_eq hp) h)

/-- Following a link through a backend returns each record that it leads to once, in ascending
    order of references, and asks for as many pages as these records fill. The records are those of
    a reachable vault that the criteria of the link admit, whatever page, order and status these
    name. The list is the same for every page size, on the node itself and, if its frames fit, for
    a client. -/
theorem all_returns_each_once {v : Vault} (hv : v.Reachable) (r : Resolver α) {b : Builder}
    (hb : r.restrict (.forType (RecordState.recordType α) r.status) = .ok b)
    (hviews : ∀ record ∈ v.store.records, b.criteria.admits record = true →
      ∃ view : Versioned α, record.view α = .ok view) :
    let matching := v.store.records.filter b.criteria.admits
    ∃ (found : List StoredRecord) (views : List (Versioned α)),
      found.Perm matching ∧ Views found views ∧
      views.Pairwise (fun x y => compare x.reference y.reference = .lt) ∧
      ∀ (n : Node) (size : UInt32), n.vault.store = v.store → size ≠ 0 →
        matching.length ≤ (UInt32.size - 1) * size.toNat →
        let pages := max 1 ((matching.length + size.toNat - 1) / size.toNat)
        (n.vault.config.maxPageSize = size →
          (r.all (.host Backend.host.counted)).on (n, 0) = (.ok views, n, pages)) ∧
        ∀ client : RemoteConfig, client.pageSize = size → size ≤ n.vault.config.maxPageSize →
          client.codec.Bounded → n.server.codec.Bounded →
          (∀ record ∈ n.vault.store.records, record.payload.Portable Json.deepest) →
          (∀ p : PageSpec, p.size = size → p.number.toNat ≤ pages →
            let q := ((b.sortBy (.on .reference .ascending)).page p).build
            client.codec.Passes n.server.codec (.queryRequest q) ∧
              client.codec.Passes n.server.codec (n.replyTo q)) →
          (r.all (.remote (Backend.remote .loopback client).counted)).on (n, 0) =
            (.ok views, n, pages) := by
  intro matching
  have hperm := v.store.select_perm (b.sortBy (.on .reference .ascending)).build
  obtain ⟨views, hfound⟩ := exists_views (α := α) fun record hrecord =>
    let ⟨hmem, hadmits⟩ := List.mem_filter.1 (hperm.mem_iff.1 hrecord)
    hviews record hmem hadmits
  have hascending := Store.select_ascending hv.sound.indexed
    (q := (b.sortBy (.on .reference .ascending)).build) rfl
  have hlength : views.length = matching.length := hfound.length_eq.symm.trans hperm.length_eq
  refine ⟨_, views, hperm, hfound, ?_, ?_⟩
  · have hrefs : (views.map Versioned.reference).Pairwise (compare · · = .lt) := by
      rw [hfound.references]
      exact List.pairwise_map.2 hascending
    exact List.pairwise_map.1 hrefs
  · intro n size hstore hsize hcount pages
    have hpages : pages = pagesFor size.toNat views.length := by rw [hlength]; rfl
    -- From here on the node and the page size are any; the views are those found above.
    rw [← hstore] at hfound
    have hcount' : views.length ≤ PageSpec.lastNumber.toNat * size.toNat := by
      rw [hlength]
      exact hcount
    refine ⟨fun hlimit => ?_, fun client hclient hallowed hbounded hserver hportable hfits => ?_⟩
    · rw [hpages]
      exact allThrough_counted_on hb hlimit hsize (serves_host hlimit _ _) hfound hcount'
    · rw [hpages] at hfits ⊢
      have hlimit : (Backend.remote .loopback client).maxPageSize n = size := by
        show max client.pageSize 1 = size
        rw [hclient, max_one hsize]
      exact allThrough_counted_on hb hlimit hsize
        (serves_remote hallowed hbounded hserver hportable hfits) hfound hcount'

/-- The link to all records, whatever their status. -/
def everyRecord : Resolver AnyRecord where
  restrict := .ok
  pointsTo _ := true
  status := .all

/-- The query for one page of all records. -/
def everyRecordPage (p : PageSpec) : Query :=
  (((Builder.forType .any .all).sortBy (.on .reference .ascending)).page p).build

/-- A record that is opened and passed on twice: three versions, in the order of references. -/
def passedOnTwiceNode : Node :=
  { passedOnNode with vault := (Vault.recordAll {} Vault.passedOnTwice).1 }

/-- The reply with a page of these records; nothing has to be sorted for it. -/
theorem replyTo_everyRecordPage {p : PageSpec} (hsize : p.size = 2) :
    passedOnTwiceNode.replyTo (everyRecordPage p) =
      .queryResponse ⟨(passedOnTwiceNode.vault.store.records.drop p.offset.toNat).take 2, 3⟩ := by
  have hsorted : (passedOnTwiceNode.vault.store.records.filter
      (Builder.forType .any .all).criteria.admits).Pairwise
        fun a b => ((SortOrder.on .reference .ascending).order a b).isLE := by decide +kernel
  have hselect : passedOnTwiceNode.vault.store.select (everyRecordPage p) =
      passedOnTwiceNode.vault.store.records := (List.mergeSort_of_pairwise hsorted).trans rfl
  have hallowed : (everyRecordPage p).paging.size ≤ passedOnTwiceNode.vault.config.maxPageSize := by
    show p.size ≤ 10000
    rw [hsize]
    decide
  rw [Node.replyTo_eq, Vault.query_of_le hallowed, Store.page, hselect]
  show Message.queryResponse ⟨(List.drop _ _).take p.size.toNat, _⟩ = _
  rw [hsize]
  rfl

/-- The frames of both pages of two records fit. -/
theorem passes_everyRecordPage (p : PageSpec) (hsize : p.size = 2) (hnumber : p.number.toNat ≤ 2) :
    (RemoteConfig.codec {}).Passes passedOnTwiceNode.server.codec
        (.queryRequest (everyRecordPage p)) ∧
      (RemoteConfig.codec {}).Passes passedOnTwiceNode.server.codec
        (passedOnTwiceNode.replyTo (everyRecordPage p)) := by
  have hpages : p = ⟨1, 2, by decide, by decide⟩ ∨ p = ⟨2, 2, by decide, by decide⟩ := by
    have hpos := p.number_pos
    obtain ⟨number, size, hne, hne'⟩ := p
    obtain rfl : size = 2 := hsize
    dsimp only at hpos hnumber
    rcases (by omega : number.toNat = 1 ∨ number.toNat = 2) with h | h
    · obtain rfl : number = 1 := UInt32.toNat_inj.1 h
      exact .inl rfl
    · obtain rfl : number = 2 := UInt32.toNat_inj.1 h
      exact .inr rfl
  rw [replyTo_everyRecordPage hsize]
  rcases hpages with rfl | rfl <;> unfold Codec.Passes Codec.Admits <;> decide +kernel

/-- Three records in pages of two, on a node with that limit and by a client of another one. -/
theorem all_returns_each_once_passedOnTwice :
    let v := passedOnTwiceNode.vault
    let limited : Node := { passedOnNode with vault := { v with config := { maxPageSize := 2 } } }
    let client : RemoteConfig := { pageSize := 2 }
    ∃ views : List (Versioned AnyRecord), views.length = 3 ∧
      (everyRecord.all (.host Backend.host.counted)).on (limited, 0) = (.ok views, limited, 2) ∧
      (everyRecord.all (.remote (Backend.remote .loopback client).counted)).on
        (passedOnTwiceNode, 0) = (.ok views, passedOnTwiceNode, 2) := by
  intro v limited client
  have hv : v.Reachable := .recordAll {} (by decide)
  have hcount :
      (v.store.records.filter (Builder.forType .any .all).criteria.admits).length = 3 := by
    decide
  have hportable : ∀ r ∈ v.store.records, r.payload.Portable Json.deepest :=
    List.forall_mem_cons.2
      ⟨.null, List.forall_mem_cons.2 ⟨.null, List.forall_mem_singleton.2 .null⟩⟩
  have hbounded : client.codec.Bounded := by unfold Codec.Bounded; decide +kernel
  obtain ⟨found, views, hperm, hviews, -, hruns⟩ :=
    all_returns_each_once hv everyRecord (b := .forType .any .all) rfl
      (fun record _ _ => ⟨_, rfl⟩)
  simp only [hcount] at hruns
  refine ⟨views, ?_, ?_, ?_⟩
  · rw [← hviews.length_eq, hperm.length_eq, hcount]
  · exact (hruns limited 2 rfl (by decide) (by decide)).1 rfl
  · exact (hruns passedOnTwiceNode 2 rfl (by decide) (by decide)).2 client rfl (by decide)
      hbounded hbounded hportable passes_everyRecordPage

end Resolver

end LedgerQuery
