/-
  LedgerQuery.Proofs.Resolve.Chain

  The links along chains of versions lead to the same records wherever they are followed. A link is
  described twice, by criteria for a backend and by a test for drafts; `Selects` says that both
  come down to one test of records. For the link to successors this rests on texts: the criteria
  compare the text of the back reference, which no two references share. Main statement:
  `chain_links_agree`, for a draft that holds the records of a vault, the node of the vault, and
  clients of the node.
-/
import Mathlib.Data.List.Nodup
import LedgerQuery.Proofs.Query.Predicate
import LedgerQuery.Proofs.Record.Reference
import LedgerQuery.Proofs.Resolve.Live
import LedgerQuery.Resolve.Chain

namespace LedgerQuery

/-! ## Look-ups by reference -/

/-- Of the records of an indexed store, at most the one that is looked up has a reference. -/
theorem Store.Indexed.filter_reference {s : Store} (hs : s.Indexed) (reference : RecordRef) :
    s.records.filter (fun r => decide (r.reference = reference)) = (s.get? reference).toList := by
  cases hget : s.get? reference with
  | none =>
    refine List.filter_eq_nil_iff.2 fun r hr hsame => ?_
    have hfound := hs.get?_eq_some_iff.2 ⟨hr, of_decide_eq_true hsame⟩
    rw [hget] at hfound
    cases hfound
  | some record =>
    have hnodup : s.records.Nodup := List.Nodup.of_map _ hs.nodup
    refine List.perm_singleton.1 ((List.perm_ext_iff_of_nodup (hnodup.filter _)
      (List.nodup_singleton record)).2 fun r => ?_)
    -- Membership on the left is what the look-up says of `r`.
    rw [List.mem_filter, decide_eq_true_iff, ← hs.get?_eq_some_iff, hget, Option.some.injEq,
      List.mem_singleton, eq_comm]

namespace Resolver

variable {α : Type} [RecordState α]

/-! ## Two readings of a link -/

/-- Both readings of a link come down to one test of the records of its type: the criteria that it
    makes of a builder, and what it says of views. -/
structure Selects (r : Resolver α) (b : Builder) (test : StoredRecord → Bool) : Prop where
  restrict : r.restrict (.forType (RecordState.recordType α) r.status) = .ok b
  admits : ∀ record, b.criteria.admits record =
    (record.isAssignableTo (RecordState.recordType α) && test record)
  pointsTo : ∀ record (v : Versioned α), record.view α = .ok v → r.pointsTo v = test record

/-- The criteria for one type and any status admit the records of the type. -/
theorem admits_forType_all (t : RecordType) (record : StoredRecord) :
    (Criteria.forType t .all).admits record = record.isAssignableTo t := by
  have htypes : (SortedSet.singleton t).toList = [t] := rfl
  show ((!true || true) && (((SortedSet.singleton t).toList.any record.isAssignableTo && true &&
    true) && true)) = _
  rw [htypes]
  simp

/-- The builder of the link to the record that a back reference names. -/
def predecessorBuilder (α : Type) [RecordState α] (back : Option RecordRef) : Builder :=
  (Builder.forType (RecordState.recordType α) .all).set (.references back.toList)

theorem predecessorOf_selects (back : Option RecordRef) :
    (predecessorOf back : Resolver α).Selects (predecessorBuilder α back)
      fun record => decide (back = some record.reference) where
  restrict := rfl
  admits record := by
    have hnamed : (SortedSet.ofList back.toList).contains record.reference =
        decide (back = some record.reference) := by
      rw [SortedSet.contains_ofList]
      cases back <;> simp [eq_comm]
    have htypes : (SortedSet.singleton (RecordState.recordType α)).toList =
      [RecordState.recordType α] := rfl
    show ((!true || true) && (((SortedSet.singleton (RecordState.recordType α)).toList.any
      record.isAssignableTo && (SortedSet.ofList back.toList).contains record.reference && true) &&
        true)) = _
    rw [hnamed, htypes]
    simp
  pointsTo record v hv := by
    show decide (back = some v.reference) = _
    rw [reference_of_view hv]

/-- What the criteria of the link to successors compare: the text of the back reference. -/
def namesAsPredecessor (target : RecordRef) : Expression :=
  .compare (.ofRecord .backReference) .equal (.text target.render) false

/-- Since no two references share a text, that is the back reference itself. -/
theorem holds_namesAsPredecessor (target : RecordRef) (record : StoredRecord) :
    (namesAsPredecessor target).holds record = decide (record.back = some target) := by
  have hmeets := Field.holds_of_compile (f := Field.backReference)
    (p := .equalTo (some target) false) (x := namesAsPredecessor target) (r := record) rfl
  have htext : Field.backReference.Meets (FieldPath.read record (.ofRecord .backReference))
      (.equalTo (some target) false) ↔ record.back = some target := by
    rw [Field.Meets, show Field.backReference.operand (some target) = some (.text target.render)
      from rfl, Field.matches_some_iff]
    cases hback : record.back with
    | none => simp [FieldPath.read, hback]
    | some back =>
      simp [FieldPath.read, hback, Scalar.equals, Scalar.compare?, RecordRef.render_inj]
  rw [Bool.eq_iff_iff, decide_eq_true_iff]
  exact hmeets.trans htext

/-- The builder of the link to the records that name a reference. -/
def successorsBuilder (α : Type) [RecordState α] (target : RecordRef) : Builder :=
  (Builder.forType (RecordState.recordType α) .all).filter (namesAsPredecessor target)

theorem successorsOf_selects (target : RecordRef) :
    (successorsOf target : Resolver α).Selects (successorsBuilder α target)
      fun record => decide (record.back = some target) where
  restrict := rfl
  admits record := by
    show ((Criteria.forType (RecordState.recordType α) .all).admits record &&
      (namesAsPredecessor target).holds record) = _
    rw [admits_forType_all, holds_namesAsPredecessor]
  pointsTo record v hv := by
    show decide (v.back = some target) = _
    rw [back_of_view hv]

/-! ## What a link leads to -/

/-- The views of the records of a type that pass a test. -/
def viewsWhere (α : Type) [RecordState α] (test : StoredRecord → Bool)
    (records : List StoredRecord) : List (Versioned α) :=
  viewsOf α (records.filter fun r => r.isAssignableTo (RecordState.recordType α) && test r)

/-- The view of the record that a back reference names, if it is recorded and of the type. -/
def predecessorIn (α : Type) [RecordState α] (s : Store) (back : Option RecordRef) :
    Option (Versioned α) :=
  back.bind fun reference => (s.get? reference).bind fun record => (record.view α).toOption

/-- The views of the records of a type that name a reference as their predecessor, in order. -/
def successorsAmong (α : Type) [RecordState α] (records : List StoredRecord) (target : RecordRef) :
    List (Versioned α) :=
  viewsWhere α (fun record => decide (record.back = some target)) records

variable {r : Resolver α} {b : Builder} {test : StoredRecord → Bool} {s : Store} {v : Versioned α}
  {records others : List StoredRecord}

theorem mem_viewsWhere : v ∈ viewsWhere α test records ↔
    ∃ record ∈ records, test record = true ∧ record.view α = .ok v := by
  rw [viewsWhere, mem_viewsOf]
  constructor
  · rintro ⟨record, hrecord, hview⟩
    obtain ⟨hmem, hboth⟩ := List.mem_filter.1 hrecord
    exact ⟨record, hmem, (Bool.and_eq_true_iff.1 hboth).2, hview⟩
  · rintro ⟨record, hmem, htest, hview⟩
    have htype := isAssignableTo_of_view hview
    exact ⟨record, List.mem_filter.2 ⟨hmem, Bool.and_eq_true_iff.2 ⟨htype, htest⟩⟩, hview⟩

/-- The view of a record is among them exactly if the record passes: a view keeps the reference,
    which no other record has. -/
theorem mem_viewsWhere_of_view (hs : s.Indexed) {record : StoredRecord}
    (hrecord : record ∈ s.records) (hview : record.view α = .ok v) :
    v ∈ viewsWhere α test s.records ↔ test record = true := by
  rw [mem_viewsWhere]
  constructor
  · rintro ⟨other, hother, htest, hview'⟩
    have hsame : other = record := hs.eq_of_reference_eq hother hrecord (by
      rw [← reference_of_view hview', reference_of_view hview])
    rwa [hsame] at htest
  · intro htest
    exact ⟨record, hrecord, htest, hview⟩

theorem viewsWhere_perm (h : records.Perm others) :
    (viewsWhere α test records).Perm (viewsWhere α test others) :=
  (h.filter _).filterMap _

/-- A back reference leads to one record at the most. -/
theorem viewsWhere_reference (hs : s.Indexed) (back : Option RecordRef) :
    viewsWhere α (fun record => decide (back = some record.reference)) s.records =
      (predecessorIn α s back).toList := by
  cases back with
  | none => simp [viewsWhere, viewsOf, predecessorIn]
  | some reference =>
    have hfilter : s.records.filter (fun record =>
        record.isAssignableTo (RecordState.recordType α) &&
          decide (some reference = some record.reference)) =
        (s.get? reference).toList.filter
          fun record => record.isAssignableTo (RecordState.recordType α) := by
      rw [← hs.filter_reference, List.filter_filter]
      exact List.filter_congr fun record _ => by simp [eq_comm]
    rw [viewsWhere, hfilter, predecessorIn, Option.bind_some]
    cases s.get? reference with
    | none => rfl
    | some record =>
      by_cases htype : record.isAssignableTo (RecordState.recordType α) = true
      · cases hview : record.view α <;> simp [viewsOf, htype, hview, Except.toOption]
      · -- A record of another type is left out here, and has no view there.
        cases hview : record.view α with
        | error e => simp [viewsOf, htype, hview, Except.toOption]
        | ok view => exact absurd (isAssignableTo_of_view hview) htype

omit [RecordState α] in
/-- At most one record is found where there is at most one, in whatever order. -/
theorem atMostOne_of_perm {views : List (Versioned α)} {found : Option (Versioned α)}
    (h : views.Perm found.toList) : atMostOne views = .ok found := by
  rw [atMostOne_perm h]
  cases found <;> rfl

/-! ## Following it -/

/-- In a draft, a link leads to the views of the records that pass its test, in their order. -/
theorem Selects.inDraft_eq (h : r.Selects b test) {d : Draft} {p : Position}
    (hviews : ∀ record ∈ d.records p, record.isAssignableTo (RecordState.recordType α) = true →
      ∃ v : Versioned α, record.view α = .ok v) :
    r.inDraft d p = .ok (viewsWhere α test (d.records p)) := by
  have hall : Views ((d.records p).filter (·.isAssignableTo (RecordState.recordType α)))
      (viewsOf α ((d.records p).filter (·.isAssignableTo (RecordState.recordType α)))) :=
    views_viewsOf fun record hrecord =>
      let ⟨hmem, htype⟩ := List.mem_filter.1 hrecord
      hviews record hmem htype
  have hselected := (hall.filter h.pointsTo).eq_viewsOf
  have hfilter : ((d.records p).filter (·.isAssignableTo (RecordState.recordType α))).filter test =
      (d.records p).filter fun record =>
        record.isAssignableTo (RecordState.recordType α) && test record := by
    rw [List.filter_filter]
    exact List.filter_congr fun record _ => Bool.and_comm _ _
  have hcandidates : d.candidates α p = .ok (viewsOf α ((d.records p).filter
      (·.isAssignableTo (RecordState.recordType α)))) := mapM_eq_ok_iff.2 hall
  rw [inDraft, hcandidates, viewsWhere, ← hfilter, ← hselected]
  rfl

/-- Through a backend, it leads to the same views, in the order that is asked for. -/
theorem Selects.views_select (h : r.Selects b test)
    (hviews : ∀ record ∈ s.records, record.isAssignableTo (RecordState.recordType α) = true →
      ∃ v : Versioned α, record.view α = .ok v) (sort : SortOrder) :
    ∃ views : List (Versioned α), Views (s.select (b.sortBy sort).build) views ∧
      views.Perm (viewsWhere α test s.records) := by
  have hperm := s.select_perm (b.sortBy sort).build
  have hadmits : s.records.filter (b.sortBy sort).build.criteria.admits =
      s.records.filter fun record =>
        record.isAssignableTo (RecordState.recordType α) && test record :=
    List.filter_congr fun record _ => h.admits record
  rw [hadmits] at hperm
  refine ⟨viewsOf α (s.select (b.sortBy sort).build), views_viewsOf fun record hrecord => ?_,
    hperm.filterMap _⟩
  obtain ⟨hmem, hboth⟩ := List.mem_filter.1 (hperm.mem_iff.1 hrecord)
  exact hviews record hmem (Bool.and_eq_true_iff.1 hboth).1

/-! ## Predecessors and successors -/

variable {n : Node} {backend : Backend Node}

/-- A backend that answers the first page of two records, or of one if it allows no more, leads to
    the predecessor. -/
theorem predecessorOf_singleThrough (hs : s.Indexed)
    (hviews : ∀ record ∈ s.records, record.isAssignableTo (RecordState.recordType α) = true →
      ∃ v : Versioned α, record.view α = .ok v) (back : Option RecordRef)
    (hquery : ∀ page : PageSpec, page.number = 1 →
      page.size = min (max (backend.maxPageSize n) 1) 2 →
      (backend.query ((predecessorBuilder α back).page page).build).on n =
        (.ok (s.page ((predecessorBuilder α back).page page).build), n)) :
    ((predecessorOf back : Resolver α).singleThrough backend).on n =
      (.ok (predecessorIn α s back), n) := by
  have hlink := predecessorOf_selects (α := α) back
  obtain ⟨views, hselect, hperm⟩ := hlink.views_select hviews .unsorted
  rw [viewsWhere_reference hs] at hperm
  have hsize := min_max_ne_zero (backend.maxPageSize n)
  -- A reference leads to one record at the most, so the total is no large number.
  have hcount : views.length < UInt64.size := by
    have hlength := hperm.length_eq
    have hone : (predecessorIn α s back).toList.length ≤ 1 := by
      cases predecessorIn α s back <;> simp
    have hmax : 1 < UInt64.size := by decide
    omega
  rw [singleThrough_on (p := ⟨1, _, by decide, hsize⟩) hlink.restrict rfl rfl
    (hquery _ rfl rfl) hselect hcount, atMostOne_of_perm hperm]

/-- A backend that serves the pages of a store leads to all successors, in ascending order of
    references; which backend it is and how large its pages are makes no difference. -/
theorem successorsOf_allThrough (hs : s.Indexed)
    (hviews : ∀ record ∈ s.records, record.isAssignableTo (RecordState.recordType α) = true →
      ∃ v : Versioned α, record.view α = .ok v) (target : RecordRef) :
    ∃ live : List (Versioned α), live.Perm (successorsAmong α s.records target) ∧
      live.Pairwise (fun x y => compare x.reference y.reference = .lt) ∧
      ∀ (backend : Backend Node) (n : Node) (size : UInt32), backend.maxPageSize n = size →
        size ≠ 0 → live.length ≤ PageSpec.lastNumber.toNat * size.toNat →
        Serves backend n s ((successorsBuilder α target).sortBy (.on .reference .ascending)) size
          (pagesFor size.toNat live.length) →
        ((successorsOf target : Resolver α).allThrough backend).on n = (.ok live, n) := by
  have hlink := successorsOf_selects (α := α) target
  obtain ⟨live, hselect, hperm⟩ := hlink.views_select hviews (.on .reference .ascending)
  have hascending := Store.select_ascending hs
    (q := ((successorsBuilder α target).sortBy (.on .reference .ascending)).build) rfl
  refine ⟨live, hperm, ?_, fun backend n size hlimit hsize hcount hserves => ?_⟩
  · have hrefs : (live.map Versioned.reference).Pairwise (compare · · = .lt) := by
      rw [hselect.references]
      exact List.pairwise_map.2 hascending
    exact List.pairwise_map.1 hrefs
  · exact allThrough_on hlink.restrict hlimit hsize hserves hselect hcount

/-- One record is the predecessor of another exactly if that is a successor of it. -/
theorem predecessorIn_eq_iff (hs : s.Indexed) {a b : StoredRecord} (ha : a ∈ s.records)
    (hb : b ∈ s.records) {va vb : Versioned α} (hva : a.view α = .ok va)
    (hvb : b.view α = .ok vb) :
    predecessorIn α s b.back = some va ↔ vb ∈ successorsAmong α s.records a.reference := by
  have hlisted : predecessorIn α s b.back = some va ↔ va ∈ (predecessorIn α s b.back).toList :=
    Option.mem_toList.symm
  have hpredecessor : predecessorIn α s b.back = some va ↔ b.back = some a.reference := by
    rw [hlisted, ← viewsWhere_reference hs, mem_viewsWhere_of_view hs ha hva, decide_eq_true_iff]
  have hsuccessor : vb ∈ successorsAmong α s.records a.reference ↔ b.back = some a.reference := by
    rw [successorsAmong, mem_viewsWhere_of_view hs hb hvb, decide_eq_true_iff]
  exact hpredecessor.trans hsuccessor.symm

/-! ## The same in every context -/

/-- The frames of the only query of a link to at most one record fit. -/
def FitsSingle (r : Resolver α) (n : Node) (client : RemoteConfig) : Prop :=
  ∀ (b : Builder) (page : PageSpec), r.builder = .ok b → page.number = 1 →
    page.size = min (max client.pageSize 1) 2 → n.Fits client (b.page page).build

/-- The frames of the pages of a link to any number of records fit, up to a page number. -/
def FitsAll (r : Resolver α) (n : Node) (client : RemoteConfig) (last : Nat) : Prop :=
  ∀ (b : Builder) (page : PageSpec), r.builder = .ok b → page.size = max client.pageSize 1 →
    page.number.toNat ≤ last →
    n.Fits client ((b.sortBy (.on .reference .ascending)).page page).build

theorem max_one_ne_zero (size : UInt32) : max size 1 ≠ 0 := by
  show (if size ≤ 1 then 1 else size) ≠ 0
  split
  · decide
  · rename_i hmore
    intro hzero
    exact hmore (hzero ▸ (by decide))

/-- The only page of a link to at most one record is within a limit that is not zero. -/
theorem min_max_le {limit : UInt32} (h : limit ≠ 0) : min (max limit 1) 2 ≤ limit := by
  rw [max_one h]
  show (if limit ≤ 2 then limit else 2) ≤ limit
  split
  · exact UInt32.le_refl limit
  · exact UInt32.le_of_lt (UInt32.not_le.1 ‹_›)

/-- A client whose frames fit has the only page of a link to at most one record. The limit that it
    goes by is one at least, and is not raised again. -/
theorem remote_only_page_on {n : Node} {client : RemoteConfig} {b : Builder} {page : PageSpec}
    (h : n.Supports client) (hsize : page.size = min (max (max client.pageSize 1) 1) 2)
    (hfits : page.size = min (max client.pageSize 1) 2 → n.Fits client (b.page page).build) :
    ((Backend.remote .loopback client).query (b.page page).build).on n =
      (.ok (n.vault.store.page (b.page page).build), n) := by
  have hle : page.size ≤ max client.pageSize 1 :=
    hsize.symm ▸ min_max_le (max_one_ne_zero client.pageSize)
  rw [max_one (max_one_ne_zero client.pageSize)] at hsize
  exact h.remote_query_on (hfits hsize) (UInt32.le_trans hle h.pages)

/-- The links along chains lead to the same records in a draft that holds the records of a vault
    in one position, in whatever order, on a node of the vault, and for a client whose frames fit.
    The link to a predecessor leads to the recorded version with the reference, if it is of the
    type, and to none otherwise, and never fails. The link to successors leads to the versions of
    the type that name the reference, each once: in the order of the draft, and in ascending order
    of references on the node and for its clients. So one version is the predecessor of another
    exactly if that is a successor of it. -/
theorem chain_links_agree {v : Vault} (hv : v.Reachable) {d : Draft} {p : Position}
    (hd : (d.records p).Perm v.store.records)
    (hviews : ∀ record ∈ v.store.records,
      record.isAssignableTo (RecordState.recordType α) = true →
        ∃ view : Versioned α, record.view α = .ok view) :
    (∀ (back : Option RecordRef) (n : Node), n.vault.store = v.store →
      let link : Resolver α := predecessorOf back
      let found := predecessorIn α v.store back
      (link.single (.draft d p)).on n = (.ok found, n) ∧
      (n.vault.config.maxPageSize ≠ 0 →
        (link.single (.host Backend.host)).on n = (.ok found, n)) ∧
      ∀ client : RemoteConfig, n.Supports client → link.FitsSingle n client →
        (link.single (.remote (Backend.remote .loopback client))).on n = (.ok found, n)) ∧
    (∀ target : RecordRef, ∃ live : List (Versioned α),
      live.Perm (successorsAmong α (d.records p) target) ∧
      live.Pairwise (fun x y => compare x.reference y.reference = .lt) ∧
      ∀ n : Node, n.vault.store = v.store →
        let link : Resolver α := successorsOf target
        let fills (size : UInt32) := live.length ≤ (UInt32.size - 1) * size.toNat
        (link.all (.draft d p)).on n = (.ok (successorsAmong α (d.records p) target), n) ∧
        (n.vault.config.maxPageSize ≠ 0 → fills n.vault.config.maxPageSize →
          (link.all (.host Backend.host)).on n = (.ok live, n)) ∧
        ∀ client : RemoteConfig, n.Supports client → fills (max client.pageSize 1) →
          link.FitsAll n client (pagesFor (max client.pageSize 1).toNat live.length) →
          (link.all (.remote (Backend.remote .loopback client))).on n = (.ok live, n)) ∧
    ∀ a ∈ v.store.records, ∀ b ∈ v.store.records, ∀ va vb : Versioned α,
      a.view α = .ok va → b.view α = .ok vb →
      (predecessorIn α v.store b.back = some va ↔
        vb ∈ successorsAmong α (d.records p) a.reference) := by
  have hs := hv.sound.indexed
  have hdraft : ∀ record ∈ d.records p,
      record.isAssignableTo (RecordState.recordType α) = true →
        ∃ view : Versioned α, record.view α = .ok view :=
    fun record hrecord => hviews record (hd.mem_iff.1 hrecord)
  refine ⟨fun back n hstore => ?_, fun target => ?_, fun a ha b hb va vb hva hvb => ?_⟩
  · have hlink := predecessorOf_selects (α := α) back
    have hperm : (viewsWhere α (fun record => decide (back = some record.reference))
        (d.records p)).Perm (predecessorIn α v.store back).toList :=
      viewsWhere_reference (α := α) hs back ▸ viewsWhere_perm hd
    refine ⟨?_, fun hlimit => ?_, fun client hclient hfits => ?_⟩
    · show ((((predecessorOf back : Resolver α).inDraft d p).bind atMostOne, n) : _ × Node) = _
      rw [hlink.inDraft_eq hdraft, Except.bind, atMostOne_of_perm hperm]
    · refine predecessorOf_singleThrough hs hviews back fun page _ hsize => ?_
      rw [← hstore]
      exact host_query_of_le (hsize ▸ min_max_le hlimit)
    · refine predecessorOf_singleThrough hs hviews back fun page hnumber hsize => ?_
      rw [← hstore]
      exact remote_only_page_on hclient hsize (hfits _ page rfl hnumber)
  · obtain ⟨live, hperm, hascending, hall⟩ := successorsOf_allThrough hs hviews target
    refine ⟨live, hperm.trans (viewsWhere_perm hd).symm, hascending, fun n hstore => ?_⟩
    rw [← hstore] at hall
    refine ⟨?_, fun hlimit hfills => ?_, fun client hclient hfills hfits => ?_⟩
    · show (((successorsOf target : Resolver α).inDraft d p, n) : _ × Node) = _
      rw [(successorsOf_selects (α := α) target).inDraft_eq hdraft]
      rfl
    · exact hall Backend.host n _ rfl hlimit hfills (serves_host rfl _ _)
    · refine hall (Backend.remote .loopback client) n _ rfl (max_one_ne_zero _) hfills
        fun page hsize hlast => ?_
      exact hclient.remote_query_on (hfits _ page rfl hsize hlast)
        (UInt32.le_trans (UInt32.le_of_eq hsize) hclient.pages)
  · rw [predecessorIn_eq_iff hs ha hb hva hvb]
    exact (viewsWhere_perm hd).mem_iff.symm

/-- The reply with the only record that a query finds. -/
theorem replyTo_of_filter {n : Node} {q : Query} {record : StoredRecord}
    (hsize : q.paging.size ≤ n.vault.config.maxPageSize) (hnumber : q.paging.number = 1)
    (hfound : n.vault.store.records.filter q.criteria.admits = [record]) :
    n.replyTo q = .queryResponse ⟨[record], 1⟩ := by
  have hselect : n.vault.store.select q = [record] :=
    List.perm_singleton.1 (hfound ▸ n.vault.store.select_perm q)
  have hroom : (n.vault.store.select q).length ≤ q.paging.size.toNat := by
    rw [hselect]
    exact q.paging.size_pos
  rw [Node.replyTo_eq, Vault.query_of_le hsize]
  dsimp only
  rw [Store.page_of_le hnumber hroom, hselect]
  rfl

/-- The version of a chain of three that has a version before and after it. -/
def middleVersion : StoredRecord := passedOnTwiceNode.vault.store.records.get ⟨1, by decide⟩

/-- The frames of the query for it by its reference, and of the query for what names the first
    version, both fit. -/
theorem fits_middleVersion {b : Builder} {page : PageSpec}
    (hb : b = predecessorBuilder AnyRecord (some middleVersion.reference) ∨
      b = (successorsBuilder AnyRecord ⟨.ofNumber 1, 0⟩).sortBy (.on .reference .ascending))
    (hnumber : page.number = 1) (hsize : page.size = 2 ∨ page.size = 200) :
    passedOnTwiceNode.Fits {} (b.page page).build := by
  have hallowed : (b.page page).build.paging.size ≤
      passedOnTwiceNode.vault.config.maxPageSize := by
    show page.size ≤ 10000
    rcases hsize with hsize | hsize <;> rw [hsize] <;> decide
  have hfound : passedOnTwiceNode.vault.store.records.filter (b.page page).build.criteria.admits =
      [middleVersion] := by
    rcases hb with rfl | rfl <;> rfl
  have hreply := replyTo_of_filter hallowed hnumber hfound
  have hpage : page = ⟨1, 2, by decide, by decide⟩ ∨ page = ⟨1, 200, by decide, by decide⟩ := by
    obtain ⟨number, size, hne, hne'⟩ := page
    obtain rfl : number = 1 := hnumber
    rcases hsize with hsize | hsize
    · obtain rfl : size = 2 := hsize
      exact .inl rfl
    · obtain rfl : size = 200 := hsize
      exact .inr rfl
  rw [Node.Fits, hreply]
  rcases hb with rfl | rfl <;> rcases hpage with rfl | rfl <;>
    unfold Codec.Passes Codec.Admits <;> decide +kernel

/-- Three versions of a chain: the middle one is the predecessor of the last and the successor of
    the first. The draft refers to them in the opposite order. -/
theorem chain_links_agree_passedOnTwice :
    let n := passedOnTwiceNode
    let d : Draft := { id := .ofNumber 4, references := n.vault.store.records.reverse }
    let version (number : Nat) : RecordRef := ⟨.ofNumber number, 0⟩
    ∃ middle : Versioned AnyRecord, middle.reference = version 2 ∧
      ∀ context ∈ [Context.draft d .reference, .host Backend.host,
          .remote (Backend.remote .loopback {})],
        ((predecessorOf (some (version 2))).single context).on n = (.ok (some middle), n) ∧
        ((successorsOf (version 1)).all context).on n = (.ok [middle], n) := by
  intro n d version
  have hv : n.vault.Reachable := .recordAll {} (by decide)
  have hd : (d.records .reference).Perm n.vault.store.records := List.reverse_perm _
  obtain ⟨hpredecessor, hsuccessors, -⟩ := chain_links_agree (α := AnyRecord) hv hd
    fun record _ _ => ⟨_, rfl⟩
  have hclient : n.Supports {} :=
    { pages := by decide
      client := by unfold Codec.Bounded; decide +kernel
      server := by unfold Codec.Bounded; decide +kernel
      portable := List.forall_mem_cons.2 ⟨.null, List.forall_mem_cons.2 ⟨.null,
        List.forall_mem_singleton.2 .null⟩⟩ }
  obtain ⟨middle, hmiddle⟩ : ∃ middle : Versioned AnyRecord,
      middleVersion.view AnyRecord = .ok middle := ⟨_, rfl⟩
  refine ⟨middle, reference_of_view hmiddle, ?_⟩
  have hfound : predecessorIn AnyRecord n.vault.store (some (version 2)) = some middle := by
    have hget : n.vault.store.get? (version 2) = some middleVersion := rfl
    rw [predecessorIn, Option.bind_some, hget, Option.bind_some, hmiddle]
    rfl
  have hnamed : successorsAmong AnyRecord (d.records .reference) (version 1) = [middle] := by
    have hfilter : (d.records .reference).filter (fun record =>
        record.isAssignableTo (RecordState.recordType AnyRecord) &&
          decide (record.back = some (version 1))) = [middleVersion] := rfl
    rw [successorsAmong, viewsWhere, hfilter]
    simp [viewsOf, hmiddle, Except.toOption]
  obtain ⟨hdraft, hhost, hremote⟩ := hpredecessor (some (version 2)) n rfl
  obtain ⟨live, hperm, -, hlive⟩ := hsuccessors (version 1)
  rw [hnamed] at hperm hlive
  obtain rfl : live = [middle] := List.perm_singleton.1 hperm
  obtain ⟨hdraft', hhost', hremote'⟩ := hlive n rfl
  rw [hfound] at hdraft hhost hremote
  have hfits : (predecessorOf (some (version 2)) : Resolver AnyRecord).FitsSingle n {} := by
    intro b page hb hnumber hsize
    cases hb
    exact fits_middleVersion (.inl rfl) hnumber (.inl hsize)
  have hfits' : (successorsOf (version 1) : Resolver AnyRecord).FitsAll n {} (pagesFor 200 1) := by
    intro b page hb hsize hlast
    cases hb
    rw [show pagesFor 200 1 = 1 by decide] at hlast
    have hpos := page.number_pos
    have hnumber : page.number = 1 :=
      UInt32.toNat_inj.1 (show page.number.toNat = 1 by omega)
    exact fits_middleVersion (.inr rfl) hnumber (.inr hsize)
  have hone : 1 ≤ (UInt32.size - 1) * (200 : UInt32).toNat := by decide
  intro context hcontext
  simp only [List.mem_cons, List.not_mem_nil, or_false] at hcontext
  rcases hcontext with rfl | rfl | rfl
  · exact ⟨hdraft, hdraft'⟩
  · exact ⟨hhost (by decide), hhost' (by decide) (show 1 ≤ _ by decide)⟩
  · exact ⟨hremote {} hclient hfits, hremote' {} hclient hone hfits'⟩

end Resolver

end LedgerQuery
