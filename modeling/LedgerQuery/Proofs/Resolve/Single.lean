/-
  LedgerQuery.Proofs.Resolve.Single

  A link to at most one record and a link to any number count the same records. In a draft both go
  through the same list. Through a backend, the former goes by the total that comes with one page
  of two records at the most, the latter puts all pages together; both lead to the records that the
  criteria admit (`Reaches.singleThrough_on`, `Reaches.allThrough_on`), which differ in their order
  alone. Main statement: `single_by_count`.
-/
import LedgerQuery.Proofs.Resolve.Chain

namespace LedgerQuery.Resolver

variable {α : Type}

/-! ## At most one record -/

/-- What is found, by how many there are. -/
theorem atMostOne_eq (found : List (Versioned α)) :
    atMostOne found = match found with
      | [] => .ok none
      | [v] => .ok (some v)
      | _ => .error (.multipleMatches found.length) := by
  match found with
  | [] => rfl
  | [_] => rfl
  | v :: w :: rest =>
    have hmany : 1 < (v :: w :: rest).length := by simp
    exact if_pos hmany

variable [RecordState α]

/-- A record that has to be there is what the link finds, or else the message. -/
theorem singleOrFail_on {σ : Type} {r : Resolver α} {context : Context σ} {s s' : σ}
    {outcome : Except ResolveError (Option (Versioned α))}
    (h : (r.single context).on s = (outcome, s')) (message : String) :
    (r.singleOrFail context message).on s =
      (outcome.bind fun found => found.elim (.error (.missingDependency message)) .ok, s') := by
  rw [singleOrFail, Attempt.on_bind, h]
  rcases outcome with e | _ | v <;> rfl

/-! ## Where a link can be followed -/

/-- The records of a store that the criteria of a link admit. -/
def matching (r : Resolver α) (s : Store) : List StoredRecord :=
  match r.builder with
  | .ok b => s.records.filter b.criteria.admits
  | .error _ => []

/-- These records can be viewed as the type of the link, and fill no more pages of a size than can
    be numbered. -/
structure Pageable (r : Resolver α) (s : Store) (size : UInt32) : Prop where
  size_ne_zero : size ≠ 0
  viewable : ∀ record ∈ r.matching s, ∃ v : Versioned α, record.view α = .ok v
  numbered : (r.matching s).length ≤ (UInt32.size - 1) * size.toNat

/-- The backends of a node through which a link leads to these records: the node itself, and a
    client whose frames fit. -/
inductive Reaches (r : Resolver α) (n : Node) : Backend Node → Prop
  | host : r.Pageable n.vault.store n.vault.config.maxPageSize → Reaches r n Backend.host
  | client {client : RemoteConfig} :
      r.Pageable n.vault.store (max client.pageSize 1) → n.Supports client →
      r.FitsSingle n client →
      r.FitsAll n client
        (pagesFor (max client.pageSize 1).toNat (r.matching n.vault.store).length) →
      Reaches r n (Backend.remote .loopback client)

/-- The contexts in which a link can be followed both ways. -/
inductive Usable (r : Resolver α) (n : Node) : Context Node → Prop
  | draft (d : Draft) (p : Position) : Usable r n (.draft d p)
  | host {backend : Backend Node} : r.Reaches n backend → Usable r n (.host backend)
  | remote {backend : Backend Node} : r.Reaches n backend → Usable r n (.remote backend)

/-! ## Through a backend -/

variable {r : Resolver α} {b : Builder} {s : Store} {n : Node} {backend : Backend Node}
  {size : UInt32}

theorem matching_eq (hb : r.builder = .ok b) (s : Store) :
    r.matching s = s.records.filter b.criteria.admits := by
  rw [matching, hb]

/-- A query with the criteria of the link finds the views of these records, in whatever order it
    asks for. -/
theorem Pageable.views_select (h : r.Pageable s size) (hb : r.builder = .ok b) {q : Query}
    (hq : q.criteria = b.criteria) :
    ∃ views : List (Versioned α), Views (s.select q) views ∧
      views.Perm (viewsOf α (r.matching s)) ∧ views.length = (r.matching s).length := by
  have hperm : (s.select q).Perm (r.matching s) := by
    rw [matching_eq hb, ← hq]
    exact s.select_perm q
  have hviews : Views (s.select q) (viewsOf α (s.select q)) :=
    views_viewsOf fun record hrecord => h.viewable record (hperm.mem_iff.1 hrecord)
  exact ⟨_, hviews, hperm.filterMap _, hviews.length_eq.symm.trans hperm.length_eq⟩

/-- A backend answers with the only page of a link to at most one record, and with all pages of a
    link to any number. -/
theorem Reaches.serves (h : r.Reaches n backend) (hb : r.builder = .ok b) :
    ∃ size, backend.maxPageSize n = size ∧ r.Pageable n.vault.store size ∧
      (∀ p : PageSpec, p.number = 1 → p.size = min (max size 1) 2 →
        (backend.query (b.page p).build).on n =
          (.ok (n.vault.store.page (b.page p).build), n)) ∧
      Serves backend n n.vault.store (b.sortBy (.on .reference .ascending)) size
        (pagesFor size.toNat (r.matching n.vault.store).length) := by
  cases h with
  | host hpageable =>
    refine ⟨_, rfl, hpageable, fun p _ hsize => ?_, serves_host rfl _ _⟩
    exact host_query_of_le (hsize ▸ min_max_le hpageable.size_ne_zero)
  | @client client hpageable hclient hsingle hall =>
    refine ⟨_, rfl, hpageable, fun p hnumber hsize => ?_, fun p hsize hlast => ?_⟩
    · exact remote_only_page_on hclient hsize (hsingle b p hb hnumber)
    · exact hclient.remote_query_on (hall b p hb hsize hlast)
        (UInt32.le_trans (UInt32.le_of_eq hsize) hclient.pages)

/-- All pages together are the views of the records that the criteria admit. -/
theorem Reaches.allThrough_on (h : r.Reaches n backend) (hb : r.builder = .ok b) :
    ∃ live : List (Versioned α), live.Perm (viewsOf α (r.matching n.vault.store)) ∧
      (r.allThrough backend).on n = (.ok live, n) := by
  obtain ⟨size, hlimit, hpageable, -, hserves⟩ := h.serves hb
  obtain ⟨live, hviews, hperm, hlength⟩ := hpageable.views_select hb
    (q := (b.sortBy (.on .reference .ascending)).build) rfl
  refine ⟨live, hperm, ?_⟩
  rw [← hlength] at hserves
  exact Resolver.allThrough_on (builder_eq_ok_iff.1 hb) hlimit hpageable.size_ne_zero hserves hviews
    (hlength ▸ hpageable.numbered)

/-- The first page tells how many of these there are. -/
theorem Reaches.singleThrough_on (h : r.Reaches n backend) (hb : r.builder = .ok b) :
    (r.singleThrough backend).on n = (atMostOne (viewsOf α (r.matching n.vault.store)), n) := by
  obtain ⟨size, hlimit, hpageable, hfirst, -⟩ := h.serves hb
  obtain ⟨views, hviews, hperm, hlength⟩ := hpageable.views_select hb (q := b.build) rfl
  -- Numbers and sizes of pages are words of half the width, so the total is not cut off.
  have hcount : views.length < UInt64.size := by
    have hbound := Nat.mul_le_mul_left (UInt32.size - 1) (Nat.le_of_lt size.toNat_lt)
    have hnumbered := hpageable.numbered
    have hmax : UInt32.size - 1 = 4294967295 := rfl
    have hsize : UInt64.size = 18446744073709551616 := rfl
    rw [hlength]
    omega
  have hpage := hfirst ⟨1, _, by decide, min_max_ne_zero size⟩ rfl rfl
  rw [Resolver.singleThrough_on (builder_eq_ok_iff.1 hb) rfl (by rw [hlimit]) hpage hviews hcount,
    atMostOne_perm hperm]

/-- So following the link to at most one record depends on what following it to any number finds. -/
theorem Reaches.singleThrough_eq (h : r.Reaches n backend) {list : List (Versioned α)} {n' : Node}
    (hall : (r.allThrough backend).on n = (.ok list, n')) :
    (r.singleThrough backend).on n = (atMostOne list, n) := by
  cases hb : r.builder with
  | error e =>
    -- Without a builder the link to any number of records would have failed, too.
    rw [allThrough, Attempt.on_bind, Attempt.on_known, hb] at hall
    cases hall
  | ok b =>
    obtain ⟨live, hperm, hlive⟩ := h.allThrough_on hb
    rw [hlive] at hall
    cases hall
    rw [h.singleThrough_on hb, atMostOne_perm hperm]

/-! ## In every context -/

theorem single_on_of_all {context : Context Node} (h : r.Usable n context)
    {list : List (Versioned α)} {n' : Node} (hall : (r.all context).on n = (.ok list, n')) :
    (r.single context).on n = (atMostOne list, n) := by
  cases h with
  | draft d p =>
    have hdraft : r.inDraft d p = .ok list := congrArg Prod.fst hall
    show ((r.inDraft d p).bind atMostOne, n) = _
    rw [hdraft]
    rfl
  | host hreaches => exact hreaches.singleThrough_eq hall
  | remote hreaches => exact hreaches.singleThrough_eq hall

/-- Following a link to at most one record goes by how many records following it to any number
    finds in the same context: none, the only one, or a failure that says how many. A record that
    has to be there is that only one, and without any the failure is the message that is given. -/
theorem single_by_count (r : Resolver α) {n n' : Node} {context : Context Node}
    {list : List (Versioned α)} (h : r.Usable n context) :
    (r.all context).on n = (.ok list, n') →
    (r.single context).on n = (match list with
      | [] => .ok none
      | [v] => .ok (some v)
      | _ => .error (.multipleMatches list.length), n) ∧
    ∀ message : String, (r.singleOrFail context message).on n = (match list with
      | [] => .error (.missingDependency message)
      | [v] => .ok v
      | _ => .error (.multipleMatches list.length), n) := by
  intro hall
  have hsingle := single_on_of_all h hall
  refine ⟨by rw [hsingle, atMostOne_eq], fun message => ?_⟩
  rw [singleOrFail_on hsingle message, atMostOne_eq]
  match list with
  | [] => rfl
  | [_] => rfl
  | _ :: _ :: _ => rfl

/-- The frames of the query for the middle version by its reference fit in ascending order, too. -/
theorem fits_middleVersion_ascending {page : PageSpec} (hnumber : page.number = 1)
    (hsize : page.size = 200) :
    passedOnTwiceNode.Fits {} (((predecessorBuilder AnyRecord (some middleVersion.reference)).sortBy
      (.on .reference .ascending)).page page).build := by
  have hpage : page = ⟨1, 200, by decide, by decide⟩ := by
    obtain ⟨number, size, hne, hne'⟩ := page
    obtain rfl : number = 1 := hnumber
    obtain rfl : size = 200 := hsize
    rfl
  have hfound : passedOnTwiceNode.vault.store.records.filter
      (predecessorBuilder AnyRecord (some middleVersion.reference)).criteria.admits =
        [middleVersion] := rfl
  rw [hpage, Node.Fits, replyTo_of_filter (by decide) rfl hfound]
  unfold Codec.Passes Codec.Admits
  decide +kernel

/-- All versions of a chain of three where a page holds one record, the middle one for a client,
    and none in a draft without inputs. -/
theorem single_by_count_passedOnTwice :
    let n := passedOnTwiceNode
    let limited : Node := { n with vault := { n.vault with config := { maxPageSize := 1 } } }
    let link : Resolver AnyRecord := predecessorOf (some middleVersion.reference)
    let message := "no predecessor"
    (everyRecord.single (.host Backend.host)).on limited =
        (.error (.multipleMatches 3), limited) ∧
      (∃ middle : Versioned AnyRecord, middleVersion.view AnyRecord = .ok middle ∧
        (link.singleOrFail (.remote (Backend.remote .loopback {})) message).on n =
          (.ok middle, n)) ∧
      (link.singleOrFail (.draft { id := .ofNumber 4 } .input) message).on n =
        (.error (.missingDependency message), n) := by
  intro n limited link message
  have hclient : n.Supports {} :=
    { pages := by decide
      client := by unfold Codec.Bounded; decide +kernel
      server := by unfold Codec.Bounded; decide +kernel
      portable := List.forall_mem_cons.2 ⟨.null, List.forall_mem_cons.2 ⟨.null,
        List.forall_mem_singleton.2 .null⟩⟩ }
  have hlimited : everyRecord.Reaches limited Backend.host :=
    .host { size_ne_zero := by decide, viewable := fun _ _ => ⟨_, rfl⟩, numbered := by decide }
  have hmatching : link.matching n.vault.store = [middleVersion] := rfl
  have hreaches : link.Reaches n (Backend.remote .loopback {}) := by
    refine .client
      { size_ne_zero := by decide
        viewable := fun _ _ => ⟨_, rfl⟩
        numbered := by rw [hmatching]; decide } hclient ?_ ?_
    · intro b page hb hnumber hsize
      cases hb
      exact fits_middleVersion (.inl rfl) hnumber (.inl hsize)
    · intro b page hb hsize hlast
      cases hb
      rw [hmatching, show pagesFor _ [middleVersion].length = 1 by decide] at hlast
      have hpos := page.number_pos
      have hnumber : page.number = 1 :=
        UInt32.toNat_inj.1 (show page.number.toNat = 1 by omega)
      exact fits_middleVersion_ascending hnumber hsize
  refine ⟨?_, ?_, ?_⟩
  · -- A page of one record is too small for two, and yet the total tells of all three.
    obtain ⟨live, hperm, hlive⟩ := hlimited.allThrough_on rfl
    have hthree : live.length = 3 := hperm.length_eq.trans (by decide)
    obtain ⟨x, y, z, rfl⟩ := List.length_eq_three.1 hthree
    exact (single_by_count everyRecord (.host hlimited) hlive).1
  · obtain ⟨middle, hmiddle⟩ : ∃ middle : Versioned AnyRecord,
        middleVersion.view AnyRecord = .ok middle := ⟨_, rfl⟩
    obtain ⟨live, hperm, hlive⟩ := hreaches.allThrough_on rfl
    have hviews : viewsOf AnyRecord (link.matching n.vault.store) = [middle] := by
      rw [hmatching]
      simp [viewsOf, hmiddle, Except.toOption]
    rw [hviews] at hperm
    obtain rfl : live = [middle] := List.perm_singleton.1 hperm
    exact ⟨middle, hmiddle, (single_by_count link (.remote hreaches) hlive).2 message⟩
  · exact (single_by_count link (.draft { id := .ofNumber 4 } .input) rfl).2 message

end LedgerQuery.Resolver
