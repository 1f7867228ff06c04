import BookShelf.Firestore.Emit

/-!
# A view follows its local store

Every document of a view stands for a document of the local store that the query matches, and a
view without a limit leaves none out. So the second pass of a view with a limit brings nothing but
additions, and no assertion of the client fails except the one about what Watch says.
-/

namespace BookShelf.Firestore

variable {q : Query}

/-- The document under the key is one of the local store, or an old version that the view
keeps. -/
def BacksAt (store : LocalDocuments) (set : DocumentSet q) (k : DocumentKey) : Prop :=
  ∀ o, set.getDocument k = some o → q.matchesDocument o = true ∧
    ∃ n, store.get k = some n ∧ q.matchesDocument n = true ∧ KeepsOld o n

def Backs (store : LocalDocuments) (set : DocumentSet q) : Prop :=
  ∀ k, BacksAt store set k

def Covers (store : LocalDocuments) (set : DocumentSet q) : Prop :=
  ∀ k n, store.get k = some n → q.matchesDocument n = true → set.getDocument k ≠ none

section

variable {store : LocalDocuments} {set set' : DocumentSet q} {entries : List MaybeDocument}
  {start mid : ViewDocumentChanges q}

theorem keepsOld_refl (d : Document) : KeepsOld d d :=
  .inl rfl

theorem MaybeDocument.matching_eq_some {entry : MaybeDocument} {d : Document} :
    entry.matching q = some d ↔ entry.document? = some d ∧ q.matchesDocument d = true :=
  Option.filter_eq_some_iff

theorem Backs.subset (h : Backs store set) (hsub : ∀ d ∈ set'.docs, d ∈ set.docs) :
    Backs store set' := by
  intro k o ho
  obtain ⟨hmem, hkey⟩ := DocumentSet.getDocument_eq_some.mp ho
  exact h k o (DocumentSet.getDocument_eq_some.mpr ⟨hsub o hmem, hkey⟩)

/-- The loop leaves every document with one of the store behind it: the visited ones because the
store holds what was visited, the others because nothing has changed for them. -/
theorem Sweep.backs (h : Sweep start.documentSet entries start mid)
    (hentries : ∀ entry ∈ entries, store.get entry.key = entry.document?)
    (hmatches : ∀ k o, start.documentSet.getDocument k = some o → q.matchesDocument o = true)
    (hothers : ∀ k, k ∉ entries.map MaybeDocument.key → BacksAt store start.documentSet k) :
    Backs store mid.documentSet := by
  intro k o ho
  by_cases hk : k ∈ entries.map MaybeDocument.key
  · obtain ⟨entry, hentry, rfl⟩ := List.mem_map.mp hk
    have hstore (n : Document) (hn : entry.matching q = some n) :
        store.get entry.key = some n ∧ q.matchesDocument n = true := by
      obtain ⟨hdocument, hmatch⟩ := MaybeDocument.matching_eq_some.mp hn
      exact ⟨(hentries entry hentry).trans hdocument, hmatch⟩
    rcases h.here entry hentry with hnew | ⟨o', n, hold, hn, hshown, hkeeps⟩
    · obtain ⟨hget, hmatch⟩ := hstore o (hnew.symm.trans ho)
      exact ⟨hmatch, o, hget, hmatch, keepsOld_refl o⟩
    · obtain rfl : o' = o := Option.some.inj (hshown.symm.trans ho)
      obtain ⟨hget, hmatch⟩ := hstore n hn
      exact ⟨hmatches _ _ hold, n, hget, hmatch, hkeeps⟩
  · rw [h.other k hk] at ho
    exact hothers k hk o ho

theorem Sweep.covers (h : Sweep start.documentSet entries start mid)
    (hentries : ∀ entry ∈ entries, store.get entry.key = entry.document?)
    (hothers : ∀ k n, k ∉ entries.map MaybeDocument.key → store.get k = some n →
      q.matchesDocument n = true → start.documentSet.getDocument k ≠ none) :
    Covers store mid.documentSet := by
  intro k n hn hmatch
  by_cases hk : k ∈ entries.map MaybeDocument.key
  · obtain ⟨entry, hentry, rfl⟩ := List.mem_map.mp hk
    have hnew : entry.matching q = some n :=
      MaybeDocument.matching_eq_some.mpr ⟨(hentries entry hentry).symm.trans hn, hmatch⟩
    rcases h.here entry hentry with hshown | ⟨o, -, -, -, hshown, -⟩
    · rw [hshown, hnew]
      simp
    · rw [hshown]
      simp
  · rw [h.other k hk]
    exact hothers k n hk hn hmatch

theorem LocalDocuments.get_executeQuery {entry : MaybeDocument}
    (h : entry ∈ (store.executeQuery q).entries) : store.get entry.key = entry.document? := by
  obtain ⟨d, hd, rfl⟩ := List.mem_map.mp h
  exact Keyed.lookup_of_mem store.distinct (List.mem_of_mem_filter hd)

theorem LocalDocuments.mem_executeQuery {k : DocumentKey} {n : Document}
    (hn : store.get k = some n) (hmatch : q.matchesDocument n = true) :
    k ∈ (store.executeQuery q).entries.map MaybeDocument.key := by
  have hkey : n.key = k := Keyed.key_of_lookup hn
  refine List.mem_map.mpr ⟨.document n, List.mem_map_of_mem ?_, hkey⟩
  exact List.mem_filter.mpr ⟨Keyed.mem_of_lookup hn, hmatch⟩

theorem Sweep.covers_executeQuery
    (h : Sweep start.documentSet (store.executeQuery q).entries start mid) :
    Covers store mid.documentSet :=
  h.covers (fun _ hentry => LocalDocuments.get_executeQuery hentry) fun _ _ hk hn hmatch =>
    absurd (LocalDocuments.mem_executeQuery hn hmatch) hk

end

theorem Query.limited_sublist (q : Query) (docs : List Document) :
    (q.limited docs).Sublist docs := by
  unfold limited
  split
  · exact List.Sublist.refl docs
  · exact List.take_sublist _ _
  · exact List.drop_sublist _ _

theorem Query.limited_of_none {q : Query} (h : q.limit = none) (docs : List Document) :
    q.limited docs = docs := by
  rw [limited, h]

theorem Query.length_limited_le {q : Query} {limit : Limit} (h : q.limit = some limit)
    (docs : List Document) : (q.limited docs).length ≤ limit.count := by
  obtain ⟨type, count⟩ := limit
  rw [limited, h]
  cases type with
  | first => exact List.length_take_le _ _
  | last =>
      change (docs.drop (docs.length - count)).length ≤ count
      rw [List.length_drop]
      omega

section

variable {base : DocumentKey → Option Document} {start mid r : ViewDocumentChanges q}
  {entries : List MaybeDocument} {store : LocalDocuments}

theorem Computed.backs (h : Computed q start entries base mid r)
    (hmid : Backs store mid.documentSet) : Backs store r.documentSet := by
  apply hmid.subset
  intro d hd
  rw [h.limited] at hd
  exact (q.limited_sublist _).subset hd

theorem Computed.covers (h : Computed q start entries base mid r)
    (hmid : Covers store mid.documentSet) (hlimit : q.limit = none) :
    Covers store r.documentSet := by
  have hdocs : r.documentSet.docs = mid.documentSet.docs :=
    h.limited.trans (Query.limited_of_none hlimit _)
  intro k n hn hmatch
  have hget : r.documentSet.getDocument k = mid.documentSet.getDocument k := by
    change Keyed.lookup Document.key r.documentSet.docs k = _
    rw [hdocs]
    rfl
  rw [hget]
  exact hmid k n hn hmatch

end

/-- What holds of a view and its local store between any two events. -/
structure Tracks (store : LocalDocuments) (view : View q) : Prop where
  mutated : ∀ k, k ∈ view.mutatedKeys ↔
    ∃ d, view.documentSet.getDocument k = some d ∧ d.hasLocalMutations = true
  backs : Backs store view.documentSet
  covers : q.limit = none → Covers store view.documentSet
  bounded : ∀ limit, q.limit = some limit → view.documentSet.size ≤ limit.count

/-- The two ways in which the changes of a view come about: in one pass, or in a second one over
all the matches. -/
inductive PassOrRefill (view : View q) (store : LocalDocuments) (changes : MaybeDocumentMap)
    (r : ViewDocumentChanges q) : Prop
  | pass (mid : ViewDocumentChanges q) (hneeds : r.needsRefill = false)
      (hcomputed : Computed q ⟨view.documentSet, .empty, view.mutatedKeys, false⟩ changes.entries
        view.documentSet.getDocument mid r)
  | refill (mid first second : ViewDocumentChanges q)
      (hfirst : Computed q ⟨view.documentSet, .empty, view.mutatedKeys, false⟩ changes.entries
        view.documentSet.getDocument mid first)
      (hcomputed : Computed q { first with needsRefill := false } (store.executeQuery q).entries
        view.documentSet.getDocument second r)

section

variable {store : LocalDocuments} {view : View q} {changes : MaybeDocumentMap}
  {mid first second r : ViewDocumentChanges q}

theorem Tracks.backs_update (h : Tracks store view)
    (hcomputed : Computed q ⟨view.documentSet, .empty, view.mutatedKeys, false⟩ changes.entries
      view.documentSet.getDocument mid r) :
    Backs (store.update changes) r.documentSet := by
  apply hcomputed.backs
  apply hcomputed.sweep.backs
  · intro entry hentry
    exact store.get_update_of_mem changes hentry
  · intro k o ho
    exact (h.backs k o ho).1
  · intro k hk o ho
    rw [store.get_update_of_notMem changes hk]
    exact h.backs k o ho

theorem Tracks.covers_update (h : Tracks store view) (hlimit : q.limit = none)
    (hcomputed : Computed q ⟨view.documentSet, .empty, view.mutatedKeys, false⟩ changes.entries
      view.documentSet.getDocument mid r) :
    Covers (store.update changes) r.documentSet := by
  refine hcomputed.covers (hcomputed.sweep.covers ?_ ?_) hlimit
  · intro entry hentry
    exact store.get_update_of_mem changes hentry
  · intro k n hk hn hmatch
    rw [store.get_update_of_notMem changes hk] at hn
    exact h.covers hlimit k n hn hmatch

theorem Backs.refill (h : Backs store first.documentSet)
    (hcomputed : Computed q { first with needsRefill := false } (store.executeQuery q).entries
      view.documentSet.getDocument second r) : Backs store r.documentSet := by
  apply hcomputed.backs
  apply hcomputed.sweep.backs
  · intro entry hentry
    exact LocalDocuments.get_executeQuery hentry
  · intro k o ho
    exact (h k o ho).1
  · intro k _
    exact h k

/-- The changes of a view that follows its store can always be computed, without a refill that
needs another. -/
theorem Tracks.changesFor (h : Tracks store view) (changes : MaybeDocumentMap) :
    ∃ r, view.changesFor (store.update changes) changes = .ok r ∧ r.needsRefill = false ∧
      PassOrRefill view (store.update changes) changes r := by
  obtain ⟨mid, first, hcompute, hfirst⟩ := compute_batch view changes h.mutated
  have hbacks := h.backs_update hfirst
  cases hneeds : first.needsRefill with
  | false =>
      refine ⟨first, ?_, hneeds, .pass mid hneeds hfirst⟩
      simp [View.changesFor, hcompute, hneeds, bind, Except.bind]
  | true =>
      obtain ⟨second, r, hrefill, hcomputed, hcalm⟩ :=
        compute_refill view ((store.update changes).executeQuery q) hfirst.consistent <| by
          intro entry hentry o ho
          obtain ⟨-, n, hn, hmatch, hkeeps⟩ := hbacks entry.key o ho
          rw [LocalDocuments.get_executeQuery hentry] at hn
          exact ⟨n, MaybeDocument.matching_eq_some.mpr ⟨hn, hmatch⟩, hkeeps⟩
      refine ⟨r, ?_, hcalm, .refill mid first second hfirst hcomputed⟩
      simp [View.changesFor, hcompute, hneeds, hrefill, bind, Except.bind]

theorem PassOrRefill.consistent (h : PassOrRefill view store changes r) :
    Consistent view.documentSet.getDocument r := by
  cases h with
  | pass mid _ hcomputed => exact hcomputed.consistent
  | refill mid first second _ hcomputed => exact hcomputed.consistent

theorem PassOrRefill.bounded (h : PassOrRefill view store changes r) {limit : Limit}
    (hlimit : q.limit = some limit) : r.documentSet.size ≤ limit.count := by
  have hle (mid : ViewDocumentChanges q)
      (heq : r.documentSet.docs = q.limited mid.documentSet.docs) :
      r.documentSet.size ≤ limit.count := by
    rw [DocumentSet.size, heq]
    exact Query.length_limited_le hlimit _
  cases h with
  | pass mid _ hcomputed => exact hle mid hcomputed.limited
  | refill mid first second _ hcomputed => exact hle second hcomputed.limited

theorem Tracks.backs_passOrRefill (h : Tracks store view)
    (hr : PassOrRefill view (store.update changes) changes r) :
    Backs (store.update changes) r.documentSet := by
  cases hr with
  | pass mid _ hcomputed => exact h.backs_update hcomputed
  | refill mid first second hfirst hcomputed => exact (h.backs_update hfirst).refill hcomputed

theorem Tracks.covers_passOrRefill (h : Tracks store view) (hlimit : q.limit = none)
    (hr : PassOrRefill view (store.update changes) changes r) :
    Covers (store.update changes) r.documentSet := by
  cases hr with
  | pass mid _ hcomputed => exact h.covers_update hlimit hcomputed
  | refill mid first second _ hcomputed =>
      exact hcomputed.covers hcomputed.sweep.covers_executeQuery hlimit

end

end BookShelf.Firestore
