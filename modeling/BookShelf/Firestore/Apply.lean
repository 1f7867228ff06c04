import BookShelf.Firestore.Tracks

/-!
# Runs of a view

What a view becomes when changes are applied to it, and with that what an event does to a view and
its store. A run ends early only where Watch modifies a document that it has not sent.
-/

namespace BookShelf.Firestore

variable {q : Query}

/-- Watch modifies only documents that the view knows to be in its target. -/
def View.KnowsModified (view : View q) : Option TargetChange → Prop
  | none => True
  | some targetChange =>
      targetChange.modifiedDocuments ⊆ view.syncedDocuments ∪ targetChange.addedDocuments

instance (view : View q) (targetChange : Option TargetChange) :
    Decidable (view.KnowsModified targetChange) :=
  match targetChange with
  | none => inferInstanceAs (Decidable True)
  | some targetChange => inferInstanceAs (Decidable
      (targetChange.modifiedDocuments ⊆ view.syncedDocuments ∪ targetChange.addedDocuments))

/-- What `applyChanges` makes of a view, and the snapshot that goes with it. -/
structure Applied (view : View q) (r : ViewDocumentChanges q) (view' : View q)
    (change : ViewChange q) : Prop where
  documentSet : view'.documentSet = r.documentSet
  mutatedKeys : view'.mutatedKeys = r.mutatedKeys
  syncState : view'.syncState ≠ .none
  synced : view'.syncState = .synced ↔ view'.limboDocuments = ∅ ∧ view'.current = true
  silent : change.snapshot = none → r.changeSet.changes = [] ∧ view'.syncState = view.syncState
  loud : ∀ snapshot, change.snapshot = some snapshot →
    snapshot.documents = r.documentSet ∧ snapshot.oldDocuments = view.documentSet ∧
    snapshot.documentChanges = r.changeSet.changes.insertionSort (View.ChangeNotAfter q) ∧
    snapshot.mutatedKeys = r.mutatedKeys ∧
    snapshot.fromCache = decide (view'.syncState = .cached) ∧
    snapshot.syncStateChanged = decide (view'.syncState ≠ view.syncState) ∧
    snapshot.excludesMetadataChanges = false ∧
    (snapshot.documentChanges ≠ [] ∨ snapshot.syncStateChanged = true)

theorem insertionSort_eq_nil {α : Type*} (r : α → α → Prop) [DecidableRel r] {l : List α} :
    l.insertionSort r = [] ↔ l = [] := by
  rw [← List.length_eq_zero_iff, List.length_insertionSort, List.length_eq_zero_iff]

section

variable {view : View q} {r : ViewDocumentChanges q} {targetChange : Option TargetChange}

private theorem applyTargetChange_ok (hknows : view.KnowsModified targetChange) :
    ∃ updated, view.applyTargetChange targetChange = .ok updated ∧
      updated.documentSet = view.documentSet ∧ updated.mutatedKeys = view.mutatedKeys := by
  cases targetChange with
  | none => exact ⟨view, rfl, rfl, rfl⟩
  | some change =>
      have hsub : change.modifiedDocuments ⊆ view.syncedDocuments ∪ change.addedDocuments :=
        hknows
      refine ⟨_, if_pos hsub, rfl, rfl⟩

theorem applyChanges_ok (hneeds : r.needsRefill = false)
    (hknows : view.KnowsModified targetChange) :
    ∃ view' change, view.applyChanges r targetChange = .ok (view', change) ∧
      Applied view r view' change := by
  have hknows' : View.KnowsModified { view with
      documentSet := r.documentSet
      mutatedKeys := r.mutatedKeys } targetChange := by
    cases targetChange with
    | none => trivial
    | some change => exact hknows
  obtain ⟨updated, hupdated, hset, hmutated⟩ := applyTargetChange_ok hknows'
  have hsettledSet : updated.updateLimboDocuments.documentSet = r.documentSet := by
    unfold View.updateLimboDocuments
    split <;> exact hset
  have hsettledMutated : updated.updateLimboDocuments.mutatedKeys = r.mutatedKeys := by
    unfold View.updateLimboDocuments
    split <;> exact hmutated
  unfold View.applyChanges
  simp only [hneeds, Bool.false_eq_true, if_false, hupdated]
  refine ⟨_, _, rfl, hsettledSet, hsettledMutated, ?_, ?_, ?_, ?_⟩
  · change (if _ then SyncState.synced else SyncState.cached) ≠ SyncState.none
    split <;> simp
  · change (if _ then SyncState.synced else SyncState.cached) = SyncState.synced ↔ _
    split
    · next hsynced => simpa using hsynced
    · next hsynced => simpa using hsynced
  · intro hsnapshot
    simp only [ite_eq_left_iff, reduceCtorEq, imp_false, not_not] at hsnapshot
    obtain ⟨hchanges, hstate⟩ := hsnapshot
    refine ⟨(insertionSort_eq_nil _).mp hchanges, ?_⟩
    simpa using hstate
  · intro snapshot hsnapshot
    simp only [Option.ite_none_left_eq_some, Option.some.injEq] at hsnapshot
    obtain ⟨hloud, rfl⟩ := hsnapshot
    refine ⟨rfl, rfl, rfl, rfl, rfl, rfl, rfl, ?_⟩
    by_cases hchanges : r.changeSet.changes.insertionSort (View.ChangeNotAfter q) = []
    · right
      by_contra hstate
      exact hloud ⟨hchanges, by simpa using hstate⟩
    · exact .inl hchanges

theorem applyChanges_error (hneeds : r.needsRefill = false)
    (hunknown : ¬ view.KnowsModified targetChange) :
    view.applyChanges r targetChange = .error .modifiedNotFound := by
  cases targetChange with
  | none => exact absurd trivial hunknown
  | some change =>
      have hnot : ¬ change.modifiedDocuments ⊆ view.syncedDocuments ∪ change.addedDocuments :=
        hunknown
      unfold View.applyChanges View.applyTargetChange
      simp only [hneeds, Bool.false_eq_true, if_false, if_neg hnot]
      rfl

theorem emitNewSnapshot_ok {store : LocalDocuments} (h : Tracks store view)
    (changes : MaybeDocumentMap) (hknows : view.KnowsModified targetChange) :
    ∃ r view' change, view.emitNewSnapshot (store.update changes) changes targetChange =
        .ok (view', change) ∧
      PassOrRefill view (store.update changes) changes r ∧ Applied view r view' change := by
  obtain ⟨r, hr, hneeds, hpasses⟩ := h.changesFor changes
  obtain ⟨view', change, happly, happlied⟩ := applyChanges_ok hneeds hknows
  refine ⟨r, view', change, ?_, hpasses, happlied⟩
  simp [View.emitNewSnapshot, hr, happly, bind, Except.bind]

theorem emitNewSnapshot_error {store : LocalDocuments} (h : Tracks store view)
    (changes : MaybeDocumentMap) (hunknown : ¬ view.KnowsModified targetChange) :
    view.emitNewSnapshot (store.update changes) changes targetChange =
      .error .modifiedNotFound := by
  obtain ⟨r, hr, hneeds, -⟩ := h.changesFor changes
  have happly := applyChanges_error hneeds hunknown
  simp [View.emitNewSnapshot, hr, happly, bind, Except.bind]

private theorem applyChanges_offline (view : View q) :
    ∃ view' change, { view with current := false }.applyChanges
        ⟨view.documentSet, .empty, view.mutatedKeys, false⟩ none = .ok (view', change) ∧
      change.limboAdded = ∅ ∧ change.limboRemoved = ∅ ∧
      Applied { view with current := false }
        ⟨view.documentSet, .empty, view.mutatedKeys, false⟩ view' change := by
  have hknows : View.KnowsModified { view with current := false } none := trivial
  obtain ⟨view', change, happly, happlied⟩ := applyChanges_ok
    (r := ⟨view.documentSet, .empty, view.mutatedKeys, false⟩) rfl hknows
  obtain ⟨view'', change', happly', hadded, hremoved⟩ :
      ∃ view' change, { view with current := false }.applyChanges
          ⟨view.documentSet, .empty, view.mutatedKeys, false⟩ none = .ok (view', change) ∧
        change.limboAdded = ∅ ∧ change.limboRemoved = ∅ := by
    refine ⟨_, _, rfl, ?_, ?_⟩ <;> exact Finset.sdiff_self _
  obtain ⟨rfl, rfl⟩ := Prod.mk.inj (Except.ok.inj (happly'.symm.trans happly))
  exact ⟨view'', change', happly', hadded, hremoved, happlied⟩

theorem handleOnlineStateChange_ok (view : View q) (onlineState : OnlineState) :
    ∃ view' change, view.handleOnlineStateChange onlineState = .ok (view', change) ∧
      (view' = view ∧ change.snapshot = none ∨
        onlineState = .offline ∧ Applied { view with current := false }
          ⟨view.documentSet, .empty, view.mutatedKeys, false⟩ view' change) := by
  unfold View.handleOnlineStateChange View.applyOnlineStateChange
  by_cases hoffline : view.current = true ∧ onlineState = .offline
  · obtain ⟨view', change, happly, hadded, hremoved, happlied⟩ := applyChanges_offline view
    refine ⟨view', change, ?_, .inr ⟨hoffline.2, happlied⟩⟩
    simp [if_pos hoffline, happly, hadded, hremoved, bind, Except.bind]
  · refine ⟨view, ⟨none, ∅, ∅⟩, ?_, .inl ⟨rfl, rfl⟩⟩
    simp [if_neg hoffline, bind, Except.bind]

end

/-- What an event does to a view and its store. -/
inductive Stepped (s : ViewState q) : ViewEvent → ViewState q → Prop
  | changes (changes : MaybeDocumentMap) (targetChange : Option TargetChange)
      (r : ViewDocumentChanges q) (view' : View q) (change : ViewChange q)
      (hr : PassOrRefill s.view (s.store.update changes) changes r)
      (happlied : Applied s.view r view' change) :
      Stepped s (.changes changes targetChange)
        (.record (s.store.update changes) s.emitted (view', change))
  | idle (onlineState : OnlineState) : Stepped s (.onlineState onlineState) s
  | offline (view' : View q) (change : ViewChange q)
      (happlied : Applied { s.view with current := false }
        ⟨s.view.documentSet, .empty, s.view.mutatedKeys, false⟩ view' change) :
      Stepped s (.onlineState .offline) (.record s.store s.emitted (view', change))

/-- The one condition under which an event goes through. -/
def KnowsModified (s : ViewState q) : ViewEvent → Prop
  | .changes _ targetChange => s.view.KnowsModified targetChange
  | .onlineState _ => True

instance (s : ViewState q) (e : ViewEvent) : Decidable (KnowsModified s e) :=
  match e with
  | .changes _ targetChange => inferInstanceAs (Decidable (s.view.KnowsModified targetChange))
  | .onlineState _ => inferInstanceAs (Decidable True)

section

variable {s s' : ViewState q} {e : ViewEvent}

theorem step_ok (h : Tracks s.store s.view) (hknows : KnowsModified s e) :
    ∃ s', (viewMachine q).step s e = .ok s' ∧ Stepped s e s' := by
  cases e with
  | changes changes targetChange =>
      obtain ⟨r, view', change, hemit, hr, happlied⟩ := emitNewSnapshot_ok h changes hknows
      refine ⟨_, ?_, .changes changes targetChange r view' change hr happlied⟩
      simp [viewMachine, hemit, Except.map]
  | onlineState onlineState =>
      obtain ⟨view', change, hok, hcases⟩ := handleOnlineStateChange_ok s.view onlineState
      rcases hcases with ⟨rfl, hsilent⟩ | ⟨rfl, happlied⟩
      · refine ⟨s, ?_, .idle onlineState⟩
        simp [viewMachine, hok, hsilent, ViewState.record, Except.map]
      · refine ⟨_, ?_, .offline view' change happlied⟩
        simp [viewMachine, hok, Except.map]

theorem step_error (h : Tracks s.store s.view) (hunknown : ¬ KnowsModified s e) :
    (viewMachine q).step s e = .error .modifiedNotFound := by
  cases e with
  | onlineState onlineState => exact absurd trivial hunknown
  | changes changes targetChange =>
      have hemit := emitNewSnapshot_error h changes hunknown
      simp [viewMachine, hemit, Except.map]

private theorem Tracks.applied {store : LocalDocuments} {view view' : View q}
    {r : ViewDocumentChanges q} {change : ViewChange q} (happlied : Applied view r view' change)
    (hmutated : ∀ k, k ∈ r.mutatedKeys ↔
      ∃ d, r.documentSet.getDocument k = some d ∧ d.hasLocalMutations = true)
    (hbacks : Backs store r.documentSet) (hcovers : q.limit = none → Covers store r.documentSet)
    (hbounded : ∀ limit, q.limit = some limit → r.documentSet.size ≤ limit.count) :
    Tracks store view' := by
  have hset := happlied.documentSet
  constructor
  · rw [happlied.mutatedKeys, hset]
    exact hmutated
  · rw [hset]
    exact hbacks
  · rw [hset]
    exact hcovers
  · rw [hset]
    exact hbounded

theorem Tracks.emitted {store : LocalDocuments} {view view' : View q} {change : ViewChange q}
    {changes : MaybeDocumentMap} {r : ViewDocumentChanges q} (h : Tracks store view)
    (hr : PassOrRefill view (store.update changes) changes r)
    (happlied : Applied view r view' change) : Tracks (store.update changes) view' :=
  Tracks.applied happlied hr.consistent.mutated (h.backs_passOrRefill hr)
    (fun hlimit => h.covers_passOrRefill hlimit hr) (fun _ hlimit => hr.bounded hlimit)

theorem Tracks.offline {store : LocalDocuments} {view view' : View q} {change : ViewChange q}
    (h : Tracks store view) (happlied : Applied { view with current := false }
      ⟨view.documentSet, .empty, view.mutatedKeys, false⟩ view' change) : Tracks store view' :=
  Tracks.applied happlied h.mutated h.backs h.covers h.bounded

theorem Stepped.tracks (hstep : Stepped s e s') (h : Tracks s.store s.view) :
    Tracks s'.store s'.view := by
  cases hstep with
  | idle onlineState => exact h
  | changes changes targetChange r view' change hr happlied => exact h.emitted hr happlied
  | offline view' change happlied => exact h.offline happlied

theorem stepped_of_step (h : Tracks s.store s.view) (hstep : (viewMachine q).step s e = .ok s') :
    Stepped s e s' := by
  by_cases hknows : KnowsModified s e
  · obtain ⟨s'', hstep', hstepped⟩ := step_ok h hknows
    obtain rfl : s' = s'' := Except.ok.inj (hstep.symm.trans hstep')
    exact hstepped
  · rw [step_error h hknows] at hstep
    cases hstep

end

/-- What a new view of the query begins with. -/
structure Initialized (q : Query) (store : LocalDocuments) (view : View q)
    (snapshot : ViewSnapshot q) : Prop where
  began : ∃ first mid r change,
    Computed q ⟨.empty q, .empty, ∅, false⟩ (store.executeQuery q).entries
      (DocumentSet.empty q).getDocument mid r ∧
    first.documentSet = .empty q ∧ Applied first r view change ∧ change.snapshot = some snapshot

theorem initialize_ok (q : Query) (store : LocalDocuments) (remoteKeys : Finset DocumentKey)
    (mirrored : Option SyncState) :
    ∃ view change snapshot,
      View.initializeViewAndComputeSnapshot q store remoteKeys mirrored =
        .ok (view, change, snapshot) ∧
      Initialized q store view snapshot := by
  have hmutated : ∀ k, k ∈ (View.new q remoteKeys).mutatedKeys ↔
      ∃ d, (View.new q remoteKeys).documentSet.getDocument k = some d ∧
        d.hasLocalMutations = true := by
    intro k
    simp [View.new]
  obtain ⟨mid, r, hcompute, hcomputed⟩ :=
    compute_batch (View.new q remoteKeys) (store.executeQuery q) hmutated
  have hneeds : r.needsRefill = false := by
    rw [hcomputed.needsRefill]
    apply hcomputed.sweep.calm
    intro entry _ o ho
    cases ho
  have hknows : (View.new q remoteKeys).KnowsModified
      (mirrored.map fun syncState => ⟨decide (syncState = .synced), ∅, ∅, ∅⟩) := by
    cases mirrored with
    | none => trivial
    | some syncState => exact Finset.empty_subset _
  obtain ⟨view, change, happly, happlied⟩ := applyChanges_ok hneeds hknows
  obtain ⟨snapshot, hsnapshot⟩ : ∃ snapshot, change.snapshot = some snapshot := by
    rw [← Option.isSome_iff_exists, Option.isSome_iff_ne_none]
    intro hnone
    exact happlied.syncState (happlied.silent hnone).2
  refine ⟨view, change, snapshot, ?_, ⟨View.new q remoteKeys, mid, r, change, hcomputed, rfl,
    happlied, hsnapshot⟩⟩
  simp [View.initializeViewAndComputeSnapshot, hcompute, happly, hsnapshot, bind, Except.bind]

theorem Initialized.tracks {store : LocalDocuments} {view : View q} {snapshot : ViewSnapshot q}
    (h : Initialized q store view snapshot) : Tracks store view := by
  obtain ⟨first, mid, r, change, hcomputed, -, happlied, -⟩ := h
  refine Tracks.applied happlied hcomputed.consistent.mutated ?_ ?_ ?_
  · apply hcomputed.backs
    apply hcomputed.sweep.backs
    · intro entry hentry
      exact LocalDocuments.get_executeQuery hentry
    · intro k o ho
      cases ho
    · intro k _ o ho
      cases ho
  · exact hcomputed.covers hcomputed.sweep.covers_executeQuery
  · intro limit hlimit
    rw [DocumentSet.size, hcomputed.limited]
    exact Query.length_limited_le hlimit _

structure Listened (q : Query) (store : LocalDocuments) (s : ViewState q) : Prop where
  began : ∃ snapshot, Initialized q store s.view snapshot ∧ s.store = store ∧
    s.emitted = [snapshot]

theorem listen_ok (q : Query) (store : LocalDocuments) (remoteKeys : Finset DocumentKey)
    (mirrored : Option SyncState) :
    ∃ s, ViewState.listen q store remoteKeys mirrored = .ok s ∧ Listened q store s := by
  obtain ⟨view, change, snapshot, hinitialize, hinitialized⟩ :=
    initialize_ok q store remoteKeys mirrored
  refine ⟨⟨store, view, [snapshot]⟩, ?_, ⟨snapshot, hinitialized, rfl, rfl⟩⟩
  simp [ViewState.listen, hinitialize, bind, Except.bind]

theorem listened_of_listen {store : LocalDocuments} {remoteKeys : Finset DocumentKey}
    {mirrored : Option SyncState} {s : ViewState q}
    (h : ViewState.listen q store remoteKeys mirrored = .ok s) : Listened q store s := by
  obtain ⟨s', hlisten, hlistened⟩ := listen_ok q store remoteKeys mirrored
  obtain rfl : s = s' := Except.ok.inj (h.symm.trans hlisten)
  exact hlistened

theorem Listened.tracks {store : LocalDocuments} {s : ViewState q} (h : Listened q store s) :
    Tracks s.store s.view := by
  obtain ⟨snapshot, hinitialized, hstore, -⟩ := h
  rw [hstore]
  exact hinitialized.tracks

theorem tracks_of_run {s s' : ViewState q} {es : List ViewEvent} (h : Tracks s.store s.view)
    (hrun : (viewMachine q).run s es = .ok s') : Tracks s'.store s'.view :=
  Machine.run_induction (P := fun s => Tracks s.store s.view)
    (fun _ _ _ htracks hstep => (stepped_of_step htracks hstep).tracks htracks) h hrun

theorem step_ok_iff {s : ViewState q} (h : Tracks s.store s.view) (e : ViewEvent) :
    (∃ s', (viewMachine q).step s e = .ok s') ↔ KnowsModified s e := by
  constructor
  · intro ⟨s', hstep⟩
    by_contra hunknown
    rw [step_error h hunknown] at hstep
    cases hstep
  · intro hknows
    obtain ⟨s', hstep, -⟩ := step_ok h hknows
    exact ⟨s', hstep⟩

theorem run_ok_iff {s : ViewState q} (h : Tracks s.store s.view) (es : List ViewEvent) :
    (∃ s', (viewMachine q).run s es = .ok s') ↔ (viewMachine q).Meets KnowsModified s es :=
  Machine.run_ok_iff_meets_of_inv (I := fun s => Tracks s.store s.view)
    (fun _ _ _ htracks hstep => (stepped_of_step htracks hstep).tracks htracks)
    (fun _ e htracks => step_ok_iff htracks e) h es

/-- In every run, each document of the view is the one of the local store, or the version before
a write that the server has acknowledged; a view without a limit shows every match, and one with a
limit no more than that. -/
theorem view_follows_store {store : LocalDocuments} {remoteKeys : Finset DocumentKey}
    {mirrored : Option SyncState} {s s' : ViewState q} {es : List ViewEvent}
    (hlisten : ViewState.listen q store remoteKeys mirrored = .ok s)
    (hrun : (viewMachine q).run s es = .ok s') :
    (∀ o ∈ s'.view.documentSet.docs, ∃ n ∈ s'.store.docs, n.key = o.key ∧
      q.matchesDocument n = true ∧
      (o.data = n.data ∨ o.hasLocalMutations = true ∧ n.hasCommittedMutations = true)) ∧
    (q.limit = none → ∀ n ∈ s'.store.docs, q.matchesDocument n = true →
      ∃ o ∈ s'.view.documentSet.docs, o.key = n.key) ∧
    ∀ limit, q.limit = some limit → s'.view.documentSet.docs.length ≤ limit.count := by
  have htracks := tracks_of_run (listened_of_listen hlisten).tracks hrun
  refine ⟨?_, ?_, htracks.bounded⟩
  · intro o ho
    obtain ⟨-, n, hn, hmatch, hkeeps⟩ := htracks.backs o.key o (DocumentSet.getDocument_of_mem ho)
    refine ⟨n, Keyed.mem_of_lookup hn, Keyed.key_of_lookup hn, hmatch, ?_⟩
    rcases hkeeps with hdata | hwait
    · exact .inl hdata
    · rw [shouldWaitForSyncedDocument, Bool.and_eq_true, Bool.and_eq_true] at hwait
      exact .inr hwait.1
  · intro hlimit n hn hmatch
    have hget : s'.store.get n.key = some n := Keyed.lookup_of_mem s'.store.distinct hn
    obtain ⟨o, ho⟩ := Option.ne_none_iff_exists'.mp (htracks.covers hlimit n.key n hget hmatch)
    exact ⟨o, DocumentSet.getDocument_eq_some.mp ho⟩

/-- The posts, newest first. -/
def newestPosts : Query where
  path := ["Posts"]
  collectionGroup := none
  filters := []
  explicitOrderBys := [⟨.field "date", .descending⟩]
  limit := none

def threePosts : LocalDocuments where
  docs :=
    [⟨["Posts", "a"], [("date", .timestamp 1)], 1, .synced⟩,
      ⟨["Posts", "b"], [("date", .timestamp 2)], 2, .synced⟩,
      ⟨["Posts", "c"], [("date", .timestamp 3)], 3, .synced⟩]
  distinct := by decide

/-- A post is written, and the server acknowledges it with a time of its own. -/
def writtenThenAcknowledged : List ViewEvent :=
  [.changes ⟨[.document ⟨["Posts", "d"], [("date", .serverTimestamp 5)], 0, .localMutations⟩],
      by decide⟩ none,
    .changes ⟨[.document ⟨["Posts", "d"], [("date", .timestamp 6)], 6, .committedMutations⟩],
      by decide⟩ none]

theorem view_follows_store_acknowledged :
    ∃ s s', ViewState.listen newestPosts threePosts ∅ none = .ok s ∧
      (viewMachine newestPosts).run s writtenThenAcknowledged = .ok s' ∧
      ∀ o ∈ s'.view.documentSet.docs, ∃ n ∈ s'.store.docs, n.key = o.key ∧
        newestPosts.matchesDocument n = true ∧
        (o.data = n.data ∨ o.hasLocalMutations = true ∧ n.hasCommittedMutations = true) := by
  have hknows : (match ViewState.listen newestPosts threePosts ∅ none with
      | .ok s => decide ((viewMachine newestPosts).Meets KnowsModified s writtenThenAcknowledged)
      | .error _ => false) = true := by decide
  obtain ⟨s, hlisten, hlistened⟩ := listen_ok newestPosts threePosts ∅ none
  rw [hlisten] at hknows
  obtain ⟨s', hrun⟩ := (run_ok_iff hlistened.tracks _).mpr (of_decide_eq_true hknows)
  exact ⟨s, s', hlisten, hrun, (view_follows_store hlisten hrun).1⟩

end BookShelf.Firestore
