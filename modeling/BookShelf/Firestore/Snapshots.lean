import BookShelf.Firestore.Results
import Mathlib.Data.List.Chain

/-!
# What the snapshots of a view tell

Each snapshot carries the documents and the list of changes since the one before. The lists are in
order and name every document at most once, and a listener that applies one list after another ends
up with the documents of the view.
-/

namespace BookShelf.Firestore

variable {q : Query}

/-- The documents that a listener knows, by key. -/
abbrev KnownContents :=
  DocumentKey → Option (DocumentKey × ObjectValue)

def DocumentSet.known (set : DocumentSet q) : KnownContents := fun k =>
  (set.getDocument k).map Document.content

/-- What a change leaves at its key. -/
def DocumentViewChange.told (change : DocumentViewChange) : Option (DocumentKey × ObjectValue) :=
  match change.type with
  | .removed => none
  | .added | .modified | .metadata => some change.document.content

def DocumentViewChange.applyTo (known : KnownContents) (change : DocumentViewChange) :
    KnownContents :=
  Function.update known change.key change.told

def replay (known : KnownContents) (changes : List DocumentViewChange) : KnownContents :=
  changes.foldl DocumentViewChange.applyTo known

theorem replay_apply (known : KnownContents) {changes : List DocumentViewChange}
    (h : Keyed.Distinct DocumentViewChange.key changes) (k : DocumentKey) :
    replay known changes k =
      (Keyed.lookup DocumentViewChange.key changes k).elim (known k) DocumentViewChange.told := by
  unfold replay
  induction changes generalizing known with
  | nil => rfl
  | cons change changes ih =>
      obtain ⟨hfresh, hchanges⟩ := List.nodup_cons.mp h
      rw [List.foldl_cons, ih _ hchanges, Keyed.lookup_cons]
      by_cases hk : change.key = k
      · have hnone : Keyed.lookup DocumentViewChange.key changes k = none := by
          rw [Keyed.lookup_eq_none]
          intro other hother heq
          exact hfresh (hk.trans heq.symm ▸ List.mem_map_of_mem hother)
        rw [hnone, if_pos hk, ← hk]
        exact Function.update_self _ _ _
      · rw [if_neg hk]
        cases Keyed.lookup DocumentViewChange.key changes k with
        | some other => rfl
        | none => exact Function.update_of_ne (Ne.symm hk) _ _

theorem Describes.told {old new : Option Document} {change? : Option DocumentViewChange}
    (h : Describes old new change?) :
    change?.elim (old.map Document.content) DocumentViewChange.told =
      new.map Document.content := by
  cases h with
  | unchanged hcontent => exact hcontent
  | removed d _ hnew =>
      rw [hnew]
      rfl
  | added d _ hnew =>
      rw [hnew]
      rfl
  | modified d _ hnew =>
      rw [hnew]
      rfl
  | metadata d earlier _ hnew _ =>
      rw [hnew]
      rfl

instance (q : Query) : IsTrans DocumentViewChange (View.ChangeNotAfter q) where
  trans a b c hab hbc := by
    rcases hab with hab | ⟨hab, habDocument⟩
    · rcases hbc with hbc | ⟨hbc, -⟩
      · exact .inl (hab.trans hbc)
      · exact .inl (hbc ▸ hab)
    · rcases hbc with hbc | ⟨hbc, hbcDocument⟩
      · exact .inl (hab ▸ hbc)
      · exact .inr ⟨hab.trans hbc, Trans.trans habDocument hbcDocument⟩

instance (q : Query) : Std.Total (View.ChangeNotAfter q) where
  total a b := by
    rcases Nat.lt_trichotomy a.type.position b.type.position with hlt | heq | hgt
    · exact .inl (.inl hlt)
    · rcases Std.Total.total (r := q.NotAfter) a.document b.document with hab | hba
      · exact .inl (.inr ⟨heq, hab⟩)
      · exact .inr (.inr ⟨heq.symm, hba⟩)
    · exact .inr (.inl hgt)

/-- The list of changes of a snapshot is in order and says, for each key, how the documents differ
from the old ones. -/
structure ViewSnapshot.Tells (snapshot : ViewSnapshot q) : Prop where
  sorted : snapshot.documentChanges.Pairwise (View.ChangeNotAfter q)
  distinct : Keyed.Distinct DocumentViewChange.key snapshot.documentChanges
  describes : ∀ k, Describes (snapshot.oldDocuments.getDocument k)
    (snapshot.documents.getDocument k)
    (Keyed.lookup DocumentViewChange.key snapshot.documentChanges k)
  mutated : ∀ k, k ∈ snapshot.mutatedKeys ↔
    ∃ d, snapshot.documents.getDocument k = some d ∧ d.hasLocalMutations = true
  news : snapshot.documentChanges ≠ [] ∨ snapshot.syncStateChanged = true

theorem ViewSnapshot.Tells.replay {snapshot : ViewSnapshot q} (h : snapshot.Tells) :
    replay snapshot.oldDocuments.known snapshot.documentChanges = snapshot.documents.known := by
  funext k
  rw [replay_apply _ h.distinct]
  exact (h.describes k).told

section

variable {view view' : View q} {r : ViewDocumentChanges q} {change : ViewChange q}

theorem Applied.tells (h : Applied view r view' change)
    (hr : Consistent view.documentSet.getDocument r) {snapshot : ViewSnapshot q}
    (hsnapshot : change.snapshot = some snapshot) : snapshot.Tells := by
  obtain ⟨hdocuments, hold, hchanges, hmutated, -, -, -, hnews⟩ := h.loud snapshot hsnapshot
  have hperm := List.perm_insertionSort (View.ChangeNotAfter q) r.changeSet.changes
  constructor
  · rw [hchanges]
    exact List.pairwise_insertionSort _ _
  · rw [hchanges]
    exact r.changeSet.distinct.perm hperm.symm
  · intro k
    rw [hchanges, hdocuments, hold, Keyed.lookup_perm r.changeSet.distinct hperm.symm]
    exact hr.describes k
  · intro k
    rw [hmutated, hdocuments]
    exact hr.mutated k
  · exact hnews

/-- Without a snapshot there was nothing to tell. -/
theorem Applied.known_of_silent (h : Applied view r view' change)
    (hr : Consistent view.documentSet.getDocument r) (hsilent : change.snapshot = none) :
    view'.documentSet.known = view.documentSet.known := by
  funext k
  have hdescribes := hr.describes k
  have hnone : r.changeSet.find k = none := by
    rw [DocumentViewChangeSet.find, (h.silent hsilent).1]
    rfl
  rw [hnone] at hdescribes
  rw [DocumentSet.known, h.documentSet]
  exact hdescribes.told.symm

end

/-- The snapshots so far: each tells its changes, begins where the one before ended, and the last
one has the documents of the view. -/
structure Reported (emitted : List (ViewSnapshot q)) (set : DocumentSet q) : Prop where
  tells : ∀ snapshot ∈ emitted, snapshot.Tells
  chain : emitted.IsChain fun earlier later => later.oldDocuments.known = earlier.documents.known
  first : ∀ snapshot, emitted.head? = some snapshot → snapshot.oldDocuments.docs = []
  last : ∃ snapshot, emitted.getLast? = some snapshot ∧ snapshot.documents.known = set.known
  replayed : replay (fun _ => none) (emitted.flatMap ViewSnapshot.documentChanges) = set.known

section

variable {emitted : List (ViewSnapshot q)} {view view' : View q} {r : ViewDocumentChanges q}
  {change : ViewChange q}

theorem Reported.applied (h : Reported emitted view.documentSet)
    (hr : Consistent view.documentSet.getDocument r) (happlied : Applied view r view' change) :
    Reported (emitted ++ change.snapshot.toList) view'.documentSet := by
  obtain ⟨last, hlast, hknown⟩ := h.last
  cases hsnapshot : change.snapshot with
  | none =>
      have hsame := happlied.known_of_silent hr hsnapshot
      rw [Option.toList_none, List.append_nil]
      exact ⟨h.tells, h.chain, h.first, ⟨last, hlast, hknown.trans hsame.symm⟩,
        h.replayed.trans hsame.symm⟩
  | some snapshot =>
      have htells := happlied.tells hr hsnapshot
      obtain ⟨hdocuments, hold, -⟩ := happlied.loud snapshot hsnapshot
      have hend : snapshot.documents.known = view'.documentSet.known := by
        rw [hdocuments, happlied.documentSet]
      rw [Option.toList_some]
      constructor
      · intro other hother
        rcases List.mem_append.mp hother with hother | hother
        · exact h.tells other hother
        · rw [List.mem_singleton.mp hother]
          exact htells
      · refine h.chain.append (List.isChain_singleton _) ?_
        intro earlier hearlier later hlater
        obtain rfl : last = earlier := Option.some.inj (hlast.symm.trans hearlier)
        obtain rfl : snapshot = later := Option.some.inj hlater
        rw [hold, hknown]
      · intro other hother
        rw [List.head?_append] at hother
        cases hhead : emitted.head? with
        | none =>
            rw [List.head?_eq_none_iff.mp hhead] at hlast
            cases hlast
        | some first =>
            rw [hhead, Option.some_or] at hother
            exact h.first other (hhead.trans hother)
      · exact ⟨snapshot, List.getLast?_concat, hend⟩
      · have hreplay := htells.replay
        rw [hold] at hreplay
        rw [List.flatMap_append, replay, List.foldl_append]
        change replay (replay _ (emitted.flatMap _)) _ = _
        rw [h.replayed, List.flatMap_singleton, hreplay, hend]

end

theorem Initialized.tells {store : LocalDocuments} {view : View q} {snapshot : ViewSnapshot q}
    (h : Initialized q store view snapshot) :
    snapshot.Tells ∧ snapshot.oldDocuments = .empty q ∧
      snapshot.documents = view.documentSet ∧
      snapshot.fromCache = decide (view.syncState = .cached) := by
  obtain ⟨first, mid, r, change, hcomputed, hempty, happlied, hsnapshot⟩ := h
  have hconsistent : Consistent first.documentSet.getDocument r := by
    rw [hempty]
    exact hcomputed.consistent
  obtain ⟨hdocuments, hold, -, -, hcache, -⟩ := happlied.loud snapshot hsnapshot
  exact ⟨happlied.tells hconsistent hsnapshot, hold.trans hempty,
    hdocuments.trans happlied.documentSet.symm, hcache⟩

theorem Listened.reported {store : LocalDocuments} {s : ViewState q} (h : Listened q store s) :
    Reported s.emitted s.view.documentSet := by
  obtain ⟨snapshot, hinitialized, -, hemitted⟩ := h
  obtain ⟨htells, hold, hdocuments, -⟩ := hinitialized.tells
  rw [hemitted]
  constructor
  · intro other hother
    rw [List.mem_singleton.mp hother]
    exact htells
  · exact List.isChain_singleton _
  · intro other hother
    cases hother
    rw [hold]
    rfl
  · exact ⟨snapshot, rfl, by rw [hdocuments]⟩
  · have hreplay := htells.replay
    rw [hold] at hreplay
    rw [List.flatMap_singleton, ← hdocuments, ← hreplay]
    rfl

theorem Stepped.reported {s s' : ViewState q} {e : ViewEvent} (h : Stepped s e s')
    (hreported : Reported s.emitted s.view.documentSet) (htracks : Tracks s.store s.view) :
    Reported s'.emitted s'.view.documentSet := by
  cases h with
  | idle onlineState => exact hreported
  | changes changes targetChange r view' change hr happlied =>
      exact hreported.applied hr.consistent happlied
  | offline view' change happlied =>
      have hconsistent : Consistent s.view.documentSet.getDocument
          (⟨s.view.documentSet, .empty, s.view.mutatedKeys, false⟩ : ViewDocumentChanges q) :=
        ⟨describesFrom_empty _, htracks.mutated⟩
      have hreported' : Reported s.emitted { s.view with current := false }.documentSet :=
        hreported
      exact hreported'.applied hconsistent happlied

theorem reported_of_run {s s' : ViewState q} {es : List ViewEvent}
    (htracks : Tracks s.store s.view) (h : Reported s.emitted s.view.documentSet)
    (hrun : (viewMachine q).run s es = .ok s') : Reported s'.emitted s'.view.documentSet := by
  have hends : Tracks s'.store s'.view ∧ Reported s'.emitted s'.view.documentSet := by
    refine Machine.run_induction
      (P := fun s => Tracks s.store s.view ∧ Reported s.emitted s.view.documentSet) ?_
      ⟨htracks, h⟩ hrun
    intro s e s' ⟨htracks, hreported⟩ hstep
    have hstepped := stepped_of_step htracks hstep
    exact ⟨hstepped.tracks htracks, hstepped.reported hreported htracks⟩
  exact hends.2

section

variable {store : LocalDocuments} {remoteKeys : Finset DocumentKey} {mirrored : Option SyncState}
  {s s' : ViewState q} {es : List ViewEvent}

/-- A listener that applies the change lists of all the snapshots so far, one after another, knows
the documents of the view. -/
theorem snapshots_replay_to_view
    (hlisten : ViewState.listen q store remoteKeys mirrored = .ok s)
    (hrun : (viewMachine q).run s es = .ok s') :
    replay (fun _ => none) (s'.emitted.flatMap ViewSnapshot.documentChanges) =
      s'.view.documentSet.known := by
  have hlistened := listened_of_listen hlisten
  exact (reported_of_run hlistened.tracks hlistened.reported hrun).replayed

/-- Every snapshot of a run lists the differences to the one before, removed documents first, then
added and then modified ones, and none is empty of news; the last one has the documents of the
view. -/
theorem snapshots_tell_every_change
    (hlisten : ViewState.listen q store remoteKeys mirrored = .ok s)
    (hrun : (viewMachine q).run s es = .ok s') :
    (∀ snapshot ∈ s'.emitted, snapshot.Tells) ∧
      s'.emitted.IsChain (fun earlier later =>
        later.oldDocuments.known = earlier.documents.known) ∧
      ∃ snapshot, s'.emitted.getLast? = some snapshot ∧
        snapshot.documents.known = s'.view.documentSet.known := by
  have hlistened := listened_of_listen hlisten
  have hreported := reported_of_run hlistened.tracks hlistened.reported hrun
  exact ⟨hreported.tells, hreported.chain, hreported.last⟩

end

private theorem refilled_runs :
    ∃ s s', ViewState.listen newestTwo threePosts ∅ none = .ok s ∧
      (viewMachine newestTwo).run s deletedThenWritten = .ok s' := by
  have hknows : (match ViewState.listen newestTwo threePosts ∅ none with
      | .ok s => decide ((viewMachine newestTwo).Meets KnowsModified s deletedThenWritten)
      | .error _ => false) = true := by decide
  obtain ⟨s, hlisten, hlistened⟩ := listen_ok newestTwo threePosts ∅ none
  rw [hlisten] at hknows
  obtain ⟨s', hrun⟩ := (run_ok_iff hlistened.tracks _).mpr (of_decide_eq_true hknows)
  exact ⟨s, s', hlisten, hrun⟩

theorem snapshots_replay_to_view_refilled :
    ∃ s s', ViewState.listen newestTwo threePosts ∅ none = .ok s ∧
      (viewMachine newestTwo).run s deletedThenWritten = .ok s' ∧
      replay (fun _ => none) (s'.emitted.flatMap ViewSnapshot.documentChanges) =
        s'.view.documentSet.known := by
  obtain ⟨s, s', hlisten, hrun⟩ := refilled_runs
  exact ⟨s, s', hlisten, hrun, snapshots_replay_to_view hlisten hrun⟩

theorem snapshots_tell_every_change_refilled :
    ∃ s s', ViewState.listen newestTwo threePosts ∅ none = .ok s ∧
      (viewMachine newestTwo).run s deletedThenWritten = .ok s' ∧
      ∀ snapshot ∈ s'.emitted, snapshot.Tells := by
  obtain ⟨s, s', hlisten, hrun⟩ := refilled_runs
  exact ⟨s, s', hlisten, hrun, (snapshots_tell_every_change hlisten hrun).1⟩

end BookShelf.Firestore
