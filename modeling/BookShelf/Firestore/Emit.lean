import BookShelf.Firestore.Pass
import BookShelf.Library.Machine

/-!
# A view and its local store

How the sync engine keeps a view up to date with the documents of the local store: a batch of
changes is computed, filled up again if a limit asks for it, and applied.
-/

namespace BookShelf.Firestore

/-- The documents that the local store answers with. -/
structure LocalDocuments where
  docs : List Document
  distinct : Keyed.Distinct Document.key docs

namespace LocalDocuments

def get (store : LocalDocuments) (key : DocumentKey) : Option Document :=
  Keyed.lookup Document.key store.docs key

def set (store : LocalDocuments) (entry : MaybeDocument) : LocalDocuments :=
  match entry with
  | .document d => ⟨d :: Keyed.erase Document.key store.docs d.key,
      Keyed.distinct_insert store.distinct (List.Perm.refl _)⟩
  | .noDocument key _ _ | .unknownDocument key _ => ⟨Keyed.erase Document.key store.docs key,
      store.distinct.sublist (Keyed.erase_sublist _ _)⟩

def update (store : LocalDocuments) (changes : MaybeDocumentMap) : LocalDocuments :=
  changes.entries.foldl set store

/-- All the documents that the query matches; the limit is the view's business. -/
def executeQuery (store : LocalDocuments) (q : Query) : MaybeDocumentMap where
  entries := (store.docs.filter q.matchesDocument).map MaybeDocument.document
  distinct := by
    rw [Keyed.Distinct, List.map_map]
    exact store.distinct.sublist List.filter_sublist

end LocalDocuments

section

variable {q : Query}

namespace View

/-- The changes that a batch makes to the view, with a second pass over the local store when a
limit has to be filled up again. -/
def changesFor (view : View q) (store : LocalDocuments) (changes : MaybeDocumentMap) :
    Except HardFail (ViewDocumentChanges q) := do
  let viewDocChanges ← view.computeDocumentChanges changes none
  if viewDocChanges.needsRefill then
    view.computeDocumentChanges (store.executeQuery q) (some viewDocChanges)
  else .ok viewDocChanges

/-- The turn of `EmitNewSnapshotsAndNotifyLocalStore` for one view. -/
def emitNewSnapshot (view : View q) (store : LocalDocuments) (changes : MaybeDocumentMap)
    (targetChange : Option TargetChange) : Except HardFail (View q × ViewChange q) := do
  let viewDocChanges ← view.changesFor store changes
  view.applyChanges viewDocChanges targetChange

/-- The turn of `HandleOnlineStateChange` for one view. -/
def handleOnlineStateChange (view : View q) (onlineState : OnlineState) :
    Except HardFail (View q × ViewChange q) := do
  let (view, change) ← view.applyOnlineStateChange onlineState
  if change.limboAdded = ∅ ∧ change.limboRemoved = ∅ then .ok (view, change)
  else .error .onlineStateChangesLimbo

end View

/-- `emitted` is a history variable, the snapshots that the view has made so far. -/
structure ViewState (q : Query) where
  store : LocalDocuments
  view : View q
  emitted : List (ViewSnapshot q)

inductive ViewEvent
  | changes (changes : MaybeDocumentMap) (targetChange : Option TargetChange)
  | onlineState (onlineState : OnlineState)

def ViewState.record (store : LocalDocuments) (emitted : List (ViewSnapshot q)) :
    View q × ViewChange q → ViewState q
  | (view, change) => ⟨store, view, emitted ++ change.snapshot.toList⟩

/-- `InitializeViewAndComputeSnapshot`, with what it does to limbo. Another query of the same target
may be in sync already. -/
def View.initializeViewAndComputeSnapshot (q : Query) (store : LocalDocuments)
    (remoteKeys : Finset DocumentKey) (mirrored : Option SyncState) :
    Except HardFail (View q × ViewChange q × ViewSnapshot q) := do
  let synthesized : Option TargetChange :=
    mirrored.map fun syncState => ⟨decide (syncState = .synced), ∅, ∅, ∅⟩
  let view := View.new q remoteKeys
  let viewDocChanges ← view.computeDocumentChanges (store.executeQuery q) none
  let (view, change) ← view.applyChanges viewDocChanges synthesized
  match change.snapshot with
  | none => .error .noInitialSnapshot
  | some snapshot => .ok (view, change, snapshot)

def ViewState.listen (q : Query) (store : LocalDocuments) (remoteKeys : Finset DocumentKey)
    (mirrored : Option SyncState) : Except HardFail (ViewState q) := do
  let (view, _, snapshot) ← View.initializeViewAndComputeSnapshot q store remoteKeys mirrored
  .ok ⟨store, view, [snapshot]⟩

/-- The local store changes first. -/
def viewMachine (q : Query) : Machine (ViewState q) ViewEvent HardFail where
  step s
    | .changes changes targetChange =>
        let store := s.store.update changes
        (s.view.emitNewSnapshot store changes targetChange).map (.record store s.emitted)
    | .onlineState onlineState =>
        (s.view.handleOnlineStateChange onlineState).map (.record s.store s.emitted)

namespace LocalDocuments

theorem get_set (store : LocalDocuments) (entry : MaybeDocument) (k : DocumentKey) :
    (store.set entry).get k = if k = entry.key then entry.document? else store.get k := by
  cases entry with
  | document d => exact Keyed.lookup_insert store.distinct (List.Perm.refl _) k
  | noDocument key version committed => exact Keyed.lookup_erase _ _ _
  | unknownDocument key version => exact Keyed.lookup_erase _ _ _

private theorem get_foldl_set (store : LocalDocuments) {entries : List MaybeDocument}
    (h : Keyed.Distinct MaybeDocument.key entries) (k : DocumentKey) :
    (entries.foldl set store).get k =
      ((Keyed.lookup MaybeDocument.key entries k).map MaybeDocument.document?).getD
        (store.get k) := by
  induction entries generalizing store with
  | nil => rfl
  | cons entry entries ih =>
      obtain ⟨hfresh, hentries⟩ := List.nodup_cons.mp h
      rw [List.foldl_cons, ih _ hentries, Keyed.lookup_cons, get_set]
      by_cases hk : entry.key = k
      · have hnone : Keyed.lookup MaybeDocument.key entries k = none := by
          rw [Keyed.lookup_eq_none]
          intro other hother heq
          exact hfresh (hk.trans heq.symm ▸ List.mem_map_of_mem hother)
        rw [hnone, if_pos hk, if_pos hk.symm]
        rfl
      · rw [if_neg hk, if_neg (Ne.symm hk)]

theorem get_update_of_mem (store : LocalDocuments) (changes : MaybeDocumentMap)
    {entry : MaybeDocument} (h : entry ∈ changes.entries) :
    (store.update changes).get entry.key = entry.document? := by
  rw [update, get_foldl_set store changes.distinct, Keyed.lookup_of_mem changes.distinct h]
  rfl

theorem get_update_of_notMem (store : LocalDocuments) (changes : MaybeDocumentMap)
    {k : DocumentKey} (h : k ∉ changes.entries.map MaybeDocument.key) :
    (store.update changes).get k = store.get k := by
  have hnone : Keyed.lookup MaybeDocument.key changes.entries k = none := by
    rw [Keyed.lookup_eq_none]
    intro entry hentry heq
    exact h (heq ▸ List.mem_map_of_mem hentry)
  rw [update, get_foldl_set store changes.distinct, hnone]
  rfl

end LocalDocuments

end

end BookShelf.Firestore
