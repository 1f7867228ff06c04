import BookShelf.Firestore.ChangeSet
import Mathlib.Data.Finset.Image
import Mathlib.Data.Finset.SDiff

/-!
# Views

The answer to one query as the client keeps it up to date: `computeDocumentChanges` works out what
a batch of changed documents does to it, and `applyChanges` puts that into force and makes the
snapshot for the listeners.
-/

namespace BookShelf.Firestore

/-- The changed documents of a batch, each key once. -/
structure MaybeDocumentMap where
  entries : List MaybeDocument
  distinct : Keyed.Distinct MaybeDocument.key entries

structure ViewDocumentChanges (q : Query) where
  documentSet : DocumentSet q
  changeSet : DocumentViewChangeSet
  mutatedKeys : Finset DocumentKey
  needsRefill : Bool

/-- `cached` is `SyncState::Local`. -/
inductive SyncState
  | none
  | cached
  | synced
deriving DecidableEq, Repr

inductive OnlineState
  | unknown
  | online
  | offline
deriving DecidableEq, Repr

/-- What Watch says about a target: the keys that entered, changed and left it, and whether it is
current. -/
structure TargetChange where
  current : Bool
  addedDocuments : Finset DocumentKey
  modifiedDocuments : Finset DocumentKey
  removedDocuments : Finset DocumentKey
deriving DecidableEq

structure ViewSnapshot (q : Query) where
  documents : DocumentSet q
  oldDocuments : DocumentSet q
  documentChanges : List DocumentViewChange
  mutatedKeys : Finset DocumentKey
  fromCache : Bool
  syncStateChanged : Bool
  excludesMetadataChanges : Bool
deriving DecidableEq

/-- The snapshot, if there is one, and the documents that entered and left limbo. -/
structure ViewChange (q : Query) where
  snapshot : Option (ViewSnapshot q)
  limboAdded : Finset DocumentKey
  limboRemoved : Finset DocumentKey
deriving DecidableEq

structure View (q : Query) where
  documentSet : DocumentSet q
  syncedDocuments : Finset DocumentKey
  limboDocuments : Finset DocumentKey
  mutatedKeys : Finset DocumentKey
  current : Bool
  syncState : SyncState
deriving DecidableEq

/-- A write that the server has acknowledged: Watch will send the document again. -/
def shouldWaitForSyncedDocument (newDoc oldDoc : Document) : Bool :=
  oldDoc.hasLocalMutations && newDoc.hasCommittedMutations && !newDoc.hasLocalMutations

namespace ViewDocumentChanges

variable {q : Query}

/-- The document enters the set, or replaces its earlier version. -/
def put (r : ViewDocumentChanges q) (d : Document) : ViewDocumentChanges q :=
  { r with
    documentSet := r.documentSet.insert d
    mutatedKeys :=
      if d.hasLocalMutations then insert d.key r.mutatedKeys else r.mutatedKeys.erase d.key }

def drop (r : ViewDocumentChanges q) (key : DocumentKey) : ViewDocumentChanges q :=
  { r with documentSet := r.documentSet.erase key, mutatedKeys := r.mutatedKeys.erase key }

def addChange (r : ViewDocumentChanges q) (change : DocumentViewChange) :
    Except HardFail (ViewDocumentChanges q) :=
  match r.changeSet.addChange change with
  | .ok changeSet => .ok { r with changeSet }
  | .error fail => .error fail

/-- The loop that drops documents at the end that the limit cuts. -/
def dropExcess (type : LimitType) :
    Nat → ViewDocumentChanges q → Except HardFail (ViewDocumentChanges q)
  | 0, r => .ok r
  | n + 1, r =>
      match (match type with
        | .first => r.documentSet.getLastDocument
        | .last => r.documentSet.getFirstDocument) with
      | none => .ok r
      | some found => do
          let r ← (r.drop found.key).addChange ⟨found, .removed⟩
          dropExcess type n r

def applyLimit (r : ViewDocumentChanges q) : Except HardFail (ViewDocumentChanges q) :=
  match q.limit with
  | none => .ok r
  | some ⟨type, count⟩ => r.dropExcess type (r.documentSet.size - count)

end ViewDocumentChanges

namespace View

variable {q : Query}

def new (q : Query) (remoteDocuments : Finset DocumentKey) : View q where
  documentSet := .empty q
  syncedDocuments := remoteDocuments
  limboDocuments := ∅
  mutatedKeys := ∅
  current := false
  syncState := .none

/-- The last document inside a full limit, seen from the documents that the limit keeps. -/
def edgeOfLimit (old : DocumentSet q) : Option Document :=
  match q.limit with
  | none => none
  | some ⟨type, count⟩ =>
      if old.size = count then
        match type with
        | .first => old.getLastDocument
        | .last => old.getFirstDocument
      else none

/-- Has the document moved past the edge? -/
def outsideLimit (q : Query) (edge : Option Document) (newDoc : Document) : Bool :=
  match q.limit, edge with
  | some ⟨.first, _⟩, some last => q.compare newDoc last = .gt
  | some ⟨.last, _⟩, some first => q.compare newDoc first = .lt
  | _, _ => false

/-- One turn of the loop over the changed documents. -/
def visit (view : View q) (old : DocumentSet q) (entry : MaybeDocument)
    (r : ViewDocumentChanges q) : Except HardFail (ViewDocumentChanges q) :=
  let key := entry.key
  let edge := edgeOfLimit old
  match old.getDocument key, entry.document?.filter q.matchesDocument with
  | some oldDoc, some newDoc =>
      let oldDocHadPendingMutations := decide (key ∈ view.mutatedKeys)
      let newDocHasPendingMutations :=
        newDoc.hasLocalMutations || decide (key ∈ view.mutatedKeys) && newDoc.hasCommittedMutations
      if oldDoc.data ≠ newDoc.data then
        if shouldWaitForSyncedDocument newDoc oldDoc then .ok r
        else do
          let r ← (r.put newDoc).addChange ⟨newDoc, .modified⟩
          .ok { r with needsRefill := r.needsRefill || outsideLimit q edge newDoc }
      else if oldDocHadPendingMutations ≠ newDocHasPendingMutations then
        (r.put newDoc).addChange ⟨newDoc, .metadata⟩
      else .ok r
  | none, some newDoc => (r.put newDoc).addChange ⟨newDoc, .added⟩
  | some oldDoc, none => do
      let r ← (r.drop key).addChange ⟨oldDoc, .removed⟩
      .ok { r with needsRefill := r.needsRefill || edge.isSome }
  | none, none => .ok r

def visitAll (view : View q) (old : DocumentSet q) :
    List MaybeDocument → ViewDocumentChanges q → Except HardFail (ViewDocumentChanges q)
  | [], r => .ok r
  | entry :: entries, r => do
      let r ← view.visit old entry r
      visitAll view old entries r

/-- `previousChanges` are there when the limit is filled up again from the local store. -/
def computeDocumentChanges (view : View q) (docChanges : MaybeDocumentMap)
    (previousChanges : Option (ViewDocumentChanges q)) :
    Except HardFail (ViewDocumentChanges q) := do
  let start : ViewDocumentChanges q :=
    match previousChanges with
    | some previous => { previous with needsRefill := false }
    | none => ⟨view.documentSet, .empty, view.mutatedKeys, false⟩
  let r ← view.visitAll start.documentSet docChanges.entries start
  let r ← r.applyLimit
  if r.needsRefill && previousChanges.isSome then .error .refilledNeedsRefill else .ok r

def shouldBeInLimbo (view : View q) (key : DocumentKey) : Bool :=
  match view.documentSet.getDocument key with
  | none => false
  | some d => decide (key ∉ view.syncedDocuments) && !d.hasLocalMutations

def applyTargetChange (view : View q) : Option TargetChange → Except HardFail (View q)
  | none => .ok view
  | some targetChange =>
      let synced := view.syncedDocuments ∪ targetChange.addedDocuments
      if targetChange.modifiedDocuments ⊆ synced then
        .ok { view with
          syncedDocuments := synced \ targetChange.removedDocuments
          current := targetChange.current }
      else .error .modifiedNotFound

/-- Only a view that is in sync with the server can tell which documents are in limbo. -/
def updateLimboDocuments (view : View q) : View q :=
  if view.current then
    { view with
      limboDocuments :=
        ((view.documentSet.docs.map Document.key).filter view.shouldBeInLimbo).toFinset }
  else view

/-- Removed documents come first, then added ones, then modified ones; each in the order of the
query. -/
def ChangeNotAfter (q : Query) (lhs rhs : DocumentViewChange) : Prop :=
  lhs.type.position < rhs.type.position ∨
    lhs.type.position = rhs.type.position ∧ q.NotAfter lhs.document rhs.document

instance (q : Query) : DecidableRel (ChangeNotAfter q) := fun _ _ =>
  inferInstanceAs (Decidable (_ < _ ∨ _ = _ ∧ _))

def applyChanges (view : View q) (docChanges : ViewDocumentChanges q)
    (targetChange : Option TargetChange) : Except HardFail (View q × ViewChange q) := do
  if docChanges.needsRefill then .error .needsRefill
  else
    let updated ← { view with
      documentSet := docChanges.documentSet
      mutatedKeys := docChanges.mutatedKeys : View q }.applyTargetChange targetChange
    let settled := updated.updateLimboDocuments
    let synced := settled.limboDocuments = ∅ ∧ settled.current = true
    let syncState := if synced then SyncState.synced else SyncState.cached
    let syncStateChanged := decide (syncState ≠ view.syncState)
    let changes := docChanges.changeSet.changes.insertionSort (ChangeNotAfter q)
    let snapshot : ViewSnapshot q :=
      { documents := docChanges.documentSet
        oldDocuments := view.documentSet
        documentChanges := changes
        mutatedKeys := docChanges.mutatedKeys
        fromCache := decide (syncState = .cached)
        syncStateChanged
        excludesMetadataChanges := false }
    .ok ({ settled with syncState },
      { snapshot := if changes = [] ∧ syncStateChanged = false then none else some snapshot
        limboAdded := settled.limboDocuments \ updated.limboDocuments
        limboRemoved := updated.limboDocuments \ settled.limboDocuments })

def applyOnlineStateChange (view : View q) (onlineState : OnlineState) :
    Except HardFail (View q × ViewChange q) :=
  if view.current = true ∧ onlineState = .offline then
    { view with current := false }.applyChanges
      ⟨view.documentSet, .empty, view.mutatedKeys, false⟩ none
  else .ok (view, ⟨none, ∅, ∅⟩)

end View

end BookShelf.Firestore
