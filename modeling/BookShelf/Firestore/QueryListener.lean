import BookShelf.Firestore.Snapshots

/-!
# Query listeners

A listener gets its first event once there is something to show, and then the changes of later
snapshots; depending on its options it is not told about changes of metadata. At any time it has
been told all that the view shows, or it waits for its first event.
-/

namespace BookShelf.Firestore

variable {q : Query}

structure ListenOptions where
  includeQueryMetadataChanges : Bool
  includeDocumentMetadataChanges : Bool
  waitForSyncWhenOnline : Bool
deriving DecidableEq, Repr

def ListenOptions.defaultOptions : ListenOptions :=
  ⟨false, false, false⟩

namespace ViewSnapshot

def hasPendingWrites (snapshot : ViewSnapshot q) : Bool :=
  decide (snapshot.mutatedKeys ≠ ∅)

/-- All the documents, as if they had just been added. -/
def fromInitialDocuments (documents : DocumentSet q) (mutatedKeys : Finset DocumentKey)
    (fromCache excludesMetadataChanges : Bool) : ViewSnapshot q where
  documents := documents
  oldDocuments := .empty q
  documentChanges := documents.docs.map fun d => ⟨d, .added⟩
  mutatedKeys := mutatedKeys
  fromCache := fromCache
  syncStateChanged := true
  excludesMetadataChanges := excludesMetadataChanges

def withoutMetadataChanges (snapshot : ViewSnapshot q) : ViewSnapshot q :=
  { snapshot with
    documentChanges := snapshot.documentChanges.filter fun change => change.type ≠ .metadata
    excludesMetadataChanges := true }

end ViewSnapshot

/-- `delivered` is a history variable, the events that the listener has had. -/
structure QueryListener (q : Query) where
  options : ListenOptions
  raisedInitialEvent : Bool
  onlineState : OnlineState
  snapshot : Option (ViewSnapshot q)
  delivered : List (ViewSnapshot q)

namespace QueryListener

def create (q : Query) (options : ListenOptions) : QueryListener q :=
  ⟨options, false, .unknown, none, []⟩

def shouldRaiseInitialEvent (l : QueryListener q) (snapshot : ViewSnapshot q)
    (onlineState : OnlineState) : Except HardFail Bool :=
  if l.raisedInitialEvent then .error .initialEventRaised
  else if !snapshot.fromCache then .ok true
  -- an unknown state may become online
  else if l.options.waitForSyncWhenOnline && decide (onlineState ≠ .offline) then
    if snapshot.fromCache then .ok false else .error .waitingNotFromCache
  else .ok (decide (snapshot.documents.docs ≠ [] ∨ onlineState = .offline))

def shouldRaiseEvent (l : QueryListener q) (snapshot : ViewSnapshot q) : Bool :=
  if snapshot.documentChanges ≠ [] then true
  else
    let hasPendingWritesChanged :=
      match l.snapshot with
      | none => false
      | some last => last.hasPendingWrites != snapshot.hasPendingWrites
    if snapshot.syncStateChanged || hasPendingWritesChanged then
      l.options.includeQueryMetadataChanges
    else false

def raiseInitialEvent (l : QueryListener q) (snapshot : ViewSnapshot q) :
    Except HardFail (QueryListener q) :=
  if l.raisedInitialEvent then .error .initialEventRaised
  else
    let modifiedSnapshot := ViewSnapshot.fromInitialDocuments snapshot.documents
      snapshot.mutatedKeys snapshot.fromCache snapshot.excludesMetadataChanges
    .ok { l with raisedInitialEvent := true, delivered := l.delivered ++ [modifiedSnapshot] }

/-- Raise the initial event if it is time for it. -/
def tryInitialEvent (l : QueryListener q) (snapshot : ViewSnapshot q)
    (onlineState : OnlineState) : Except HardFail (QueryListener q × Bool) := do
  if ← l.shouldRaiseInitialEvent snapshot onlineState then
    let l ← l.raiseInitialEvent snapshot
    .ok (l, true)
  else .ok (l, false)

/-- The listener afterwards, and whether it has been called. -/
def onViewSnapshot (l : QueryListener q) (snapshot : ViewSnapshot q) :
    Except HardFail (QueryListener q × Bool) := do
  if snapshot.documentChanges = [] ∧ snapshot.syncStateChanged = false then
    .error .snapshotWithoutChanges
  else
    let snapshot :=
      if l.options.includeDocumentMetadataChanges then snapshot
      else snapshot.withoutMetadataChanges
    let (l, raisedEvent) ←
      if l.raisedInitialEvent = false then l.tryInitialEvent snapshot l.onlineState
      else if l.shouldRaiseEvent snapshot then
        .ok ({ l with delivered := l.delivered ++ [snapshot] }, true)
      else .ok (l, false)
    .ok ({ l with snapshot := some snapshot }, raisedEvent)

def onOnlineStateChanged (l : QueryListener q) (onlineState : OnlineState) :
    Except HardFail (QueryListener q × Bool) :=
  let l := { l with onlineState }
  match l.snapshot with
  | none => .ok (l, false)
  | some snapshot =>
      if l.raisedInitialEvent = false then l.tryInitialEvent snapshot onlineState
      else .ok (l, false)

/-- What the listener has been told, all its events put together. -/
def knows (l : QueryListener q) : KnownContents :=
  replay (fun _ => none) (l.delivered.flatMap ViewSnapshot.documentChanges)

end QueryListener

/-- The listener still waits for its first event: it has nothing but an empty answer from the
cache, or has asked for the server's. -/
structure QueryListener.Waits (l : QueryListener q) (snapshot : ViewSnapshot q) : Prop where
  silent : l.delivered = []
  cached : snapshot.fromCache = true
  connected : l.onlineState ≠ .offline
  nothing : l.options.waitForSyncWhenOnline = true ∨ snapshot.documents.docs = []

/-- The listener has heard of the snapshot. -/
structure QueryListener.Heard (l : QueryListener q) (snapshot : ViewSnapshot q) : Prop where
  last : ∃ seen, l.snapshot = some seen ∧ seen.documents = snapshot.documents ∧
    seen.mutatedKeys = snapshot.mutatedKeys ∧ seen.fromCache = snapshot.fromCache
  told : l.raisedInitialEvent = true → l.knows = snapshot.documents.known ∧
    ∃ event, l.delivered.getLast? = some event ∧ event.documents.known = snapshot.documents.known
  waits : l.raisedInitialEvent = false → l.Waits snapshot

section

variable {snapshot earlier : ViewSnapshot q} {l : QueryListener q}

theorem ViewSnapshot.Tells.replay_withoutMetadataChanges (h : snapshot.Tells) :
    Firestore.replay snapshot.oldDocuments.known snapshot.withoutMetadataChanges.documentChanges =
      snapshot.documents.known := by
  funext k
  have hdistinct : Keyed.Distinct DocumentViewChange.key
      snapshot.withoutMetadataChanges.documentChanges := h.distinct.sublist List.filter_sublist
  have hlookup : Keyed.lookup DocumentViewChange.key
      snapshot.withoutMetadataChanges.documentChanges k =
        (Keyed.lookup DocumentViewChange.key snapshot.documentChanges k).filter
          fun change => change.type ≠ .metadata := Keyed.lookup_filter h.distinct _ k
  have hdescribes := h.describes k
  have htold := hdescribes.told
  rw [replay_apply _ hdistinct, hlookup]
  cases hchange : Keyed.lookup DocumentViewChange.key snapshot.documentChanges k with
  | none =>
      rw [hchange] at htold
      exact htold
  | some change =>
      rw [hchange] at hdescribes htold
      by_cases htype : change.type = .metadata
      · rw [Option.filter_some_neg (by simp [htype])]
        cases hdescribes with
        | metadata d old hold hnew hcontent =>
            change (snapshot.oldDocuments.getDocument k).map Document.content =
              (snapshot.documents.getDocument k).map Document.content
            rw [hold, hnew, Option.map_some, Option.map_some, hcontent]
        | _ => cases htype
      · rw [Option.filter_some_pos (by simp [htype])]
        exact htold

theorem replay_initialDocuments (documents : DocumentSet q) (mutatedKeys : Finset DocumentKey)
    (fromCache excludesMetadataChanges : Bool) :
    replay (fun _ => none) (ViewSnapshot.fromInitialDocuments documents mutatedKeys fromCache
      excludesMetadataChanges).documentChanges = documents.known := by
  have hdistinct : Keyed.Distinct DocumentViewChange.key
      (documents.docs.map fun d => (⟨d, .added⟩ : DocumentViewChange)) := by
    rw [Keyed.Distinct, List.map_map]
    exact documents.distinct
  funext k
  have hlookup : Keyed.lookup DocumentViewChange.key
      (documents.docs.map fun d => (⟨d, .added⟩ : DocumentViewChange)) k =
        (documents.getDocument k).map fun d => ⟨d, .added⟩ :=
    Keyed.lookup_map _ (fun _ => rfl) _ _
  change replay _ (documents.docs.map _) k = _
  rw [replay_apply _ hdistinct, hlookup, DocumentSet.known]
  cases documents.getDocument k <;> rfl

private theorem tryInitialEvent_ok (hfresh : l.raisedInitialEvent = false)
    (hsilent : l.delivered = []) (snapshot : ViewSnapshot q) :
    ∃ l' raised, l.tryInitialEvent snapshot l.onlineState = .ok (l', raised) ∧
      l'.options = l.options ∧ l'.onlineState = l.onlineState ∧ l'.snapshot = l.snapshot ∧
      (l'.raisedInitialEvent = true → l'.knows = snapshot.documents.known ∧
        ∃ event, l'.delivered.getLast? = some event ∧
          event.documents.known = snapshot.documents.known) ∧
      (l'.raisedInitialEvent = false → l'.Waits snapshot) := by
  have hraise : ∃ l', l.raiseInitialEvent snapshot = .ok l' ∧ l'.options = l.options ∧
      l'.onlineState = l.onlineState ∧ l'.snapshot = l.snapshot ∧
      l'.raisedInitialEvent = true ∧ l'.knows = snapshot.documents.known ∧
        ∃ event, l'.delivered.getLast? = some event ∧
          event.documents.known = snapshot.documents.known := by
    unfold QueryListener.raiseInitialEvent
    simp only [hfresh, Bool.false_eq_true, if_false]
    refine ⟨_, rfl, rfl, rfl, rfl, rfl, ?_, _, List.getLast?_concat, rfl⟩
    rw [QueryListener.knows, hsilent, List.nil_append, List.flatMap_singleton]
    exact replay_initialDocuments _ _ _ _
  unfold QueryListener.tryInitialEvent
  cases hshould : l.shouldRaiseInitialEvent snapshot l.onlineState with
  | error fail =>
      unfold QueryListener.shouldRaiseInitialEvent at hshould
      simp only [hfresh, Bool.false_eq_true, if_false] at hshould
      split at hshould
      · cases hshould
      · split at hshould
        · split at hshould
          · cases hshould
          · simp_all
        · cases hshould
  | ok should =>
      cases should with
      | true =>
          obtain ⟨l', hl', hoptions, honline, hsnapshot, hraised, htold⟩ := hraise
          refine ⟨l', true, by simp [hl', bind, Except.bind], hoptions, honline, hsnapshot,
            fun _ => htold, ?_⟩
          intro hnot
          rw [hraised] at hnot
          cases hnot
      | false =>
          refine ⟨l, false, rfl, rfl, rfl, rfl, ?_, fun _ => ?_⟩
          · intro hraised
            rw [hfresh] at hraised
            cases hraised
          · unfold QueryListener.shouldRaiseInitialEvent at hshould
            simp only [hfresh, Bool.false_eq_true, if_false] at hshould
            split at hshould
            · cases hshould
            · next hcached =>
              have hcached : snapshot.fromCache = true := by simpa using hcached
              split at hshould
              · next hwait =>
                rw [Bool.and_eq_true, decide_eq_true_eq] at hwait
                exact ⟨hsilent, hcached, hwait.2, .inl hwait.1⟩
              · obtain ⟨hempty, honline⟩ : snapshot.documents.docs = [] ∧
                    l.onlineState ≠ .offline := by simpa using hshould
                exact ⟨hsilent, hcached, honline, .inr hempty⟩

/-- The snapshot as the listener sees it. -/
private def seenBy (l : QueryListener q) (snapshot : ViewSnapshot q) : ViewSnapshot q :=
  if l.options.includeDocumentMetadataChanges then snapshot else snapshot.withoutMetadataChanges

private theorem seenBy_same (l : QueryListener q) (snapshot : ViewSnapshot q) :
    (seenBy l snapshot).documents = snapshot.documents ∧
      (seenBy l snapshot).mutatedKeys = snapshot.mutatedKeys ∧
      (seenBy l snapshot).fromCache = snapshot.fromCache := by
  unfold seenBy
  split <;> exact ⟨rfl, rfl, rfl⟩

private theorem replay_seenBy (l : QueryListener q) (h : snapshot.Tells) :
    replay snapshot.oldDocuments.known (seenBy l snapshot).documentChanges =
      snapshot.documents.known := by
  unfold seenBy
  split
  · exact h.replay
  · exact h.replay_withoutMetadataChanges

private theorem QueryListener.Waits.of_same {seen : ViewSnapshot q} (h : l.Waits seen)
    (hdocuments : seen.documents = snapshot.documents)
    (hcache : seen.fromCache = snapshot.fromCache) : l.Waits snapshot :=
  ⟨h.silent, hcache ▸ h.cached, h.connected, hdocuments ▸ h.nothing⟩

private theorem not_silent_of_news
    (hnews : snapshot.documentChanges ≠ [] ∨ snapshot.syncStateChanged = true) :
    ¬ (snapshot.documentChanges = [] ∧ snapshot.syncStateChanged = false) := by
  intro ⟨hempty, hstate⟩
  simp [hempty, hstate] at hnews

private theorem onViewSnapshot_silent (hfresh : l.raisedInitialEvent = false)
    (hsilent : l.delivered = [])
    (hnews : snapshot.documentChanges ≠ [] ∨ snapshot.syncStateChanged = true) :
    ∃ l' raised, l.onViewSnapshot snapshot = .ok (l', raised) ∧ l'.options = l.options ∧
      l'.onlineState = l.onlineState ∧ l'.Heard snapshot := by
  obtain ⟨hdocuments, hmutated, hcache⟩ := seenBy_same l snapshot
  obtain ⟨l', raised, htry, hoptions, honline, -, htold, hwaits⟩ :=
    tryInitialEvent_ok hfresh hsilent (seenBy l snapshot)
  have hnot := not_silent_of_news hnews
  refine ⟨{ l' with snapshot := some (seenBy l snapshot) }, raised, ?_, hoptions, honline,
    ⟨_, rfl, hdocuments, hmutated, hcache⟩, ?_, ?_⟩
  · unfold QueryListener.onViewSnapshot
    rw [if_neg hnot]
    unfold seenBy at htry ⊢
    simp only [hfresh, if_true, htry, bind, Except.bind]
  · rw [hdocuments] at htold
    exact htold
  · intro hnotRaised
    have hwait := (hwaits hnotRaised).of_same hdocuments hcache
    exact ⟨hwait.silent, hwait.cached, hwait.connected, hwait.nothing⟩

private theorem onViewSnapshot_raised (hraised : l.raisedInitialEvent = true)
    (hnews : snapshot.documentChanges ≠ [] ∨ snapshot.syncStateChanged = true) :
    l.onViewSnapshot snapshot = .ok
      (if l.shouldRaiseEvent (seenBy l snapshot) then
        ({ l with
          delivered := l.delivered ++ [seenBy l snapshot]
          snapshot := some (seenBy l snapshot) }, true)
      else ({ l with snapshot := some (seenBy l snapshot) }, false)) := by
  have hnot := not_silent_of_news hnews
  obtain ⟨options, raised, onlineState, last, delivered⟩ := l
  cases hraised
  unfold QueryListener.onViewSnapshot
  rw [if_neg hnot]
  cases hshould : QueryListener.shouldRaiseEvent ⟨options, true, onlineState, last, delivered⟩
      (seenBy ⟨options, true, onlineState, last, delivered⟩ snapshot) with
  | true =>
      unfold seenBy at hshould ⊢
      simp only [Bool.true_eq_false, if_false, hshould, if_true, bind, Except.bind]
  | false =>
      unfold seenBy at hshould ⊢
      simp only [Bool.true_eq_false, if_false, hshould, Bool.false_eq_true, bind, Except.bind]

theorem QueryListener.Heard.onViewSnapshot (h : l.Heard earlier) (htells : snapshot.Tells)
    (hold : snapshot.oldDocuments.known = earlier.documents.known) :
    ∃ l' raised, l.onViewSnapshot snapshot = .ok (l', raised) ∧ l'.options = l.options ∧
      l'.onlineState = l.onlineState ∧ l'.Heard snapshot := by
  cases hraised : l.raisedInitialEvent with
  | false => exact onViewSnapshot_silent hraised (h.waits hraised).silent htells.news
  | true =>
      obtain ⟨hdocuments, hmutated, hcache⟩ := seenBy_same l snapshot
      obtain ⟨hknows, event, hlast, hevent⟩ := h.told hraised
      have hreplay := replay_seenBy l htells
      rw [hold] at hreplay
      have hnever (l' : QueryListener q) (hsame : l'.raisedInitialEvent = true)
          (hnot : l'.raisedInitialEvent = false) : l'.Waits snapshot := by
        rw [hsame] at hnot
        cases hnot
      rw [onViewSnapshot_raised hraised htells.news]
      cases hshould : l.shouldRaiseEvent (seenBy l snapshot) with
      | true =>
          refine ⟨_, _, rfl, rfl, rfl, ⟨_, rfl, hdocuments, hmutated, hcache⟩, ?_,
            hnever _ hraised⟩
          intro _
          refine ⟨?_, seenBy l snapshot, List.getLast?_concat, by rw [hdocuments]⟩
          change replay _ ((l.delivered ++ [seenBy l snapshot]).flatMap _) = _
          rw [List.flatMap_append, replay, List.foldl_append, List.flatMap_singleton]
          change replay l.knows _ = _
          rw [hknows]
          exact hreplay
      | false =>
          have hempty : (seenBy l snapshot).documentChanges = [] := by
            by_contra hchanges
            rw [QueryListener.shouldRaiseEvent, if_pos hchanges] at hshould
            cases hshould
          rw [hempty] at hreplay
          have hsame : earlier.documents.known = snapshot.documents.known := hreplay
          refine ⟨_, _, rfl, rfl, rfl, ⟨_, rfl, hdocuments, hmutated, hcache⟩, ?_,
            hnever _ hraised⟩
          intro _
          exact ⟨hknows.trans hsame, event, hlast, hevent.trans hsame⟩

theorem QueryListener.Heard.onOnlineStateChanged (h : l.Heard snapshot)
    (onlineState : OnlineState) :
    ∃ l' raised, l.onOnlineStateChanged onlineState = .ok (l', raised) ∧
      l'.options = l.options ∧ l'.onlineState = onlineState ∧ l'.Heard snapshot := by
  obtain ⟨seen, hseen, hdocuments, hmutated, hcache⟩ := h.last
  cases hraised : l.raisedInitialEvent with
  | true =>
      refine ⟨{ l with onlineState }, false, ?_, rfl, rfl,
        ⟨seen, hseen, hdocuments, hmutated, hcache⟩, fun _ => h.told hraised, ?_⟩
      · simp [QueryListener.onOnlineStateChanged, hseen, hraised]
      · intro hnot
        change l.raisedInitialEvent = false at hnot
        rw [hraised] at hnot
        cases hnot
  | false =>
      obtain ⟨l', raised, htry, hoptions, honline, hsnapshot, htold, hwaits⟩ :=
        tryInitialEvent_ok (l := { l with onlineState }) hraised (h.waits hraised).silent seen
      refine ⟨l', raised, ?_, hoptions, honline,
        ⟨seen, hsnapshot.trans hseen, hdocuments, hmutated, hcache⟩, ?_, ?_⟩
      · unfold QueryListener.onOnlineStateChanged
        simp only [hseen, hraised, if_true]
        rw [← hseen, ← hraised]
        exact htry
      · rw [hdocuments] at htold
        exact htold
      · intro hnot
        exact (hwaits hnot).of_same hdocuments hcache

theorem onOnlineStateChanged_create (q : Query) (options : ListenOptions)
    (onlineState : OnlineState) :
    (QueryListener.create q options).onOnlineStateChanged onlineState =
      .ok ({ QueryListener.create q options with onlineState }, false) :=
  rfl

theorem onViewSnapshot_create (options : ListenOptions) (onlineState : OnlineState)
    (hnews : snapshot.documentChanges ≠ [] ∨ snapshot.syncStateChanged = true) :
    ∃ l' raised, { QueryListener.create q options with onlineState }.onViewSnapshot snapshot =
        .ok (l', raised) ∧ l'.options = options ∧ l'.onlineState = onlineState ∧
      l'.Heard snapshot :=
  onViewSnapshot_silent (l := { QueryListener.create q options with onlineState }) rfl rfl hnews

end

end BookShelf.Firestore
