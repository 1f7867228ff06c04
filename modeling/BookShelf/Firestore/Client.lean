import BookShelf.Firestore.Limbo
import BookShelf.Firestore.QueryListener

/-!
# The client

The sync engine with its views and its limbo documents, and the event manager with its listeners,
over one local store. Queries with the same target share what Watch says about it. The persistence
behind the local store is left out.
-/

namespace BookShelf.Firestore

/-- What the event manager knows about a query: its listeners and its last snapshot. -/
structure QueryListenersInfo (q : Query) where
  listeners : List (QueryListener q)
  viewSnapshot : Option (ViewSnapshot q)

/-- `queryViews`, `queriesByTarget` and `limbo` are the sync engine's, `queries` is the event
manager's. A target stands for its id. -/
structure Client where
  store : LocalDocuments
  onlineState : OnlineState
  queryViews : AList View
  queriesByTarget : Target → List Query
  limbo : Limbo
  queries : AList QueryListenersInfo

/-- `remoteKeys` are the keys that the local store knows for the target of the query. A listener is
removed by its position. Changes may come with what Watch says about the targets of queries and
about those of limbo documents; `rank` puts the views in the order of the loop over them, which
follows no rule. -/
inductive ClientEvent
  | addListener (q : Query) (options : ListenOptions) (remoteKeys : Finset DocumentKey)
  | removeListener (q : Query) (index : Nat)
  | changes (changes : MaybeDocumentMap) (targetChanges : Target → Option TargetChange)
      (limboChanges : Nat → Option TargetChange) (rank : Query → Nat)
  | onlineState (onlineState : OnlineState)
  | rejectedListen (target : Target)
  | rejectedLimbo (id : Nat) (changes : MaybeDocumentMap) (rank : Query → Nat)

namespace QueryListenersInfo

variable {q : Query}

def empty (q : Query) : QueryListenersInfo q :=
  ⟨[], none⟩

def onViewSnapshot (info : QueryListenersInfo q) (snapshot : ViewSnapshot q) :
    Except HardFail (QueryListenersInfo q) := do
  let called ← info.listeners.mapM fun listener => listener.onViewSnapshot snapshot
  .ok ⟨called.map Prod.fst, some snapshot⟩

/-- Only the queries with a new snapshot are told. -/
def receive (info : QueryListenersInfo q) :
    Option (ViewSnapshot q) → Except HardFail (QueryListenersInfo q)
  | none => .ok info
  | some snapshot => info.onViewSnapshot snapshot

def onOnlineStateChanged (info : QueryListenersInfo q) (onlineState : OnlineState) :
    Except HardFail (QueryListenersInfo q) := do
  let called ← info.listeners.mapM fun listener => listener.onOnlineStateChanged onlineState
  .ok { info with listeners := called.map Prod.fst }

end QueryListenersInfo

/-- The key under which a map has the query. -/
def Query.findIn {β : Query → Type} (q : Query) (m : AList β) : Option Query :=
  m.keys.find? q.equals

/-- The turns of all the views in the loop of `EmitNewSnapshotsAndNotifyLocalStore`. -/
def Limbo.updateForViews (limbo : Limbo) (emitted : AList fun q => View q × ViewChange q)
    (rank : Query → Nat) : Limbo :=
  (emitted.entries.insertionSort fun lhs rhs => rank lhs.1 ≤ rank rhs.1).foldl
    (fun limbo entry => limbo.updateTrackedLimboDocuments entry.2.2.limboRemoved
      entry.2.2.limboAdded entry.1.toTarget) limbo

namespace Client

def initial (store : LocalDocuments) : Client :=
  ⟨store, .unknown, ∅, fun _ => [], .initial, ∅⟩

/-- Each query has one snapshot at most, and goes to the listeners of that query alone. -/
def onViewSnapshots (c : Client) (snapshots : ∀ q, Option (ViewSnapshot q)) :
    Except HardFail Client := do
  let queries ← DependentMap.mapM (fun q (info : QueryListenersInfo q) =>
    info.receive (snapshots q)) c.queries
  .ok { c with queries }

/-- The sync state of the first query of the target, if there is one. -/
def mirroredSyncState (c : Client) (target : Target) : Except HardFail (Option SyncState) :=
  match c.queriesByTarget target with
  | [] => .ok none
  | mirror :: _ =>
      match c.queryViews.lookup mirror with
      | none => .error .mirrorNotFound
      | some view => .ok (some view.syncState)

/-- `SyncEngine::Listen`. -/
def listen (c : Client) (q : Query) (remoteKeys : Finset DocumentKey) :
    Except HardFail Client := do
  if (q.findIn c.queryViews).isSome then .error .alreadyListening
  else
    let mirrored ← c.mirroredSyncState q.toTarget
    let (view, change, snapshot) ←
      View.initializeViewAndComputeSnapshot q c.store remoteKeys mirrored
    let c := { c with
      queryViews := c.queryViews.insert q view
      queriesByTarget := Function.update c.queriesByTarget q.toTarget
        (c.queriesByTarget q.toTarget ++ [q])
      limbo := c.limbo.updateTrackedLimboDocuments change.limboRemoved change.limboAdded
        q.toTarget }
    c.onViewSnapshots fun q' => if h : q' = q then some (h ▸ snapshot) else none

/-- `SyncEngine::StopListening`. -/
def stopListening (c : Client) (q : Query) : Except HardFail Client :=
  match q.findIn c.queryViews with
  | none => .error .notListening
  | some key =>
      let queries := (c.queriesByTarget key.toTarget).filter fun q' => !q.equals q'
      .ok { c with
        queryViews := c.queryViews.erase key
        queriesByTarget := Function.update c.queriesByTarget key.toTarget queries
        limbo := if queries = [] then c.limbo.cleanupTarget key.toTarget else c.limbo }

/-- The part of `AddQueryListener` after the look-up. -/
def addListenerUnder (c : Client) (key : Query) (options : ListenOptions)
    (remoteKeys : Finset DocumentKey) : Except HardFail Client := do
  let info := (c.queries.lookup key).getD (.empty key)
  let (listener, raisedEvent) ←
    (QueryListener.create key options).onOnlineStateChanged c.onlineState
  if raisedEvent then .error .brandNewListenerRaised
  else
    let (listener, _) ←
      match info.viewSnapshot with
      | none => .ok (listener, false)
      | some snapshot => listener.onViewSnapshot snapshot
    let added := { c with
      queries := c.queries.insert key { info with listeners := info.listeners ++ [listener] } }
    if key ∈ c.queries then .ok added else added.listen key remoteKeys

/-- The map keeps the first of equal queries as its key. -/
def addQueryListener (c : Client) (q : Query) (options : ListenOptions)
    (remoteKeys : Finset DocumentKey) : Except HardFail Client :=
  if q.ordersByInequality then
    c.addListenerUnder ((q.findIn c.queries).getD q) options remoteKeys
  else .error .firstOrderByMismatch

def removeQueryListener (c : Client) (q : Query) (index : Nat) : Except HardFail Client :=
  if q.ordersByInequality then
    match q.findIn c.queries with
    | none => .ok c
    | some key =>
        match c.queries.lookup key with
        | none => .ok c
        | some info =>
            let listeners := info.listeners.eraseIdx index
            if listeners = [] then { c with queries := c.queries.erase key }.stopListening q
            else .ok { c with queries := c.queries.insert key { info with listeners } }
  else .error .firstOrderByMismatch

/-- The views go first, and then the listeners get the new snapshots. -/
def emitNewSnapshots (c : Client) (changes : MaybeDocumentMap)
    (targetChanges : Target → Option TargetChange) (rank : Query → Nat) :
    Except HardFail Client := do
  let store := c.store.update changes
  let emitted ← DependentMap.mapM (fun q (view : View q) =>
    view.emitNewSnapshot store changes (targetChanges q.toTarget)) c.queryViews
  { c with
    store
    queryViews := DependentMap.map (fun _ => Prod.fst) emitted
    limbo := c.limbo.updateForViews emitted rank }.onViewSnapshots
      fun q => (emitted.lookup q).bind fun viewChange => viewChange.2.snapshot

/-- `ApplyRemoteEvent`; a local write goes the same way, without anything from Watch. -/
def applyChanges (c : Client) (changes : MaybeDocumentMap)
    (targetChanges : Target → Option TargetChange) (limboChanges : Nat → Option TargetChange)
    (rank : Query → Nat) : Except HardFail Client := do
  let limbo ← c.limbo.receive limboChanges
  { c with limbo }.emitNewSnapshots changes targetChanges rank

def handleOnlineStateChange (c : Client) (onlineState : OnlineState) : Except HardFail Client := do
  let emitted ← DependentMap.mapM (fun q (view : View q) =>
    view.handleOnlineStateChange onlineState) c.queryViews
  let c ← { c with queryViews := DependentMap.map (fun _ => Prod.fst) emitted }.onViewSnapshots
    fun q => (emitted.lookup q).bind fun viewChange => viewChange.2.snapshot
  let queries ← DependentMap.mapM (fun q (info : QueryListenersInfo q) =>
    info.onOnlineStateChanged onlineState) c.queries
  .ok { c with queries, onlineState }

/-- The backend has refused the target of a query. Its listeners get the error and are gone. -/
def handleRejectedListen (c : Client) (target : Target) : Client :=
  let rejected := c.queriesByTarget target
  { c with
    queryViews := rejected.foldl (fun views q => views.erase q) c.queryViews
    queriesByTarget := Function.update c.queriesByTarget target []
    limbo := c.limbo.cleanupTarget target
    queries := rejected.foldl (fun queries q => queries.erase q) c.queries }

/-- `RemoteStore::ProcessTargetError`: a target that nobody listens to any more is ignored. -/
def processTargetError (c : Client) (target : Target) : Client :=
  if c.queriesByTarget target = [] then c else c.handleRejectedListen target

/-- The same for the target of a limbo document: it counts as deleted, and the local store says what
that changes. A resolution that has ended is ignored too. -/
def handleRejectedLimbo (c : Client) (id : Nat) (changes : MaybeDocumentMap)
    (rank : Query → Nat) : Except HardFail Client :=
  if id ∈ c.limbo.activeLimboResolutionsByTarget then
    { c with limbo := c.limbo.reject id }.applyChanges changes (fun _ => none) (fun _ => none) rank
  else .ok c

end Client

def clientMachine : Machine Client ClientEvent HardFail where
  step c
    | .addListener q options remoteKeys => c.addQueryListener q options remoteKeys
    | .removeListener q index => c.removeQueryListener q index
    | .changes changes targetChanges limboChanges rank =>
        c.applyChanges changes targetChanges limboChanges rank
    | .onlineState onlineState => c.handleOnlineStateChange onlineState
    | .rejectedListen target => .ok (c.processTargetError target)
    | .rejectedLimbo id changes rank => c.handleRejectedLimbo id changes rank

end BookShelf.Firestore
