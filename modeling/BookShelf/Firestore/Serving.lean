import BookShelf.Firestore.Client
import BookShelf.Firestore.Resolutions

/-!
# The listeners of a client hear everything

However listeners come and go, documents change, targets are rejected and the connection is lost,
each listener has been told what the view of its query shows. With that the client stops at no
assertion of its own, but for those about what the app asks for and about what Watch says.
-/

namespace BookShelf.Firestore

/-- The listeners of a query have heard of its last snapshot, which shows the view. -/
structure Heard {q : Query} (onlineState : OnlineState) (view : View q)
    (info : QueryListenersInfo q) (snapshot : ViewSnapshot q) : Prop where
  last : info.viewSnapshot = some snapshot
  shows : snapshot.documents.known = view.documentSet.known
  cached : snapshot.fromCache = decide (view.syncState = .cached)
  news : snapshot.documentChanges ≠ [] ∨ snapshot.syncStateChanged = true
  listeners : info.listeners ≠ []
  heard : ∀ l ∈ info.listeners, l.onlineState = onlineState ∧ l.Heard snapshot

/-- The view of a query follows the store, and its listeners follow the view. -/
structure Served {q : Query} (store : LocalDocuments) (onlineState : OnlineState) (view : View q)
    (info : QueryListenersInfo q) : Prop where
  tracks : Tracks store view
  hear : ∃ snapshot, Heard onlineState view info snapshot

section

variable {q : Query} {onlineState : OnlineState} {view view' : View q}
  {info : QueryListenersInfo q} {snapshot : ViewSnapshot q}

private theorem mapM_listeners {f : QueryListener q → Except HardFail (QueryListener q × Bool)}
    {P : QueryListener q → Prop} (listeners : List (QueryListener q))
    (h : ∀ l ∈ listeners, ∃ l' raised, f l = .ok (l', raised) ∧ P l') :
    ∃ called, listeners.mapM f = .ok called ∧ called.length = listeners.length ∧
      ∀ l' ∈ called.map Prod.fst, P l' := by
  induction listeners with
  | nil =>
      refine ⟨[], rfl, rfl, ?_⟩
      intro l' hl'
      cases hl'
  | cons l listeners ih =>
      obtain ⟨l', raised, hf, hP⟩ := h l List.mem_cons_self
      obtain ⟨called, hcalled, hlength, hall⟩ :=
        ih fun l hl => h l (List.mem_cons_of_mem _ hl)
      refine ⟨(l', raised) :: called, ?_, by rw [List.length_cons, List.length_cons, hlength], ?_⟩
      · rw [List.mapM_cons, hf, hcalled]
        rfl
      · rw [List.map_cons]
        exact List.forall_mem_cons.mpr ⟨hP, hall⟩

private theorem ne_nil_of_called {called : List (QueryListener q × Bool)}
    {listeners : List (QueryListener q)} (hlength : called.length = listeners.length)
    (hne : listeners ≠ []) : called.map Prod.fst ≠ [] := by
  intro hnil
  rw [List.map_eq_nil_iff] at hnil
  rw [hnil, List.length_nil] at hlength
  exact hne (List.length_eq_zero_iff.mp hlength.symm)

private theorem Heard.onViewSnapshot (h : Heard onlineState view info snapshot)
    {later : ViewSnapshot q} (htells : later.Tells)
    (hold : later.oldDocuments.known = snapshot.documents.known)
    (hshows : later.documents.known = view'.documentSet.known)
    (hcached : later.fromCache = decide (view'.syncState = .cached)) :
    ∃ info', info.onViewSnapshot later = .ok info' ∧ Heard onlineState view' info' later := by
  obtain ⟨called, hcalled, hlength, hall⟩ := mapM_listeners info.listeners
    (P := fun l => l.onlineState = onlineState ∧ l.Heard later)
    (f := fun l : QueryListener q => l.onViewSnapshot later) <| by
      intro l hl
      obtain ⟨honline, hheard⟩ := h.heard l hl
      obtain ⟨l', raised, hok, -, honline', hheard'⟩ := hheard.onViewSnapshot htells hold
      exact ⟨l', raised, hok, honline'.trans honline, hheard'⟩
  refine ⟨⟨called.map Prod.fst, some later⟩, ?_, rfl, hshows, hcached, htells.news,
    ne_nil_of_called hlength h.listeners, hall⟩
  simp [QueryListenersInfo.onViewSnapshot, hcalled, bind, Except.bind]

private theorem Heard.onOnlineStateChanged (h : Heard onlineState view info snapshot)
    (newState : OnlineState) :
    ∃ info', info.onOnlineStateChanged newState = .ok info' ∧
      Heard newState view info' snapshot := by
  obtain ⟨called, hcalled, hlength, hall⟩ := mapM_listeners info.listeners
    (P := fun l => l.onlineState = newState ∧ l.Heard snapshot)
    (f := fun l : QueryListener q => l.onOnlineStateChanged newState) <| by
      intro l hl
      obtain ⟨l', raised, hok, -, honline', hheard'⟩ :=
        (h.heard l hl).2.onOnlineStateChanged newState
      exact ⟨l', raised, hok, honline', hheard'⟩
  refine ⟨{ info with listeners := called.map Prod.fst }, ?_, h.last, h.shows, h.cached, h.news,
    ne_nil_of_called hlength h.listeners, hall⟩
  simp [QueryListenersInfo.onOnlineStateChanged, hcalled, bind, Except.bind]

private theorem Heard.applied {r : ViewDocumentChanges q} {change : ViewChange q}
    (h : Heard onlineState view info snapshot)
    (hr : Consistent view.documentSet.getDocument r) (happlied : Applied view r view' change) :
    ∃ info', info.receive change.snapshot = .ok info' ∧
      ∃ later, Heard onlineState view' info' later := by
  cases hsnapshot : change.snapshot with
  | none =>
      refine ⟨info, rfl, snapshot, h.last, ?_, ?_, h.news, h.listeners, h.heard⟩
      · rw [h.shows, happlied.known_of_silent hr hsnapshot]
      · rw [(happlied.silent hsnapshot).2]
        exact h.cached
  | some later =>
      obtain ⟨hdocuments, hold, -, -, hcached, -⟩ := happlied.loud later hsnapshot
      obtain ⟨info', hok, hheard⟩ := h.onViewSnapshot (happlied.tells hr hsnapshot)
        (by rw [hold, h.shows]) (by rw [hdocuments, happlied.documentSet]) hcached
      exact ⟨info', hok, later, hheard⟩

end

/-- What holds of a client between any two events. -/
structure Client.Inv (c : Client) : Prop where
  same : ∀ q, q ∈ c.queryViews ↔ q ∈ c.queries
  distinct : ∀ q ∈ c.queryViews, ∀ q' ∈ c.queryViews, q.equals q' = true → q = q'
  targets : ∀ target q, q ∈ c.queriesByTarget target ↔ q.toTarget = target ∧ q ∈ c.queryViews
  served : ∀ q view info, c.queryViews.lookup q = some view → c.queries.lookup q = some info →
    Served c.store c.onlineState view info
  limbo : c.limbo.Sound fun target => c.queriesByTarget target ≠ []

/-- The app orders first by the field of its inequality. Watch modifies only documents that the
views of its target know, and says of a limbo document what can be. -/
def Client.Expects (c : Client) : ClientEvent → Prop
  | .addListener q _ _ => q.ordersByInequality = true
  | .removeListener q _ => q.ordersByInequality = true
  | .changes _ targetChanges limboChanges _ =>
      c.limbo.Expects limboChanges ∧
        ∀ entry ∈ c.queryViews.entries, entry.2.KnowsModified (targetChanges entry.1.toTarget)
  | _ => True

instance (c : Client) (e : ClientEvent) : Decidable (c.Expects e) :=
  match e with
  | .addListener q _ _ => inferInstanceAs (Decidable (q.ordersByInequality = true))
  | .removeListener q _ => inferInstanceAs (Decidable (q.ordersByInequality = true))
  | .changes _ targetChanges limboChanges _ => inferInstanceAs (Decidable
      (c.limbo.Expects limboChanges ∧
        ∀ entry ∈ c.queryViews.entries, entry.2.KnowsModified (targetChanges entry.1.toTarget)))
  | .onlineState _ | .rejectedListen _ | .rejectedLimbo _ _ _ => inferInstanceAs (Decidable True)

/-- The assertions that what the app asks for or what Watch says can break. -/
def HardFail.FromOutside (fail : HardFail) : Prop :=
  fail = .firstOrderByMismatch ∨ fail = .modifiedNotFound ∨ fail.OfLimbo

theorem Client.inv_initial (store : LocalDocuments) : (Client.initial store).Inv where
  same q := by simp [initial]
  distinct q hq := absurd hq (AList.notMem_empty q)
  targets target q := by simp [initial]
  served q view info hview := by
    cases hview
  limbo := Limbo.sound_initial _

section

variable {c : Client}

private theorem lookup_of_mem {β : Query → Type} {m : AList β} {q : Query} (h : q ∈ m) :
    ∃ b, m.lookup q = some b :=
  Option.isSome_iff_exists.mp (AList.lookup_isSome.mpr h)

private theorem mem_of_lookup {β : Query → Type} {m : AList β} {q : Query} {b : β q}
    (h : m.lookup q = some b) : q ∈ m :=
  AList.lookup_isSome.mp (by rw [h]; rfl)

theorem findIn_eq_some {β : Query → Type} {m : AList β} {q key : Query}
    (h : q.findIn m = some key) : key ∈ m ∧ q.equals key = true :=
  ⟨AList.mem_keys.mpr (List.mem_of_find?_eq_some h), List.find?_some h⟩

private theorem findIn_eq_none {β : Query → Type} {m : AList β} {q : Query} :
    q.findIn m = none ↔ ∀ key ∈ m, q.equals key ≠ true :=
  List.find?_eq_none

private theorem Client.Inv.findIn_eq (h : c.Inv) {q key : Query} (hkey : key ∈ c.queryViews)
    (hequals : q.equals key = true) : q.findIn c.queryViews = some key := by
  cases hfind : q.findIn c.queryViews with
  | none => exact absurd hequals (findIn_eq_none.mp hfind key hkey)
  | some key' =>
      obtain ⟨hkey', hequals'⟩ := findIn_eq_some hfind
      have hsame := Query.equals_trans (Query.equals_symm hequals') hequals
      rw [h.distinct key' hkey' key hkey hsame]

private theorem Client.Inv.listened (h : c.Inv) {q : Query} (hq : q ∈ c.queryViews) :
    c.queriesByTarget q.toTarget ≠ [] :=
  List.ne_nil_of_mem ((h.targets q.toTarget q).mpr ⟨rfl, hq⟩)

theorem Limbo.Sound.updateForViews {limbo : Limbo} {listened : Target → Prop}
    (h : limbo.Sound listened) {emitted : AList fun q => View q × ViewChange q}
    (rank : Query → Nat) (hemitted : ∀ entry ∈ emitted.entries, listened entry.1.toTarget) :
    (limbo.updateForViews emitted rank).Sound listened := by
  have hturns (entries : List (Sigma fun q => View q × ViewChange q))
      (hentries : ∀ entry ∈ entries, listened entry.1.toTarget) (limbo : Limbo)
      (h : limbo.Sound listened) :
      (entries.foldl (fun limbo entry => limbo.updateTrackedLimboDocuments entry.2.2.limboRemoved
        entry.2.2.limboAdded entry.1.toTarget) limbo).Sound listened := by
    induction entries generalizing limbo with
    | nil => exact h
    | cons entry entries ih =>
        obtain ⟨hentry, hentries⟩ := List.forall_mem_cons.mp hentries
        exact ih hentries _ (h.updateTrackedLimboDocuments _ _ hentry)
  apply hturns _ _ limbo h
  intro entry hentry
  exact hemitted entry ((List.mem_insertionSort _).mp hentry)

private theorem Client.Inv.onViewSnapshots (h : c.Inv) (store : LocalDocuments) {limbo : Limbo}
    (hlimbo : limbo.Sound fun target => c.queriesByTarget target ≠ [])
    (emitted : AList fun q => View q × ViewChange q)
    (hmem : ∀ q, q ∈ emitted ↔ q ∈ c.queryViews)
    (hsome : ∀ q view, c.queryViews.lookup q = some view → ∃ view' change,
      emitted.lookup q = some (view', change) ∧ Tracks store view' ∧
        ∀ info snapshot, Heard c.onlineState view info snapshot →
          ∃ info', info.receive change.snapshot = .ok info' ∧
            ∃ later, Heard c.onlineState view' info' later) :
    ∃ c', { c with
        store, limbo, queryViews := DependentMap.map (fun _ => Prod.fst) emitted }.onViewSnapshots
          (fun q => (emitted.lookup q).bind fun viewChange => viewChange.2.snapshot) = .ok c' ∧
      c'.Inv ∧ c'.onlineState = c.onlineState := by
  have hstep (q : Query) (info : QueryListenersInfo q) (hinfo : c.queries.lookup q = some info) :
      ∃ view view' change info', c.queryViews.lookup q = some view ∧
        emitted.lookup q = some (view', change) ∧ Tracks store view' ∧
        info.receive ((emitted.lookup q).bind fun viewChange => viewChange.2.snapshot) =
          .ok info' ∧
        ∃ later, Heard c.onlineState view' info' later := by
    obtain ⟨view, hview⟩ := lookup_of_mem ((h.same q).mpr (mem_of_lookup hinfo))
    obtain ⟨view', change, hemitted, htracks, hhear⟩ := hsome q view hview
    obtain ⟨snapshot, hheard⟩ := (h.served q view info hview hinfo).hear
    obtain ⟨info', hok, hlater⟩ := hhear info snapshot hheard
    refine ⟨view, view', change, info', hview, hemitted, htracks, ?_, hlater⟩
    rw [hemitted]
    exact hok
  obtain ⟨queries, hqueries, hlookup⟩ := DependentMap.mapM_ok (m := c.queries)
    (f := fun q (info : QueryListenersInfo q) =>
      info.receive ((emitted.lookup q).bind fun viewChange => viewChange.2.snapshot)) <| by
      intro q info hinfo
      obtain ⟨-, -, -, info', -, -, -, hok, -⟩ := hstep q info hinfo
      exact ⟨info', hok⟩
  have hviews (q : Query) : (DependentMap.map (fun _ => Prod.fst) emitted).lookup q =
      (emitted.lookup q).map Prod.fst := DependentMap.lookup_map _ _ _
  have hsameViews (q : Query) :
      q ∈ DependentMap.map (fun _ => Prod.fst) emitted ↔ q ∈ c.queryViews :=
    DependentMap.mem_map.trans (hmem q)
  refine ⟨⟨store, c.onlineState, DependentMap.map (fun _ => Prod.fst) emitted,
    c.queriesByTarget, limbo, queries⟩, ?_, ⟨?_, ?_, ?_, ?_, hlimbo⟩, rfl⟩
  · simp [Client.onViewSnapshots, hqueries, bind, Except.bind]
  · intro q
    change q ∈ DependentMap.map (fun _ => Prod.fst) emitted ↔ q ∈ queries
    rw [hsameViews, h.same, DependentMap.mem_mapM hqueries]
  · intro q hq q' hq'
    exact h.distinct q ((hsameViews q).mp hq) q' ((hsameViews q').mp hq')
  · intro target q
    change q ∈ c.queriesByTarget target ↔
      _ ∧ q ∈ DependentMap.map (fun _ => Prod.fst) emitted
    rw [hsameViews]
    exact h.targets target q
  · intro q view'' info'' hview'' hinfo''
    change (DependentMap.map (fun _ => Prod.fst) emitted).lookup q = some view'' at hview''
    change queries.lookup q = some info'' at hinfo''
    cases hinfo : c.queries.lookup q with
    | none =>
        rw [(hlookup q).1 hinfo] at hinfo''
        cases hinfo''
    | some info =>
        obtain ⟨view, view', change, info', hview, hemitted, htracks, hok, hlater⟩ :=
          hstep q info hinfo
        obtain ⟨info₁, hok₁, hinfo₁⟩ := (hlookup q).2 info hinfo
        obtain rfl : info₁ = info' := Except.ok.inj (hok₁.symm.trans hok)
        obtain rfl : info'' = info₁ := Option.some.inj (hinfo''.symm.trans hinfo₁)
        rw [hviews, hemitted, Option.map_some] at hview''
        obtain rfl := Option.some.inj hview''
        exact ⟨htracks, hlater⟩

theorem Client.Inv.tracks (h : c.Inv) {q : Query} {view : View q}
    (hview : c.queryViews.lookup q = some view) : Tracks c.store view := by
  obtain ⟨info, hinfo⟩ := lookup_of_mem ((h.same q).mp (mem_of_lookup hview))
  exact (h.served q view info hview hinfo).tracks

private theorem knowsModified_lookup {targetChanges : Target → Option TargetChange} :
    (∀ entry ∈ c.queryViews.entries, entry.2.KnowsModified (targetChanges entry.1.toTarget)) ↔
      ∀ q view, c.queryViews.lookup q = some view →
        view.KnowsModified (targetChanges q.toTarget) := by
  constructor
  · intro h q view hview
    exact h ⟨q, view⟩ (AList.mem_lookup_iff.mp hview)
  · intro h entry hentry
    exact h entry.1 entry.2 (AList.mem_lookup_iff.mpr hentry)

private theorem Client.Inv.emitNewSnapshots (h : c.Inv) (changes : MaybeDocumentMap)
    {targetChanges : Target → Option TargetChange} (rank : Query → Nat)
    (hknows : ∀ entry ∈ c.queryViews.entries,
      entry.2.KnowsModified (targetChanges entry.1.toTarget)) :
    ∃ c', c.emitNewSnapshots changes targetChanges rank = .ok c' ∧ c'.Inv := by
  rw [knowsModified_lookup] at hknows
  have hview (q : Query) (view : View q) (hlookup : c.queryViews.lookup q = some view) :=
    emitNewSnapshot_ok (h.tracks hlookup) changes (hknows q view hlookup)
  obtain ⟨emitted, hemitted, hlookup⟩ := DependentMap.mapM_ok (m := c.queryViews)
    (f := fun q (view : View q) => view.emitNewSnapshot (c.store.update changes) changes
      (targetChanges q.toTarget)) <| by
      intro q view hlookup
      obtain ⟨r, view', change, hok, -⟩ := hview q view hlookup
      exact ⟨(view', change), hok⟩
  have hlimbo : (c.limbo.updateForViews emitted rank).Sound fun target =>
      c.queriesByTarget target ≠ [] := by
    apply h.limbo.updateForViews
    intro entry hentry
    apply h.listened
    rw [← DependentMap.mem_mapM hemitted]
    exact mem_of_lookup (AList.mem_lookup_iff.mpr hentry)
  obtain ⟨c', hc', hinv, -⟩ := h.onViewSnapshots (c.store.update changes) hlimbo emitted
    (fun _ => DependentMap.mem_mapM hemitted) <| by
      intro q view hq
      obtain ⟨r, view', change, hok, hr, happlied⟩ := hview q view hq
      obtain ⟨emittedView, hok', hemittedView⟩ := (hlookup q).2 view hq
      obtain rfl := Except.ok.inj (hok'.symm.trans hok)
      refine ⟨view', change, hemittedView, (h.tracks hq).emitted hr happlied, ?_⟩
      intro info snapshot hheard
      exact hheard.applied hr.consistent happlied
  refine ⟨c', ?_, hinv⟩
  simp only [Client.emitNewSnapshots, hemitted, bind, Except.bind]
  exact hc'

private theorem Client.Inv.emitNewSnapshots_error (h : c.Inv) (changes : MaybeDocumentMap)
    {targetChanges : Target → Option TargetChange} (rank : Query → Nat)
    (hunknown : ¬ ∀ entry ∈ c.queryViews.entries,
      entry.2.KnowsModified (targetChanges entry.1.toTarget)) :
    c.emitNewSnapshots changes targetChanges rank = .error .modifiedNotFound := by
  rw [knowsModified_lookup] at hunknown
  cases hemitted : DependentMap.mapM (fun q (view : View q) =>
      view.emitNewSnapshot (c.store.update changes) changes (targetChanges q.toTarget))
      c.queryViews with
  | ok emitted =>
      refine absurd ?_ hunknown
      intro q view hview
      obtain ⟨emittedView, hok⟩ := DependentMap.of_mapM_ok hemitted hview
      by_contra hmodified
      rw [emitNewSnapshot_error (h.tracks hview) changes hmodified] at hok
      cases hok
  | error fail =>
      obtain ⟨q, view, hview, hfail⟩ := DependentMap.mapM_error hemitted
      have hmodified : ¬ view.KnowsModified (targetChanges q.toTarget) := by
        intro hknows
        obtain ⟨r, view', change, hok, -⟩ := emitNewSnapshot_ok (h.tracks hview) changes hknows
        rw [hok] at hfail
        cases hfail
      rw [emitNewSnapshot_error (h.tracks hview) changes hmodified] at hfail
      obtain rfl := Except.error.inj hfail
      simp [Client.emitNewSnapshots, hemitted, bind, Except.bind]

private theorem Client.Inv.handleOnlineStateChange (h : c.Inv) (onlineState : OnlineState) :
    ∃ c', c.handleOnlineStateChange onlineState = .ok c' ∧ c'.Inv := by
  obtain ⟨emitted, hemitted, hlookup⟩ := DependentMap.mapM_ok (m := c.queryViews)
    (f := fun q (view : View q) => view.handleOnlineStateChange onlineState) <| by
      intro q view _
      obtain ⟨view', change, hok, -⟩ := handleOnlineStateChange_ok view onlineState
      exact ⟨(view', change), hok⟩
  obtain ⟨mid, hmid, hinv, honline⟩ := h.onViewSnapshots c.store h.limbo emitted
    (fun _ => DependentMap.mem_mapM hemitted) <| by
      intro q view hq
      have htracks := h.tracks hq
      obtain ⟨view', change, hok, hcases⟩ := handleOnlineStateChange_ok view onlineState
      obtain ⟨emittedView, hok', hemittedView⟩ := (hlookup q).2 view hq
      obtain rfl := Except.ok.inj (hok'.symm.trans hok)
      rcases hcases with ⟨rfl, hnone⟩ | ⟨-, happlied⟩
      · refine ⟨view', change, hemittedView, htracks, ?_⟩
        intro info snapshot hheard
        rw [hnone]
        exact ⟨info, rfl, snapshot, hheard⟩
      · refine ⟨view', change, hemittedView, htracks.offline happlied, ?_⟩
        intro info snapshot hheard
        have hconsistent : Consistent view.documentSet.getDocument
            (⟨view.documentSet, .empty, view.mutatedKeys, false⟩ : ViewDocumentChanges q) :=
          ⟨describesFrom_empty _, htracks.mutated⟩
        have hheard' : Heard c.onlineState { view with current := false } info snapshot :=
          ⟨hheard.last, hheard.shows, hheard.cached, hheard.news, hheard.listeners, hheard.heard⟩
        exact hheard'.applied hconsistent happlied
  have hinfo (q : Query) (info : QueryListenersInfo q) (hq : mid.queries.lookup q = some info) :
      ∃ view snapshot info', mid.queryViews.lookup q = some view ∧ Tracks mid.store view ∧
        info.onOnlineStateChanged onlineState = .ok info' ∧
        Heard onlineState view info' snapshot := by
    obtain ⟨view, hview⟩ := lookup_of_mem ((hinv.same q).mpr (mem_of_lookup hq))
    obtain ⟨htracks, snapshot, hheard⟩ := hinv.served q view info hview hq
    obtain ⟨info', hok, hheard'⟩ := hheard.onOnlineStateChanged onlineState
    exact ⟨view, snapshot, info', hview, htracks, hok, hheard'⟩
  obtain ⟨queries, hqueries, hlookup'⟩ := DependentMap.mapM_ok (m := mid.queries)
    (f := fun q (info : QueryListenersInfo q) => info.onOnlineStateChanged onlineState) <| by
      intro q info hq
      obtain ⟨-, -, info', -, -, hok, -⟩ := hinfo q info hq
      exact ⟨info', hok⟩
  refine ⟨{ mid with queries, onlineState }, ?_, ?_, hinv.distinct, hinv.targets, ?_, hinv.limbo⟩
  · simp only [Client.handleOnlineStateChange, hemitted, bind, Except.bind]
    rw [hmid]
    simp only [hqueries]
  · intro q
    change q ∈ mid.queryViews ↔ q ∈ queries
    rw [hinv.same, DependentMap.mem_mapM hqueries]
  · intro q view' info'' hview' hinfo''
    change mid.queryViews.lookup q = some view' at hview'
    change queries.lookup q = some info'' at hinfo''
    obtain ⟨info, hq⟩ := lookup_of_mem ((hinv.same q).mp (mem_of_lookup hview'))
    obtain ⟨view, snapshot, info', hview, htracks, hok, hheard⟩ := hinfo q info hq
    obtain ⟨info₁, hok₁, hinfo₁⟩ := (hlookup' q).2 info hq
    obtain rfl : info₁ = info' := Except.ok.inj (hok₁.symm.trans hok)
    obtain rfl : info'' = info₁ := Option.some.inj (hinfo''.symm.trans hinfo₁)
    obtain rfl : view' = view := Option.some.inj (hview'.symm.trans hview)
    exact ⟨htracks, snapshot, hheard⟩

private theorem Client.Inv.insert_info (h : c.Inv) {q : Query} {view : View q}
    (info : QueryListenersInfo q) (hview : c.queryViews.lookup q = some view)
    (hserved : Served c.store c.onlineState view info) :
    { c with queries := c.queries.insert q info }.Inv where
  same q' := by
    change _ ↔ q' ∈ c.queries.insert q info
    rw [AList.mem_insert, h.same]
    constructor
    · exact .inr
    · rintro (rfl | hq')
      · exact (h.same q').mp (mem_of_lookup hview)
      · exact hq'
  distinct := h.distinct
  targets := h.targets
  limbo := h.limbo
  served q' view' info' hview' hinfo' := by
    change (c.queries.insert q info).lookup q' = some info' at hinfo'
    by_cases hq : q' = q
    · subst hq
      rw [AList.lookup_insert] at hinfo'
      obtain rfl := Option.some.inj hinfo'
      obtain rfl : view = view' := Option.some.inj (hview.symm.trans hview')
      exact hserved
    · rw [AList.lookup_insert_ne hq] at hinfo'
      exact h.served q' view' info' hview' hinfo'

private theorem mirroredSyncState_ok (h : c.Inv) (target : Target) :
    ∃ mirrored, c.mirroredSyncState target = .ok mirrored := by
  unfold Client.mirroredSyncState
  cases hqueries : c.queriesByTarget target with
  | nil => exact ⟨none, rfl⟩
  | cons mirror rest =>
      have hmem : mirror ∈ c.queriesByTarget target := by simp [hqueries]
      obtain ⟨view, hview⟩ := lookup_of_mem ((h.targets target mirror).mp hmem).2
      simp only [hview]
      exact ⟨some view.syncState, rfl⟩

/-- What the event manager knows of a query when its first listener has just come. -/
private abbrev firstInfo (c : Client) (q : Query) (options : ListenOptions) :
    QueryListenersInfo q :=
  ⟨[{ QueryListener.create q options with onlineState := c.onlineState }], none⟩

/-- A snapshot for one query changes what the event manager knows of that query only. -/
private theorem receive_one {queries : AList QueryListenersInfo} {q : Query}
    {info info' : QueryListenersInfo q} {snapshot : ViewSnapshot q}
    (hinfo : queries.lookup q = some info) (hok : info.onViewSnapshot snapshot = .ok info') :
    ∃ queries', DependentMap.mapM (fun q' (info : QueryListenersInfo q') =>
        info.receive (if h : q' = q then some (h ▸ snapshot) else none)) queries = .ok queries' ∧
      queries'.lookup q = some info' ∧
      ∀ q' ≠ q, queries'.lookup q' = queries.lookup q' := by
  have hself : info.receive (if h : q = q then some (h ▸ snapshot) else none) = .ok info' := by
    rw [dif_pos rfl]
    exact hok
  have hother {q' : Query} (hne : q' ≠ q) (info : QueryListenersInfo q') :
      info.receive (if h : q' = q then some (h ▸ snapshot) else none) = .ok info := by
    rw [dif_neg hne]
    rfl
  obtain ⟨queries', hqueries, hlookup⟩ := DependentMap.mapM_ok (m := queries)
    (f := fun q' (info : QueryListenersInfo q') =>
      info.receive (if h : q' = q then some (h ▸ snapshot) else none)) <| by
      intro q' other hq'
      by_cases hne : q' = q
      · subst hne
        obtain rfl : info = other := Option.some.inj (hinfo.symm.trans hq')
        exact ⟨info', hself⟩
      · exact ⟨other, hother hne other⟩
  refine ⟨queries', hqueries, ?_, ?_⟩
  · obtain ⟨found, hfound, hlookup'⟩ := (hlookup q).2 info hinfo
    rw [hlookup', Except.ok.inj (hfound.symm.trans hself)]
  · intro q' hne
    cases hq' : queries.lookup q' with
    | none => exact (hlookup q').1 hq'
    | some info =>
        obtain ⟨found, hfound, hlookup'⟩ := (hlookup q').2 info hq'
        rw [hlookup', Except.ok.inj (hfound.symm.trans (hother hne info))]

private theorem mem_queriesByTarget_added {queriesByTarget : Target → List Query} {q q' : Query}
    {target : Target} :
    q' ∈ Function.update queriesByTarget q.toTarget (queriesByTarget q.toTarget ++ [q]) target ↔
      q' ∈ queriesByTarget target ∨ q' = q ∧ q'.toTarget = target := by
  by_cases htarget : target = q.toTarget
  · subst htarget
    rw [Function.update_self, List.mem_append, List.mem_singleton]
    refine or_congr_right ⟨?_, And.left⟩
    rintro rfl
    exact ⟨rfl, rfl⟩
  · rw [Function.update_of_ne htarget]
    refine (or_iff_left ?_).symm
    rintro ⟨rfl, hsame⟩
    exact htarget hsame.symm

private theorem Client.Inv.distinct_insert (h : c.Inv) {q : Query} (view : View q)
    (hnew : q.findIn c.queryViews = none) :
    ∀ a ∈ c.queryViews.insert q view, ∀ b ∈ c.queryViews.insert q view,
      a.equals b = true → a = b := by
  have hunequal : ∀ q' ∈ c.queryViews, q.equals q' ≠ true := findIn_eq_none.mp hnew
  intro a ha b hb hequals
  rw [AList.mem_insert] at ha hb
  rcases ha with rfl | ha
  · rcases hb with rfl | hb
    · rfl
    · exact absurd hequals (hunequal b hb)
  · rcases hb with rfl | hb
    · exact absurd (Query.equals_symm hequals) (hunequal a ha)
    · exact h.distinct a ha b hb hequals

private theorem Client.Inv.listen (h : c.Inv) {q : Query}
    (hnew : q.findIn c.queryViews = none) (options : ListenOptions)
    (remoteKeys : Finset DocumentKey) :
    ∃ c', { c with queries := c.queries.insert q (firstInfo c q options) }.listen q remoteKeys =
      .ok c' ∧ c'.Inv := by
  obtain ⟨mirrored, hmirrored⟩ := mirroredSyncState_ok h q.toTarget
  obtain ⟨view, change, snapshot, hview, hinitialized⟩ :=
    initialize_ok q c.store remoteKeys mirrored
  obtain ⟨htells, -, hdocuments, hcached⟩ := hinitialized.tells
  obtain ⟨l, raised, hl, -, honline, hheard⟩ :=
    onViewSnapshot_create options c.onlineState htells.news
  have hinfo : (firstInfo c q options).onViewSnapshot snapshot = .ok ⟨[l], some snapshot⟩ := by
    simp [QueryListenersInfo.onViewSnapshot, hl, bind, Except.bind, pure, Except.pure]
  obtain ⟨queries, hqueries, hself, hother⟩ := receive_one (AList.lookup_insert c.queries) hinfo
  have hothers {q' : Query} (hne : q' ≠ q) : queries.lookup q' = c.queries.lookup q' :=
    (hother q' hne).trans (AList.lookup_insert_ne hne)
  refine ⟨⟨c.store, c.onlineState, c.queryViews.insert q view,
    Function.update c.queriesByTarget q.toTarget (c.queriesByTarget q.toTarget ++ [q]),
    c.limbo.updateTrackedLimboDocuments change.limboRemoved change.limboAdded q.toTarget,
    queries⟩, ?_, ?_, h.distinct_insert view hnew, ?_, ?_, ?_⟩
  · have hmirrored' : { c with
        queries := c.queries.insert q (firstInfo c q options) }.mirroredSyncState q.toTarget =
          .ok mirrored := hmirrored
    simp only [Client.listen, hnew, Option.isSome_none, Bool.false_eq_true, if_false, hmirrored',
      hview, Client.onViewSnapshots, hqueries, bind, Except.bind]
  · intro q'
    change q' ∈ c.queryViews.insert q view ↔ q' ∈ queries
    rw [DependentMap.mem_mapM hqueries, AList.mem_insert, AList.mem_insert, h.same]
  · intro target q'
    change q' ∈ Function.update c.queriesByTarget q.toTarget _ target ↔
      _ ∧ q' ∈ c.queryViews.insert q view
    rw [mem_queriesByTarget_added, AList.mem_insert, h.targets]
    tauto
  · intro q' view' info' hview' hinfo'
    change (c.queryViews.insert q view).lookup q' = some view' at hview'
    change queries.lookup q' = some info' at hinfo'
    by_cases hne : q' = q
    · subst hne
      rw [AList.lookup_insert] at hview'
      rw [hself] at hinfo'
      obtain rfl := Option.some.inj hview'
      obtain rfl := Option.some.inj hinfo'
      refine ⟨hinitialized.tracks, snapshot, rfl, by rw [hdocuments], hcached, htells.news,
        List.cons_ne_nil _ _, ?_⟩
      intro l' hl'
      rw [List.mem_singleton.mp hl']
      exact ⟨honline, hheard⟩
    · rw [AList.lookup_insert_ne hne] at hview'
      rw [hothers hne] at hinfo'
      exact h.served q' view' info' hview' hinfo'
  · have hgrown : c.limbo.Sound fun target =>
        Function.update c.queriesByTarget q.toTarget (c.queriesByTarget q.toTarget ++ [q]) target ≠
          [] := by
      apply h.limbo.mono
      intro target hlistened
      obtain ⟨q', hq'⟩ := List.exists_mem_of_ne_nil _ hlistened
      exact List.ne_nil_of_mem (mem_queriesByTarget_added.mpr (.inl hq'))
    apply hgrown.updateTrackedLimboDocuments
    exact List.ne_nil_of_mem (mem_queriesByTarget_added.mpr (.inr ⟨rfl, rfl⟩))

private theorem Client.Inv.addQueryListener (h : c.Inv) {q : Query} (options : ListenOptions)
    (remoteKeys : Finset DocumentKey) (horders : q.ordersByInequality = true) :
    ∃ c', c.addQueryListener q options remoteKeys = .ok c' ∧ c'.Inv := by
  unfold Client.addQueryListener
  rw [if_pos horders]
  cases hfind : q.findIn c.queries with
  | some key =>
      obtain ⟨hkey, -⟩ := findIn_eq_some hfind
      obtain ⟨info, hinfo⟩ := lookup_of_mem hkey
      obtain ⟨view, hview⟩ := lookup_of_mem ((h.same key).mpr hkey)
      obtain ⟨htracks, snapshot, hheard⟩ := h.served key view info hview hinfo
      obtain ⟨l, raised, hl, -, honline, hl'⟩ := onViewSnapshot_create options
        c.onlineState hheard.news
      refine ⟨_, ?_, h.insert_info { info with listeners := info.listeners ++ [l] } hview
        ⟨htracks, snapshot, hheard.last, hheard.shows, hheard.cached, hheard.news, ?_, ?_⟩⟩
      · simp [Client.addListenerUnder, hinfo, onOnlineStateChanged_create, hheard.last, hl, hkey,
          bind, Except.bind]
      · exact List.append_ne_nil_of_right_ne_nil _ (List.cons_ne_nil _ _)
      · intro l' hmem
        rcases List.mem_append.mp hmem with hmem | hmem
        · exact hheard.heard l' hmem
        · rw [List.mem_singleton.mp hmem]
          exact ⟨honline, hl'⟩
  | none =>
      have hq : q ∉ c.queries := fun hmem =>
        findIn_eq_none.mp hfind q hmem (Query.equals_refl q)
      have hnone : c.queries.lookup q = none := AList.lookup_eq_none.mpr hq
      have hnew : q.findIn c.queryViews = none := by
        rw [findIn_eq_none]
        intro key hkey
        exact findIn_eq_none.mp hfind key ((h.same key).mp hkey)
      obtain ⟨c', hc', hinv⟩ := h.listen hnew options remoteKeys
      refine ⟨c', ?_, hinv⟩
      simp only [Client.addListenerUnder, Option.getD_none, hnone, onOnlineStateChanged_create, hq,
        bind, Except.bind]
      exact hc'

private theorem Client.Inv.erase (h : c.Inv) (q : Query) {queries : List Query}
    (hqueries : ∀ q', q' ∈ queries ↔ q' ∈ c.queriesByTarget q.toTarget ∧ q' ≠ q) :
    { c with
      queryViews := c.queryViews.erase q
      queriesByTarget := Function.update c.queriesByTarget q.toTarget queries
      limbo := if queries = [] then c.limbo.cleanupTarget q.toTarget else c.limbo
      queries := c.queries.erase q }.Inv where
  same q' := by
    change q' ∈ c.queryViews.erase q ↔ q' ∈ c.queries.erase q
    rw [AList.mem_erase, AList.mem_erase, h.same]
  distinct a ha b hb := h.distinct a (AList.mem_erase.mp ha).2 b (AList.mem_erase.mp hb).2
  targets target q' := by
    change q' ∈ Function.update c.queriesByTarget q.toTarget queries target ↔
      _ ∧ q' ∈ c.queryViews.erase q
    rw [AList.mem_erase]
    by_cases htarget : target = q.toTarget
    · subst htarget
      rw [Function.update_self, hqueries, h.targets]
      constructor
      · intro ⟨⟨hsame, hmem⟩, hne⟩
        exact ⟨hsame, hne, hmem⟩
      · intro ⟨hsame, hne, hmem⟩
        exact ⟨⟨hsame, hmem⟩, hne⟩
    · rw [Function.update_of_ne htarget, h.targets]
      constructor
      · intro ⟨hsame, hmem⟩
        refine ⟨hsame, ?_, hmem⟩
        intro heq
        exact htarget (hsame.symm.trans (congrArg Query.toTarget heq))
      · rintro ⟨hsame, -, hmem⟩
        exact ⟨hsame, hmem⟩
  served q' view info hview hinfo := by
    change (c.queryViews.erase q).lookup q' = some view at hview
    change (c.queries.erase q).lookup q' = some info at hinfo
    by_cases hne : q' = q
    · subst hne
      rw [AList.lookup_erase] at hview
      cases hview
    · rw [AList.lookup_erase_ne hne] at hview hinfo
      exact h.served q' view info hview hinfo
  limbo := by
    change (if queries = [] then c.limbo.cleanupTarget q.toTarget else c.limbo).Sound fun target =>
      Function.update c.queriesByTarget q.toTarget queries target ≠ []
    split
    · refine (h.limbo.cleanupTarget q.toTarget).mono ?_
      intro target ⟨hlistened, htarget⟩
      rw [Function.update_of_ne htarget]
      exact hlistened
    · next hleft =>
      apply h.limbo.mono
      intro target hlistened
      by_cases htarget : target = q.toTarget
      · subst htarget
        rw [Function.update_self]
        exact hleft
      · rw [Function.update_of_ne htarget]
        exact hlistened

private theorem Client.Inv.removeQueryListener (h : c.Inv) {q : Query} (index : Nat)
    (horders : q.ordersByInequality = true) :
    ∃ c', c.removeQueryListener q index = .ok c' ∧ c'.Inv := by
  unfold Client.removeQueryListener
  rw [if_pos horders]
  cases hfind : q.findIn c.queries with
  | none => exact ⟨c, rfl, h⟩
  | some key =>
      obtain ⟨hkey, hequals⟩ := findIn_eq_some hfind
      obtain ⟨info, hinfo⟩ := lookup_of_mem hkey
      have hkeyView := (h.same key).mpr hkey
      obtain ⟨view, hview⟩ := lookup_of_mem hkeyView
      obtain ⟨htracks, snapshot, hheard⟩ := h.served key view info hview hinfo
      simp only [hinfo]
      by_cases hlast : info.listeners.eraseIdx index = []
      · rw [if_pos hlast, Client.stopListening, h.findIn_eq hkeyView hequals]
        refine ⟨_, rfl, h.erase key ?_⟩
        intro q'
        rw [List.mem_filter, Bool.not_eq_true']
        refine and_congr_right fun hq' => ?_
        constructor
        · rintro hunequal rfl
          rw [hequals] at hunequal
          cases hunequal
        · intro hne
          rw [Bool.eq_false_iff]
          intro hequals'
          have hq'View := ((h.targets key.toTarget q').mp hq').2
          exact hne (h.distinct q' hq'View key hkeyView
            (Query.equals_trans (Query.equals_symm hequals') hequals))
      · rw [if_neg hlast]
        refine ⟨_, rfl, h.insert_info
          { info with listeners := info.listeners.eraseIdx index } hview
          ⟨htracks, snapshot, hheard.last, hheard.shows, hheard.cached, hheard.news, hlast, ?_⟩⟩
        intro l hl
        exact hheard.heard l (List.mem_of_mem_eraseIdx hl)

private theorem lookup_foldl_erase {β : Query → Type} (rejected : List Query) (m : AList β)
    (q : Query) : (rejected.foldl (fun m q => m.erase q) m).lookup q =
      if q ∈ rejected then none else m.lookup q := by
  induction rejected generalizing m with
  | nil => rfl
  | cons first rejected ih =>
      rw [List.foldl_cons, ih]
      by_cases hq : q = first
      · subst hq
        simp [AList.lookup_erase]
      · simp [AList.lookup_erase_ne hq, hq]

private theorem mem_foldl_erase {β : Query → Type} (rejected : List Query) (m : AList β)
    (q : Query) : q ∈ rejected.foldl (fun m q => m.erase q) m ↔ q ∉ rejected ∧ q ∈ m := by
  rw [← AList.lookup_isSome, lookup_foldl_erase, ← AList.lookup_isSome]
  by_cases hq : q ∈ rejected <;> simp [hq]

private theorem Client.Inv.handleRejectedListen (h : c.Inv) (target : Target) :
    (c.handleRejectedListen target).Inv where
  same q := by
    change q ∈ List.foldl _ _ _ ↔ q ∈ List.foldl _ _ _
    rw [mem_foldl_erase, mem_foldl_erase, h.same]
  distinct a ha b hb :=
    h.distinct a ((mem_foldl_erase _ _ a).mp ha).2 b ((mem_foldl_erase _ _ b).mp hb).2
  targets target' q := by
    change q ∈ Function.update c.queriesByTarget target [] target' ↔ _ ∧ q ∈ List.foldl _ _ _
    rw [mem_foldl_erase, h.targets target]
    by_cases htarget : target' = target
    · subst htarget
      rw [Function.update_self]
      simp only [List.not_mem_nil, false_iff]
      rintro ⟨hsame, hnot, hmem⟩
      exact hnot ⟨hsame, hmem⟩
    · rw [Function.update_of_ne htarget, h.targets]
      constructor
      · rintro ⟨rfl, hmem⟩
        exact ⟨rfl, fun hrejected => htarget hrejected.1, hmem⟩
      · rintro ⟨hsame, -, hmem⟩
        exact ⟨hsame, hmem⟩
  served q view info hview hinfo := by
    change (List.foldl _ c.queryViews _).lookup q = some view at hview
    change (List.foldl _ c.queries _).lookup q = some info at hinfo
    rw [lookup_foldl_erase] at hview hinfo
    by_cases hq : q ∈ c.queriesByTarget target
    · rw [if_pos hq] at hview
      cases hview
    · rw [if_neg hq] at hview hinfo
      exact h.served q view info hview hinfo
  limbo := by
    refine (h.limbo.cleanupTarget target).mono ?_
    intro target' ⟨hlistened, htarget⟩
    change Function.update c.queriesByTarget target [] target' ≠ []
    rw [Function.update_of_ne htarget]
    exact hlistened

private theorem Client.Inv.processTargetError (h : c.Inv) (target : Target) :
    (c.processTargetError target).Inv := by
  unfold Client.processTargetError
  split
  · exact h
  · exact h.handleRejectedListen target

private theorem Client.Inv.of_limbo (h : c.Inv) {limbo : Limbo}
    (hlimbo : limbo.Sound fun target => c.queriesByTarget target ≠ []) : { c with limbo }.Inv :=
  ⟨h.same, h.distinct, h.targets, h.served, hlimbo⟩

private theorem Client.Inv.applyChanges (h : c.Inv) (changes : MaybeDocumentMap)
    {targetChanges : Target → Option TargetChange} {limboChanges : Nat → Option TargetChange}
    (rank : Query → Nat) (hlimbo : c.limbo.Expects limboChanges)
    (hknows : ∀ entry ∈ c.queryViews.entries,
      entry.2.KnowsModified (targetChanges entry.1.toTarget)) :
    ∃ c', c.applyChanges changes targetChanges limboChanges rank = .ok c' ∧ c'.Inv := by
  obtain ⟨limbo, hreceive, hsound⟩ := h.limbo.receive hlimbo
  obtain ⟨c', hc', hinv⟩ := (h.of_limbo hsound).emitNewSnapshots changes rank hknows
  refine ⟨c', ?_, hinv⟩
  simp only [Client.applyChanges, hreceive, bind, Except.bind]
  exact hc'

private theorem Client.Inv.applyChanges_error (h : c.Inv) (changes : MaybeDocumentMap)
    {targetChanges : Target → Option TargetChange} {limboChanges : Nat → Option TargetChange}
    (rank : Query → Nat) (hunexpected : ¬ (c.limbo.Expects limboChanges ∧
      ∀ entry ∈ c.queryViews.entries, entry.2.KnowsModified (targetChanges entry.1.toTarget))) :
    ∃ fail, c.applyChanges changes targetChanges limboChanges rank = .error fail ∧
      fail.FromOutside := by
  by_cases hlimbo : c.limbo.Expects limboChanges
  · obtain ⟨limbo, hreceive, hsound⟩ := h.limbo.receive hlimbo
    have hemit := (h.of_limbo hsound).emitNewSnapshots_error changes rank
      fun hknows => hunexpected ⟨hlimbo, hknows⟩
    refine ⟨.modifiedNotFound, ?_, .inr (.inl rfl)⟩
    simp only [Client.applyChanges, hreceive, bind, Except.bind]
    exact hemit
  · obtain ⟨fail, hfail, hof⟩ := Limbo.receive_error hlimbo
    refine ⟨fail, ?_, .inr (.inr hof)⟩
    simp only [Client.applyChanges, hfail, bind, Except.bind]

private theorem Client.Inv.handleRejectedLimbo (h : c.Inv) (id : Nat) (changes : MaybeDocumentMap)
    (rank : Query → Nat) : ∃ c', c.handleRejectedLimbo id changes rank = .ok c' ∧ c'.Inv := by
  unfold Client.handleRejectedLimbo
  split
  · apply (h.of_limbo (h.limbo.reject id)).applyChanges changes rank
    · intro entry _ change hchange
      cases hchange
    · intro entry _
      trivial
  · exact ⟨c, rfl, h⟩

/-- Every event goes through and keeps the client in order, unless the app or Watch breaks a
rule. -/
theorem Client.Inv.step (h : c.Inv) (e : ClientEvent) :
    (c.Expects e → ∃ c', clientMachine.step c e = .ok c' ∧ c'.Inv) ∧
      (¬ c.Expects e → ∃ fail, clientMachine.step c e = .error fail ∧ fail.FromOutside) := by
  cases e with
  | addListener q options remoteKeys =>
      refine ⟨h.addQueryListener options remoteKeys, ?_⟩
      intro hmismatch
      exact ⟨.firstOrderByMismatch, if_neg hmismatch, .inl rfl⟩
  | removeListener q index =>
      refine ⟨h.removeQueryListener index, ?_⟩
      intro hmismatch
      exact ⟨.firstOrderByMismatch, if_neg hmismatch, .inl rfl⟩
  | changes changes targetChanges limboChanges rank =>
      refine ⟨?_, h.applyChanges_error changes rank⟩
      intro ⟨hlimbo, hknows⟩
      exact h.applyChanges changes rank hlimbo hknows
  | onlineState onlineState =>
      exact ⟨fun _ => h.handleOnlineStateChange onlineState, fun hnot => absurd trivial hnot⟩
  | rejectedListen target =>
      exact ⟨fun _ => ⟨_, rfl, h.processTargetError target⟩, fun hnot => absurd trivial hnot⟩
  | rejectedLimbo id changes rank =>
      exact ⟨fun _ => h.handleRejectedLimbo id changes rank, fun hnot => absurd trivial hnot⟩

end

theorem Client.Inv.of_step {c c' : Client} (h : c.Inv) {e : ClientEvent}
    (hstep : clientMachine.step c e = .ok c') : c'.Inv := by
  by_cases hexpects : c.Expects e
  · obtain ⟨c'', hstep', hinv⟩ := (h.step e).1 hexpects
    obtain rfl : c' = c'' := Except.ok.inj (hstep.symm.trans hstep')
    exact hinv
  · obtain ⟨fail, hfail, -⟩ := (h.step e).2 hexpects
    rw [hfail] at hstep
    cases hstep

theorem inv_of_run {store : LocalDocuments} {es : List ClientEvent} {c : Client}
    (hrun : clientMachine.run (.initial store) es = .ok c) : c.Inv :=
  Machine.run_induction (fun _ _ _ hinv hstep => Client.Inv.of_step hinv hstep)
    (Client.inv_initial store) hrun

/-- Whatever happens, no assertion of the sync engine, of the event manager or of a listener ends
the process, but for those about what the app asks for and about what Watch says: a run goes through
exactly when these are as they have to be. The documents of a view have the fields by which its
query compares them. -/
theorem client_stops_only_from_outside (store : LocalDocuments) (es : List ClientEvent) :
    ((∃ c, clientMachine.run (.initial store) es = .ok c) ↔
      clientMachine.Meets Client.Expects (.initial store) es) ∧
      (∀ fail, clientMachine.run (.initial store) es = .error fail → fail.FromOutside) ∧
      ∀ c, clientMachine.run (.initial store) es = .ok c →
        ∀ q view, c.queryViews.lookup q = some view → ∀ d ∈ view.documentSet.docs,
          ∀ name direction, ⟨.field name, direction⟩ ∈ q.orderBys →
            (d.field name).isSome = true := by
  have hkeep : ∀ c e c', Client.Inv c → clientMachine.step c e = .ok c' → c'.Inv :=
    fun c e c' hinv hstep => hinv.of_step hstep
  have hgoes : ∀ c e, Client.Inv c →
      ((∃ c', clientMachine.step c e = .ok c') ↔ c.Expects e) := by
    intro c e hinv
    constructor
    · intro ⟨c', hstep⟩
      by_contra hunexpected
      obtain ⟨fail, hfail, -⟩ := (hinv.step e).2 hunexpected
      rw [hfail] at hstep
      cases hstep
    · intro hexpects
      obtain ⟨c', hstep, -⟩ := (hinv.step e).1 hexpects
      exact ⟨c', hstep⟩
  have hinitial := Client.inv_initial store
  refine ⟨Machine.run_ok_iff_meets_of_inv hkeep hgoes hinitial es, ?_, ?_⟩
  · intro fail hrun
    refine Machine.trap_of_meets (C := fun _ _ => True) (Q := HardFail.FromOutside)
      (fun c e c' hinv _ hstep => hkeep c e c' hinv hstep) ?_ hinitial
      (Machine.meets_of_forall (fun _ _ _ => trivial) _) hrun
    intro c e fail hinv _ hstep
    have hunexpected : ¬ c.Expects e := by
      rw [← hgoes c e hinv, hstep]
      simp
    obtain ⟨fail', hfail, houtside⟩ := (hinv.step e).2 hunexpected
    obtain rfl := Except.error.inj (hstep.symm.trans hfail)
    exact houtside
  · intro c hrun q view hview d hd name direction horder
    have hmatch := (((inv_of_run hrun).tracks hview).backs d.key d
      (DocumentSet.getDocument_of_mem hd)).1
    exact Query.field_isSome_of_matches hmatch horder

section

variable {store : LocalDocuments} {es : List ClientEvent} {c : Client} {q key : Query}
  {info : QueryListenersInfo key} {l : QueryListener key}

private theorem serves (hinv : c.Inv) (hfind : q.findIn c.queries = some key)
    (hinfo : c.queries.lookup key = some info) :
    q.findIn c.queryViews = some key ∧
      ∃ view, c.queryViews.lookup key = some view ∧ Served c.store c.onlineState view info := by
  obtain ⟨hkey, hequals⟩ := findIn_eq_some hfind
  have hkeyView := (hinv.same key).mpr hkey
  obtain ⟨view, hview⟩ := lookup_of_mem hkeyView
  exact ⟨hinv.findIn_eq hkeyView hequals, view, hview, hinv.served key view info hview hinfo⟩

/-- In every run, each listener has been told exactly what the view of its query shows, whenever
it joined and whatever its options; or it has not been called, and then it has no connection to
wait for, or wants to wait for it, or has nothing to be told. -/
theorem listeners_hear_everything
    (hrun : clientMachine.run (.initial store) es = .ok c)
    (hfind : q.findIn c.queries = some key) (hinfo : c.queries.lookup key = some info)
    (hl : l ∈ info.listeners) :
    q.findIn c.queryViews = some key ∧ ∃ view, c.queryViews.lookup key = some view ∧
      if l.raisedInitialEvent then l.knows = view.documentSet.known
      else l.delivered = [] ∧ view.syncState = .cached ∧ c.onlineState ≠ .offline ∧
        (l.options.waitForSyncWhenOnline = true ∨ view.documentSet.docs = []) := by
  obtain ⟨hfindView, view, hview, -, snapshot, hheard⟩ := serves (inv_of_run hrun) hfind hinfo
  obtain ⟨honline, hlistener⟩ := hheard.heard l hl
  refine ⟨hfindView, view, hview, ?_⟩
  split
  · next hraised => exact (hlistener.told hraised).1.trans hheard.shows
  · next hraised =>
    obtain ⟨hsilent, hcached, hconnected, hnothing⟩ :=
      hlistener.waits (Bool.eq_false_iff.mpr hraised)
    rw [hheard.cached, decide_eq_true_eq] at hcached
    refine ⟨hsilent, hcached, honline ▸ hconnected, hnothing.imp_right ?_⟩
    intro hempty
    rw [List.eq_nil_iff_forall_not_mem]
    intro d hd
    have hknown := congrFun hheard.shows d.key
    have hnone : snapshot.documents.known d.key = none := by
      rw [DocumentSet.known, DocumentSet.getDocument, hempty]
      rfl
    rw [hnone, DocumentSet.known, DocumentSet.getDocument_of_mem hd] at hknown
    cases hknown

/-- A listener of a query without a limit that does not ask to wait for the server knows the
documents of the local store that the query matches, at any time and no others. Their content is
that of the store, unless a write has been acknowledged and Watch has not sent its outcome. -/
theorem listeners_know_matches
    (hrun : clientMachine.run (.initial store) es = .ok c)
    (hfind : q.findIn c.queries = some key) (hinfo : c.queries.lookup key = some info)
    (hl : l ∈ info.listeners) (hlimit : q.limit = none)
    (hoptions : l.options.waitForSyncWhenOnline = false) :
    (∀ n ∈ c.store.docs, q.matchesDocument n = true →
      ∃ content, l.knows n.key = some content ∧
        (content = n.content ∨ n.hasCommittedMutations = true)) ∧
    ∀ k content, l.knows k = some content →
      ∃ n ∈ c.store.docs, n.key = k ∧ q.matchesDocument n = true := by
  obtain ⟨-, view, hview, htracks, snapshot, hheard⟩ := serves (inv_of_run hrun) hfind hinfo
  have hequals := (findIn_eq_some hfind).2
  have hmatches := Query.matchesDocument_of_equals hequals
  rw [Query.limit_of_equals hequals] at hlimit
  obtain ⟨-, hlistener⟩ := hheard.heard l hl
  have hknows : l.knows = view.documentSet.known := by
    rw [← hheard.shows]
    cases hraised : l.raisedInitialEvent with
    | true => exact (hlistener.told hraised).1
    | false =>
        obtain ⟨hsilent, -, -, hnothing⟩ := hlistener.waits hraised
        rcases hnothing with hwait | hempty
        · rw [hoptions] at hwait
          cases hwait
        · funext k
          rw [QueryListener.knows, hsilent, DocumentSet.known, DocumentSet.getDocument, hempty]
          rfl
  rw [hknows]
  constructor
  · intro n hn hmatch
    rw [hmatches] at hmatch
    have hget : c.store.get n.key = some n := Keyed.lookup_of_mem c.store.distinct hn
    obtain ⟨o, ho⟩ := Option.ne_none_iff_exists'.mp (htracks.covers hlimit n.key n hget hmatch)
    refine ⟨o.content, by rw [DocumentSet.known, ho]; rfl, ?_⟩
    obtain ⟨-, n', hn', -, hkeeps⟩ := htracks.backs n.key o ho
    obtain rfl : n = n' := Option.some.inj (hget.symm.trans hn')
    rcases hkeeps with hdata | hwait
    · rw [Document.content, Document.content, DocumentSet.key_of_getDocument ho, hdata]
      exact .inl rfl
    · rw [shouldWaitForSyncedDocument, Bool.and_eq_true, Bool.and_eq_true] at hwait
      exact .inr hwait.1.2
  · intro k content hcontent
    obtain ⟨o, ho, -⟩ := Option.map_eq_some_iff.mp hcontent
    obtain ⟨-, n, hn, hmatch, -⟩ := htracks.backs k o ho
    exact ⟨n, Keyed.mem_of_lookup hn, Keyed.key_of_lookup hn, (hmatches n).trans hmatch⟩

/-- In every run, the server is asked about no more documents in limbo than allowed, and about each
of them under one id. A document waits, once at most, only while as many are asked about as allowed;
and each of them is in limbo for a target of a query that has listeners. -/
theorem limbo_resolutions_bounded (hrun : clientMachine.run (.initial store) es = .ok c) :
    c.limbo.activeLimboTargetsByKey.keys.length ≤ maxConcurrentLimboResolutions ∧
    (∀ k id, c.limbo.activeLimboTargetsByKey.lookup k = some id ↔
      ∃ received, c.limbo.activeLimboResolutionsByTarget.lookup id = some ⟨k, received⟩) ∧
    c.limbo.enqueuedLimboResolutions.Nodup ∧
    (∀ k ∈ c.limbo.enqueuedLimboResolutions, k ∉ c.limbo.activeLimboTargetsByKey ∧
      c.limbo.activeLimboTargetsByKey.keys.length = maxConcurrentLimboResolutions) ∧
    ∀ k, c.limbo.Asks k → ∃ q info, c.queries.lookup q = some info ∧ info.listeners ≠ [] ∧
      (k, q.toTarget) ∈ c.limbo.refs := by
  have hinv := inv_of_run hrun
  obtain ⟨⟨hready, hfull⟩, hreferenced, hlistened⟩ := hinv.limbo
  refine ⟨hready.bounded, hready.paired, hready.waiting, ?_, ?_⟩
  · intro k hk
    exact ⟨hready.apart k hk, le_antisymm hready.bounded (hfull (List.ne_nil_of_mem hk))⟩
  · intro k hasks
    obtain ⟨⟨k', target⟩, href, rfl⟩ := hreferenced k hasks
    obtain ⟨q, hq⟩ := List.exists_mem_of_ne_nil _ (hlistened _ href)
    obtain ⟨rfl, hqView⟩ := (hinv.targets target q).mp hq
    obtain ⟨view, hview⟩ := lookup_of_mem hqView
    obtain ⟨info, hinfo⟩ := lookup_of_mem ((hinv.same q).mp hqView)
    obtain ⟨-, snapshot, hheard⟩ := hinv.served q view info hview hinfo
    exact ⟨q, info, hinfo, hheard.listeners, href⟩

end

/-- The posts, newest first, with the order of the keys written out. -/
def newestPostsByKey : Query :=
  { newestPosts with explicitOrderBys := [⟨.field "date", .descending⟩, ⟨.key, .descending⟩] }

/-- Two listeners of equal queries, with a write and a lost connection between them. -/
def twoListeners : List ClientEvent :=
  [.addListener newestPosts .defaultOptions ∅,
    .changes ⟨[.document ⟨["Posts", "d"], [("date", .serverTimestamp 6)], 0, .localMutations⟩],
      by decide⟩ (fun _ => none) (fun _ => none) (fun _ => 0),
    .onlineState .offline,
    .addListener newestPostsByKey .defaultOptions ∅]

private theorem twoListeners_runs :
    ∃ c info l, clientMachine.run (.initial threePosts) twoListeners = .ok c ∧
      newestPostsByKey.findIn c.queries = some newestPosts ∧
      c.queries.lookup newestPosts = some info ∧ l ∈ info.listeners ∧
      l.options.waitForSyncWhenOnline = false := by
  have hruns : (match clientMachine.run (.initial threePosts) twoListeners with
      | .error _ => false
      | .ok c => match c.queries.lookup newestPosts with
        | none => false
        | some info => newestPostsByKey.findIn c.queries = some newestPosts &&
            info.listeners.any fun l => !l.options.waitForSyncWhenOnline) = true := by
    decide
  cases hrun : clientMachine.run (.initial threePosts) twoListeners with
  | error fail => simp [hrun] at hruns
  | ok c =>
      cases hinfo : c.queries.lookup newestPosts with
      | none => simp [hrun, hinfo] at hruns
      | some info =>
          simp only [hrun, hinfo, Bool.and_eq_true, decide_eq_true_eq, List.any_eq_true,
            Bool.not_eq_true'] at hruns
          obtain ⟨hfind, l, hl, hoptions⟩ := hruns
          exact ⟨c, info, l, rfl, hfind, hinfo, hl, hoptions⟩

theorem listeners_hear_everything_offline :
    ∃ c info l view, clientMachine.run (.initial threePosts) twoListeners = .ok c ∧
      c.queries.lookup newestPosts = some info ∧ l ∈ info.listeners ∧
      c.queryViews.lookup newestPosts = some view := by
  obtain ⟨c, info, l, hrun, hfind, hinfo, hl, -⟩ := twoListeners_runs
  obtain ⟨-, view, hview, -⟩ := listeners_hear_everything hrun hfind hinfo hl
  exact ⟨c, info, l, view, hrun, hinfo, hl, hview⟩

theorem listeners_know_matches_offline :
    ∃ c info l, clientMachine.run (.initial threePosts) twoListeners = .ok c ∧
      c.queries.lookup newestPosts = some info ∧ l ∈ info.listeners ∧
      ∀ k content, l.knows k = some content →
        ∃ n ∈ c.store.docs, n.key = k ∧ newestPostsByKey.matchesDocument n = true := by
  obtain ⟨c, info, l, hrun, hfind, hinfo, hl, hoptions⟩ := twoListeners_runs
  exact ⟨c, info, l, hrun, hinfo, hl,
    (listeners_know_matches hrun hfind hinfo hl rfl hoptions).2⟩

/-- The server answers the query of the listener without one of the cached documents. -/
def documentInLimbo : List ClientEvent :=
  [.addListener newestPosts .defaultOptions ∅,
    .changes ⟨[], by decide⟩
      (fun _ => some ⟨true, {["Posts", "a"], ["Posts", "b"]}, ∅, ∅⟩) (fun _ => none) (fun _ => 0)]

theorem limbo_resolutions_bounded_asked :
    ∃ c, clientMachine.run (.initial threePosts) documentInLimbo = .ok c ∧
      c.limbo.Asks ["Posts", "c"] ∧
      ∃ q info, c.queries.lookup q = some info ∧ info.listeners ≠ [] ∧
        (["Posts", "c"], q.toTarget) ∈ c.limbo.refs := by
  have hruns : (match clientMachine.run (.initial threePosts) documentInLimbo with
      | .error _ => false
      | .ok c => decide (["Posts", "c"] ∈ c.limbo.activeLimboTargetsByKey)) = true := by
    decide
  cases hrun : clientMachine.run (.initial threePosts) documentInLimbo with
  | error fail => simp [hrun] at hruns
  | ok c =>
      simp only [hrun, decide_eq_true_eq] at hruns
      obtain ⟨-, -, -, -, hreferenced⟩ := limbo_resolutions_bounded hrun
      exact ⟨c, rfl, .inl hruns, hreferenced _ (.inl hruns)⟩

end BookShelf.Firestore
