import BookShelf.SDWebImage.Shown

/-!
# When nothing is left to do

A load ends with an image in its view or with an error, unless its handler is added to a download
that has collected its handlers already and is not marked as finished yet. Such a handler is
dropped, and its operation runs for ever.
-/

namespace BookShelf.SDWebImage

open Loading

variable {Data Image : Type} {coders : Coders Data Image} {diskCache : URL → Option Data}
  {s s' : Loading Data Image}

/-- The next task of the main queue adds a handler that is never called. -/
def Loading.HandlerIsLate (s : Loading Data Image) : LoadEvent Data → Prop
  | .main =>
      match s.mainQueue with
      | .queried o none :: _ => (s.operations o).isCancelled = false ∧ s.AttachesLate o
      | _ => False
  | _ => False

instance (s : Loading Data Image) (o : Nat) : Decidable (s.AttachesLate o) :=
  match hknown : s.urlOperations (s.operations o).url with
  | none => isFalse fun ⟨d, hd, _⟩ => by
      rw [hknown] at hd
      cases hd
  | some d =>
      decidable_of_iff ((s.downloads d).isFinished = false ∧ (s.downloads d).isCancelled = false ∧
          (s.downloads d).stage.willCall = false)
        ⟨fun h => ⟨d, hknown, h⟩, fun ⟨d', hd', h⟩ => by
          rw [hknown] at hd'
          obtain rfl := Option.some.inj hd'
          exact h⟩

instance (s : Loading Data Image) (e : LoadEvent Data) : Decidable (s.HandlerIsLate e) := by
  unfold Loading.HandlerIsLate
  split
  · split <;> infer_instance
  · infer_instance

/-- Every operation that runs waits for something, and every view that was given a URL shows an
image of it, has seen it fail, or has an operation that runs. -/
structure Loading.Pursues (s : Loading Data Image) : Prop where
  waits : ∀ o ∈ s.runningOperations, o ∈ s.waiting
  blocked : s.failedURLs ⊆ s.failed
  pursued : ∀ v url, (s.views v).imageURL = some url →
    (s.views v).image ≠ none ∨ url ∈ s.failed ∨
      ∃ o ∈ s.runningOperations, (s.operations o).view = v

theorem Loading.Pursues.ends (h : s.Pursues) (hcontrol : s.Control) {gone : Finset Nat}
    {lost : Multiset Nat} (hends : Ends s s' gone lost) : s'.Pursues where
  waits o ho := by
    rw [hends.settles.running, Finset.mem_sdiff] at ho
    have hwaits := h.waits o ho.1
    rw [hends.settles.waiting] at hwaits
    exact (Multiset.mem_add.mp hwaits).resolve_right fun hlost => ho.2 ((hends.ended o).mpr hlost)
  blocked := by
    intro url hurl
    rcases Finset.mem_union.mp (hends.answers.blocked hurl) with hold | hfailed
    · exact hends.answers.failed (h.blocked hold)
    · exact hfailed
  pursued v url hurl := by
    rw [hends.settles.imageURL] at hurl
    rcases h.pursued v url hurl with himage | hfailed | ⟨o, ho, hview⟩
    · exact .inl (hends.answers.image v himage)
    · exact .inr (.inl (hends.answers.failed hfailed))
    · obtain ⟨hcancelled, -, hself⟩ := hcontrol.running o ho
      by_cases hgone : o ∈ gone
      · rw [hview] at hself
        obtain rfl : url = (s.operations o).url := Option.some.inj (hurl.symm.trans hself)
        rcases hends.answers.gone o hgone hcancelled with himage | hfailed
        · rw [hview] at himage
          exact .inl himage
        · exact .inr (.inl hfailed)
      · refine .inr (.inr ⟨o, ?_, ?_⟩)
        · rw [hends.settles.running, Finset.mem_sdiff]
          exact ⟨ho, hgone⟩
        · rw [hends.settles.operations]
          exact hview

theorem Loading.Pursues.attaches (h : s.Pursues) (hcontrol : s.Control) {o : Nat}
    {rest : List (MainTask Data Image)} (hqueue : s.mainQueue = .queried o none :: rest)
    (hcancelled : (s.operations o).isCancelled = false) (hlate : ¬ s.AttachesLate o) :
    ({ s with mainQueue := rest }.callDownloadProcess o none).Pursues := by
  obtain ⟨hpopped, hlt, hfresh, hrunning⟩ := hcontrol.of_queried hqueue
  obtain ⟨-, hwaits, hold⟩ := hpopped.callDownloadProcess_none hlt hfresh (hrunning hcancelled)
  obtain ⟨gained, hattaches, -⟩ := attaches_downloadImage hpopped o
  have hrest := hattaches.rest
  have hcaptured := captured_callDownloadProcess_none { s with mainQueue := rest } o
  set mid := (({ s with mainQueue := rest } : Loading Data Image).downloadImage
    (s.operations o).url o).1
  have hwaiting := (settles_popMain hqueue).waiting
  constructor
  · intro i hi
    change i ∈ mid.runningOperations at hi
    rw [hrest] at hi
    by_cases hio : i = o
    · subst hio
      exact hwaits.resolve_right hlate
    · apply hold
      have hi' := h.waits i hi
      rw [hwaiting] at hi'
      exact (Multiset.mem_add.mp hi').resolve_right fun hmem =>
        hio (Multiset.mem_singleton.mp hmem)
  · change mid.failedURLs ⊆ mid.failed
    rw [hrest]
    exact h.blocked
  · intro v url hurl
    change (mid.views v).imageURL = some url at hurl
    change (mid.views v).image ≠ none ∨ url ∈ mid.failed ∨
      ∃ i ∈ mid.runningOperations, _ = v
    simp only [(hcaptured _).1]
    rw [hrest] at hurl ⊢
    exact h.pursued v url hurl

/-! ## A view asks for an image -/

/-- All that is pursued, the view `v` left aside. -/
structure Loading.PursuesOthers (s : Loading Data Image) (v : Nat) : Prop where
  waits : ∀ o ∈ s.runningOperations, o ∈ s.waiting
  blocked : s.failedURLs ⊆ s.failed
  pursued : ∀ w ≠ v, ∀ url, (s.views w).imageURL = some url →
    (s.views w).image ≠ none ∨ url ∈ s.failed ∨
      ∃ o ∈ s.runningOperations, (s.operations o).view = w

theorem Loading.PursuesOthers.pursues {v : Nat} (h : s.PursuesOthers v)
    (hself : ∀ url, (s.views v).imageURL = some url → (s.views v).image ≠ none ∨
      url ∈ s.failed ∨ ∃ o ∈ s.runningOperations, (s.operations o).view = v) : s.Pursues where
  waits := h.waits
  blocked := h.blocked
  pursued w url hurl := by
    by_cases hw : w = v
    · subst hw
      exact hself url hurl
    · exact h.pursued w hw url hurl

theorem Loading.PursuesOthers.updateView {v : Nat} (h : s.PursuesOthers v)
    (view : ImageView Image) : (s.updateView v view).PursuesOthers v :=
  { h with
    pursued := fun w hw url hurl => by
      simp only [Loading.updateView, Function.update_of_ne hw] at hurl ⊢
      exact h.pursued w hw url hurl }

theorem Loading.Pursues.cancels (h : s.Pursues) {o : Nat} (hcancels : Cancels s s' o) :
    s'.PursuesOthers (s.operations o).view := by
  have hcaptured (i : Nat) := (hcancels.captured i).1
  obtain ⟨lost, hlost, honly⟩ := hcancels.waiting
  have hrest := hcancels.rest
  constructor
  · intro i hi
    rw [hrest] at hi
    obtain ⟨hne, hi⟩ := Finset.mem_erase.mp hi
    have hwaits := h.waits i hi
    rw [hlost] at hwaits
    exact (Multiset.mem_add.mp hwaits).resolve_right fun hmem => hne (honly i hmem)
  · rw [hrest]
    exact h.blocked
  · intro w hw url hurl
    simp only [hcaptured]
    rw [hrest] at hurl ⊢
    rcases h.pursued w url hurl with himage | hfailed | ⟨i, hi, hview⟩
    · exact .inl himage
    · exact .inr (.inl hfailed)
    · refine .inr (.inr ⟨i, Finset.mem_erase.mpr ⟨?_, hi⟩, hview⟩)
      rintro rfl
      exact hw hview.symm

theorem Loading.Pursues.emptied (h : s.Pursues) (hcontrol : s.Control) (v : Nat)
    (url : Option URL) : (s.emptied v url).PursuesOthers v := by
  have hcancelled : (s.cancelImageLoadOperation v).PursuesOthers v := by
    unfold Loading.cancelImageLoadOperation
    cases hv : (s.views v).loadOperation with
    | none => exact ⟨h.waits, h.blocked, fun w _ => h.pursued w⟩
    | some o =>
        have hothers := h.cancels (cancels_cancel hcontrol (hcontrol.loader o))
        rw [(hcontrol.recorded v o hv).2] at hothers
        exact hothers.updateView _
  exact hcancelled.updateView _

theorem Loading.PursuesOthers.begun {v : Nat} (h : s.PursuesOthers v) (hcontrol : s.Control)
    (url : URL) : (s.begun v url).PursuesOthers v where
  waits := h.waits
  blocked := h.blocked
  pursued w hw other hurl := by
    rcases h.pursued w hw other hurl with himage | hfailed | ⟨o, ho, hview⟩
    · exact .inl himage
    · exact .inr (.inl hfailed)
    · refine .inr (.inr ⟨o, ho, ?_⟩)
      rw [begun_operation_of_lt (hcontrol.recorded _ _ (hcontrol.running o ho).2.1).1]
      exact hview

private theorem pursues_of_called {v : Nat} {url : URL} (h : s.PursuesOthers v)
    (hcontrol : s.Control) (hurl : (s.views v).imageURL = some url)
    (result : Except LoadError Image) :
    (((s.begun v url).callCompletionBlock s.operationCount result).records v
      s.operationCount).Pursues := by
  have hbegun := h.begun hcontrol url
  cases result with
  | ok image =>
      have hcalled : (s.begun v url).callCompletionBlock s.operationCount (.ok image) =
          (s.begun v url).updateView v { s.views v with image := some image } := by
        unfold callCompletionBlock
        simp only [begun_operation]
        rfl
      rw [hcalled]
      apply ((hbegun.updateView _).updateView _).pursues
      intro other _
      left
      simp [Loading.updateView]
  | error error =>
      have hcalled : (s.begun v url).callCompletionBlock s.operationCount (.error error) =
          { s.begun v url with failed := insert url s.failed } := by
        unfold callCompletionBlock
        simp only [begun_operation, Bool.false_eq_true, if_false]
        rfl
      rw [hcalled]
      have hfailed : Loading.PursuesOthers
          { s.begun v url with failed := insert url s.failed } v :=
        ⟨hbegun.waits, hbegun.blocked.trans (Finset.subset_insert _ _), fun w hw other hother =>
          (hbegun.pursued w hw other hother).imp_right
            (Or.imp_left (Finset.mem_insert_of_mem ·))⟩
      apply (hfailed.updateView _).pursues
      intro other hother
      have hself : (s.views v).imageURL = some other := by
        simpa [Loading.updateView, Loading.begun] using hother
      obtain rfl : other = url := Option.some.inj (hself.symm.trans hurl)
      exact .inr (.inl (Finset.mem_insert_self _ _))

private theorem pursues_of_queried {v : Nat} {url : URL} (h : s.PursuesOthers v)
    (hcontrol : s.Control) :
    (({ s.begun v url with
        runningOperations := insert s.operationCount s.runningOperations }.dispatchIOQueue
      (.query s.operationCount)).records v s.operationCount).Pursues := by
  have hbegun := h.begun hcontrol url
  have hqueried : Loading.PursuesOthers (dispatchIOQueue { s.begun v url with
      runningOperations := insert s.operationCount s.runningOperations }
        (.query s.operationCount)) v := by
    refine ⟨?_, hbegun.blocked, ?_⟩
    · intro o ho
      rw [waiting_dispatchIOQueue]
      rcases Finset.mem_insert.mp ho with rfl | ho
      · exact Multiset.mem_add.mpr (.inr (Multiset.mem_singleton_self _))
      · exact Multiset.mem_add.mpr (.inl (hbegun.waits o ho))
    · intro w hw other hother
      rcases hbegun.pursued w hw other hother with himage | hfailed | ⟨o, ho, hview⟩
      · exact .inl himage
      · exact .inr (.inl hfailed)
      · exact .inr (.inr ⟨o, Finset.mem_insert_of_mem ho, hview⟩)
  apply (hqueried.updateView _).pursues
  intro other _
  refine .inr (.inr ⟨s.operationCount, Finset.mem_insert_self _ _, ?_⟩)
  change ((s.begun v url).operations s.operationCount).view = v
  rw [begun_operation]

theorem Loading.Pursues.setImage (h : s.Pursues) (hcontrol : s.Control) (v : Nat)
    (url : Option URL) : (s.setImage v url).Pursues := by
  have hemptied := h.emptied hcontrol v url
  have hurl : ((s.emptied v url).views v).imageURL = url := by
    simp [Loading.emptied, Loading.updateView]
  have hcontrol' := (hcontrol.emptied v url).1
  cases url with
  | none =>
      apply hemptied.pursues
      intro other hother
      rw [hurl] at hother
      cases hother
  | some url =>
      by_cases hrefused : url = "" ∨ url ∈ (s.emptied v (some url)).failedURLs
      · obtain ⟨error, hset⟩ := setImage_refused hcontrol hrefused
        rw [hset]
        exact pursues_of_called hemptied hcontrol' hurl (.error error)
      · cases hcached : (s.emptied v (some url)).memoryCache url with
        | some image =>
            rw [setImage_cached hcontrol hrefused hcached]
            exact pursues_of_called hemptied hcontrol' hurl (.ok image)
        | none =>
            rw [setImage_queried hcontrol hrefused hcached]
            exact pursues_of_queried hemptied hcontrol'

/-! ## Every run -/

theorem Stepped.pursues {e : LoadEvent Data} (hstepped : Stepped s e s') (h : s.Pursues)
    (hcontrol : s.Control) (hlate : ¬ s.HandlerIsLate e) : s'.Pursues := by
  cases hstepped with
  | ends gone lost hends => exact h.ends hcontrol hends
  | attaches o rest hqueue hcancelled =>
      simp only [Loading.HandlerIsLate, hqueue, hcancelled, true_and] at hlate
      exact h.attaches hcontrol hqueue hcancelled hlate
  | setImage v url => exact h.setImage hcontrol v url
  | release v o hrecorded hidle =>
      exact { h with
        pursued := fun w url hurl => by
          by_cases hw : w = v
          · subst hw
            simp only [Loading.updateView, Function.update_self] at hurl ⊢
            exact h.pursued w url hurl
          · simp only [Loading.updateView, Function.update_of_ne hw] at hurl ⊢
            exact h.pursued w url hurl }

theorem Loading.pursues_initial (diskCache : URL → Option Data) :
    (initial Data Image diskCache).Pursues where
  waits o ho := absurd ho (Finset.notMem_empty o)
  blocked := subset_rfl
  pursued v url hurl := by cases hurl

/-- No thread has anything left to do for a load. A download that was cancelled is over, whatever
its data task still does. -/
structure Loading.Quiet (s : Loading Data Image) : Prop where
  ioQueue : s.ioQueue = []
  querying : s.querying = none
  mainQueue : s.mainQueue = []
  downloads : ∀ d, (s.downloads d).isFinished = true ∨ (s.downloads d).stage = .ended

theorem Loading.Quiet.waiting (h : s.Quiet) : s.waiting = 0 := by
  unfold Loading.waiting
  rw [h.ioQueue, h.querying, h.mainQueue]
  have hnone : ∑ d ∈ Finset.range s.downloadCount, (s.downloads d).waiting = 0 := by
    apply Finset.sum_eq_zero
    intro d _
    unfold Download.waiting
    rw [if_neg]
    rintro ⟨hfinished, hcalls⟩
    rcases h.downloads d with hdone | hover
    · rw [hdone] at hfinished
      cases hfinished
    · rw [hover] at hcalls
      cases hcalls
  rw [hnone]
  rfl

theorem Loading.Pursues.idle (h : s.Pursues) (hquiet : s.Quiet) : s.runningOperations = ∅ := by
  apply Finset.eq_empty_of_forall_notMem
  intro o ho
  have hwaits := h.waits o ho
  rw [hquiet.waiting] at hwaits
  exact absurd hwaits (Multiset.notMem_zero o)

theorem Loading.Pursues.answered (h : s.Pursues) (hquiet : s.Quiet) {v : Nat} {url : URL}
    (hurl : (s.views v).imageURL = some url) :
    (s.views v).image ≠ none ∨ url ∈ s.failed := by
  rcases h.pursued v url hurl with himage | hfailed | ⟨o, ho, -⟩
  · exact .inl himage
  · exact .inr hfailed
  · rw [h.idle hquiet] at ho
    exact absurd ho (Finset.notMem_empty o)

theorem pursues_of_run [Append Data] {es : List (LoadEvent Data)}
    (hmeets : (loadingMachine coders).Meets (fun s e => ¬ s.HandlerIsLate e)
      (initial Data Image diskCache) es)
    (hrun : (loadingMachine coders).run (initial Data Image diskCache) es = .ok s) :
    s.Control ∧ s.Pursues := by
  refine Machine.run_induction_of_meets (P := fun s => s.Control ∧ s.Pursues) ?_
    ⟨control_initial diskCache, pursues_initial diskCache⟩ hmeets hrun
  intro s e s' ⟨hcontrol, hpursues⟩ hlate hstep
  have hstepped := stepped_of_step hcontrol hstep
  exact ⟨hstepped.control hcontrol, hstepped.pursues hpursues hcontrol hlate⟩

/-- If no handler has come too late, then once the threads have done all their work no operation
runs, and every view that was given a URL shows an image, or loading that URL has failed. -/
theorem quiet_views_are_answered [Append Data] {es : List (LoadEvent Data)}
    (hmeets : (loadingMachine coders).Meets (fun s e => ¬ s.HandlerIsLate e)
      (initial Data Image diskCache) es)
    (hrun : (loadingMachine coders).run (initial Data Image diskCache) es = .ok s)
    (hquiet : s.Quiet) :
    s.runningOperations = ∅ ∧ ∀ v url, (s.views v).imageURL = some url →
      (s.views v).image ≠ none ∨ url ∈ s.failed := by
  have hpursues := (pursues_of_run hmeets hrun).2
  exact ⟨hpursues.idle hquiet, fun v url hurl => hpursues.answered hquiet hurl⟩

/-- Two views of one URL share a download, and a third URL cannot be loaded. -/
def sharedDownload : List (LoadEvent (List Nat)) :=
  [.setImage 0 (some "a"), .setImage 1 (some "a"), .setImage 2 (some "b"), .beginIOTask, .endIOTask,
    .beginIOTask, .endIOTask, .beginIOTask, .endIOTask, .main, .main, .main, .start 0, .start 1,
    .didReceiveResponse 0 200, .didReceiveData 0 [7], .didComplete 0 none,
    .didComplete 1 (some (.nsURL .timedOut)), .didDecode 0, .done 1, .main, .main, .main, .main,
    .main, .main, .main, .done 0, .beginIOTask, .beginIOTask, .main, .main]

theorem quiet_views_are_answered_shared :
    ∃ s, (loadingMachine plainCoders).run (initial (List Nat) Nat (fun _ => none))
        sharedDownload = .ok s ∧ (s.views 1).imageURL = some "a" ∧
      ((s.views 1).image ≠ none ∨ "a" ∈ s.failed) := by
  obtain ⟨s, hrun, hp⟩ := Machine.exists_of_any (loadingMachine plainCoders)
    (initial (List Nat) Nat (fun _ => none)) sharedDownload
    (fun s => decide (s.ioQueue = []) && decide (s.querying = none) && s.mainQueue.isEmpty &&
      decide (s.downloadCount = 2) &&
      decide (∀ d ∈ Finset.range 2, (s.downloads d).isFinished = true) &&
      decide ((s.views 1).imageURL = some "a")) (by decide)
  simp only [Bool.and_eq_true, decide_eq_true_eq, List.isEmpty_iff] at hp
  obtain ⟨⟨⟨⟨⟨hioQueue, hquerying⟩, hmainQueue⟩, hcount⟩, hdownloads⟩, hurl⟩ := hp
  have hquiet : s.Quiet := by
    refine ⟨hioQueue, hquerying, hmainQueue, ?_⟩
    intro d
    by_cases hd : d < 2
    · exact .inl (hdownloads d (Finset.mem_range.mpr hd))
    · exact .inr ((sources_of_run hrun).1.unused d (hcount ▸ Nat.le_of_not_lt hd))
  exact ⟨s, hrun, hurl, (quiet_views_are_answered (by decide) hrun hquiet).2 1 "a" hurl⟩

/-- The second view's handler comes when the download reports already: it runs for ever. -/
example : ((loadingMachine plainCoders).run (initial (List Nat) Nat (fun _ => none))
    [.setImage 0 (some "a"), .beginIOTask, .endIOTask, .main, .start 0, .didReceiveData 0 [7],
      .didComplete 0 none, .setImage 1 (some "a"), .beginIOTask, .endIOTask, .didDecode 0, .main,
      .main, .main, .main, .done 0, .beginIOTask, .main, .completionBlock 0]).toOption.any
        (fun s => decide (s.runningOperations = {1}) && decide ((s.views 0).image = some 7) &&
          decide ((s.views 1).image = none) && decide (s.waiting = 0)) = true := by
  decide

end BookShelf.SDWebImage
