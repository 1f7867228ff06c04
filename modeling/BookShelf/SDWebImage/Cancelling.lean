import BookShelf.SDWebImage.Control

/-!
# A view asks for another image

Before a view loads an image, the operation it had before is cancelled. What is left of that
operation may still come to its completion block, but it does not run any more, and no other
operation of the view does.
-/

namespace BookShelf.SDWebImage

open Loading

variable {Data Image : Type} {s s' : Loading Data Image}

/-- At most one notification has been dispatched. -/
def Notifies (queue queue' : List (MainTask Data Image)) : Prop :=
  queue' = queue ∨ queue' = queue ++ [.notification]

theorem Notifies.mem {queue queue' : List (MainTask Data Image)} (h : Notifies queue queue')
    {task : MainTask Data Image} (htask : task ∈ queue') :
    task ∈ queue ∨ task = .notification := by
  rcases h with rfl | rfl
  · exact .inl htask
  · exact (List.mem_append.mp htask).imp_right List.mem_singleton.mp

theorem Notifies.waiting {queue queue' : List (MainTask Data Image)} (h : Notifies queue queue') :
    (queue'.map MainTask.waiting).sum = (queue.map MainTask.waiting).sum := by
  rcases h with rfl | rfl
  · rfl
  · simp [MainTask.waiting]

theorem waiting_of_notifies {queue : List (MainTask Data Image)}
    (h : Notifies s.mainQueue queue) :
    ({ s with mainQueue := queue } : Loading Data Image).waiting = s.waiting := by
  simp only [waiting, h.waiting]

/-- Between `s` and `s'` the operation `o` is cancelled, and nothing else has happened to the
operations. Only `o` may have stopped waiting. -/
structure Cancels (s s' : Loading Data Image) (o : Nat) : Prop where
  others : ∀ i ≠ o, s'.operations i = s.operations i
  self : s'.operations o = { s.operations o with
    isCancelled := true, loaderOperation := (s'.operations o).loaderOperation }
  loader : ∀ d, (s'.operations o).loaderOperation = some d →
    (s.operations o).loaderOperation = some d
  waiting : ∃ lost, s.waiting = s'.waiting + lost ∧ ∀ i ∈ lost, i = o
  downloads : ∀ d, (s'.downloads d).url = (s.downloads d).url ∧
    (s'.downloads d).callbacks ⊆ (s.downloads d).callbacks ∧
    (s'.downloads d).stage = (s.downloads d).stage
  completionBlock : ∀ d, (s'.downloads d).completionBlock = (s.downloads d).completionBlock
  received : ∀ d, (s'.downloads d).response = (s.downloads d).response ∧
    (s'.downloads d).imageData = (s.downloads d).imageData
  finished : ∀ d, ((s.downloads d).stage = .ended → (s.downloads d).isFinished = true) →
    (s'.downloads d).stage = .ended → (s'.downloads d).isFinished = true
  deaf : ∀ d, (s'.downloads d).isFinished = true ∨ (s'.downloads d).isCancelled = true →
    ((s.downloads d).isFinished = true ∨ (s.downloads d).isCancelled = true) ∨
      (s'.downloads d).callbacks = []
  mainQueue : Notifies s.mainQueue s'.mainQueue
  rest : s' = { s with
    operations := s'.operations
    downloads := s'.downloads
    runningOperations := s.runningOperations.erase o
    mainQueue := s'.mainQueue }

/-! ## Cancelling a download -/

private theorem foldl_cancelled (result : Except LoadError (Image × Data))
    (callbacks : List Nat) (h : ∀ o ∈ callbacks, (s.operations o).isCancelled = true) :
    callbacks.foldl (loaderCompleted result) s =
      { s with runningOperations := s.runningOperations \ callbacks.toFinset } := by
  induction callbacks generalizing s with
  | nil =>
      rw [List.foldl_nil, List.toFinset_nil, Finset.sdiff_empty]
  | cons o callbacks ih =>
      rw [List.foldl_cons, loaderCompleted_cancelled result (h o List.mem_cons_self), ih]
      · simp only [safelyRemoveOperationFromRunning]
        rw [Finset.erase_eq, sdiff_sdiff, Finset.sup_eq_union, List.toFinset_cons,
          Finset.insert_eq]
      · exact fun i hi => h i (List.mem_cons_of_mem o hi)

theorem Download.mem_callbacks {download : Download Data} {o : Nat} (h : o ∈ download.waiting) :
    o ∈ download.callbacks := by
  unfold Download.waiting at h
  split at h
  · exact h
  · exact absurd h (Multiset.notMem_zero _)

private theorem waiting_with_callbacks (download : Download Data) :
    (∀ callbacks : List Nat,
        ({ download with callbacks := callbacks } : Download Data).waiting = callbacks) ∨
      ∀ callbacks : List Nat,
        ({ download with callbacks := callbacks } : Download Data).waiting = 0 := by
  by_cases hcalls : download.isFinished = false ∧ download.stage.willCall = true
  · exact .inl fun _ => if_pos hcalls
  · exact .inr fun _ => if_neg hcalls

private theorem waiting_filter_callbacks (download : Download Data) (o : Nat) :
    ∃ lost, download.waiting = ({ download with
        callbacks := download.callbacks.filter (· ≠ o) } : Download Data).waiting + lost ∧
      ∀ i ∈ lost, i = o := by
  rcases waiting_with_callbacks download with hall | hnone
  · refine ⟨Multiset.filter (fun i => ¬i ≠ o) download.callbacks, ?_, ?_⟩
    · have hsplit := Multiset.filter_add_not (· ≠ o) (download.callbacks : Multiset Nat)
      rw [Multiset.filter_coe] at hsplit
      rw [hall (download.callbacks.filter (· ≠ o)), hsplit]
      exact hall download.callbacks
    · intro i hi
      simpa using Multiset.of_mem_filter hi
  · refine ⟨0, ?_, fun _ hi => absurd hi (Multiset.notMem_zero _)⟩
    rw [hnone (download.callbacks.filter (· ≠ o)), add_zero]
    exact hnone download.callbacks

/-- What a token's `cancel` does to the download of an operation that is cancelled already. -/
structure TokenCancelled (download download' : Download Data) (o : Nat) : Prop where
  url : download'.url = download.url
  callbacks : download'.callbacks ⊆ download.callbacks
  stage : download'.stage = download.stage
  completionBlock : download'.completionBlock = download.completionBlock
  received : download'.response = download.response ∧ download'.imageData = download.imageData
  finished : (download.stage = .ended → download.isFinished = true) →
    download'.stage = .ended → download'.isFinished = true
  deaf : download'.isFinished = true ∨ download'.isCancelled = true →
    (download.isFinished = true ∨ download.isCancelled = true) ∨ download'.callbacks = []
  waiting : ∃ lost, download.waiting = download'.waiting + lost ∧ ∀ i ∈ lost, i = o

private theorem cancelDownload_eq (s : Loading Data Image) (d : Nat) {o : Nat}
    (hcancelled : (s.operations o).isCancelled = true)
    (honly : ∀ i ∈ (s.downloads d).callbacks, i = o) :
    ∃ download running queue, s.cancelDownload d =
        { s.updateDownload d download with runningOperations := running, mainQueue := queue } ∧
      running.erase o = s.runningOperations.erase o ∧ Notifies s.mainQueue queue ∧
      TokenCancelled (s.downloads d) download o := by
  unfold cancelDownload
  by_cases hfinished : (s.downloads d).isFinished = true
  · refine ⟨s.downloads d, s.runningOperations, s.mainQueue, ?_, rfl, .inl rfl, ?_⟩
    · rw [if_pos hfinished]
      simp [updateDownload]
    · exact {
        url := rfl
        callbacks := List.Subset.refl _
        stage := rfl
        completionBlock := rfl
        received := ⟨rfl, rfl⟩
        finished := id
        deaf := Or.inl
        waiting := ⟨0, (add_zero _).symm, fun _ hi => absurd hi (Multiset.notMem_zero _)⟩ }
  · refine ⟨{ s.downloads d with
        callbacks := [], isCancelled := true, isFinished := (s.downloads d).stage.isStarted },
      s.runningOperations \ (s.downloads d).callbacks.toFinset, s.mainQueue ++ [.notification],
      ?_, ?_, .inr rfl, ?_⟩
    · simp only [if_neg hfinished]
      rw [foldl_cancelled]
      · simp only [updateDownload, dispatchMain, Function.update_self, Function.update_idem]
      · intro i hi
        rw [honly i hi]
        exact hcancelled
    · ext i
      simp only [Finset.mem_erase, Finset.mem_sdiff, List.mem_toFinset]
      constructor
      · rintro ⟨hne, hmem, -⟩
        exact ⟨hne, hmem⟩
      · rintro ⟨hne, hmem⟩
        exact ⟨hne, hmem, fun hi => hne (honly i hi)⟩
    · exact {
        url := rfl
        callbacks := List.nil_subset _
        stage := rfl
        completionBlock := rfl
        received := ⟨rfl, rfl⟩
        finished := fun _ hover => by
          simp only at hover ⊢
          rw [hover]
          rfl
        deaf := fun _ => .inr rfl
        waiting := by
          refine ⟨(s.downloads d).waiting, ?_, fun i hi => honly i (Download.mem_callbacks hi)⟩
          cases hstage : (s.downloads d).stage <;>
            simp [Download.waiting, Stage.isStarted, hstage] }

private theorem cancelToken_eq (s : Loading Data Image) (d : Nat) {o : Nat}
    (hcancelled : (s.operations o).isCancelled = true) :
    ∃ download running queue, s.cancelToken d o =
        { s.updateDownload d download with runningOperations := running, mainQueue := queue } ∧
      running.erase o = s.runningOperations.erase o ∧ Notifies s.mainQueue queue ∧
      TokenCancelled (s.downloads d) download o := by
  unfold cancelToken
  by_cases hlast : (s.downloads d).callbacks.filter (· ≠ o) = []
  · simp only [if_pos hlast]
    apply cancelDownload_eq s d hcancelled
    intro i hi
    by_contra hne
    have hmem : i ∈ (s.downloads d).callbacks.filter (· ≠ o) := by simp [hi, hne]
    rw [hlast] at hmem
    exact absurd hmem List.not_mem_nil
  · simp only [if_neg hlast]
    refine ⟨{ s.downloads d with callbacks := (s.downloads d).callbacks.filter (· ≠ o) },
      s.runningOperations.erase o, s.mainQueue, ?_, Finset.erase_idem, .inl rfl, ?_⟩
    · exact loaderCompleted_cancelled _ hcancelled
    · exact {
        url := rfl
        callbacks := List.filter_subset_self _
        stage := rfl
        completionBlock := rfl
        received := ⟨rfl, rfl⟩
        finished := id
        deaf := Or.inl
        waiting := waiting_filter_callbacks _ o }

/-! ## Cancelling an operation -/

theorem cancels_cancel (h : s.Control) {o : Nat}
    (hloader : ∀ d, (s.operations o).loaderOperation = some d → d < s.downloadCount) :
    Cancels s (s.cancel o) o := by
  by_cases hcancelled : (s.operations o).isCancelled = true
  · have hnot : o ∉ s.runningOperations := by
      intro hrunning
      rw [(h.running o hrunning).1] at hcancelled
      exact Bool.false_ne_true hcancelled
    rw [Loading.cancel, if_pos hcancelled]
    exact {
      others := fun _ _ => rfl
      self := by rw [← hcancelled]
      loader := fun _ => id
      waiting := ⟨0, (add_zero _).symm, fun _ hi => absurd hi (Multiset.notMem_zero _)⟩
      downloads := fun _ => ⟨rfl, List.Subset.refl _, rfl⟩
      completionBlock := fun _ => rfl
      received := fun _ => ⟨rfl, rfl⟩
      finished := fun _ => id
      deaf := fun _ => Or.inl
      mainQueue := .inl rfl
      rest := by rw [Finset.erase_eq_of_notMem hnot] }
  · set mid := s.updateOperation o
      { s.operations o with isCancelled := true, loaderOperation := none } with hmid
    have hself : mid.operations o =
        { s.operations o with isCancelled := true, loaderOperation := none } := by
      simp [hmid, updateOperation]
    have hothers (i : Nat) (hi : i ≠ o) : mid.operations i = s.operations i := by
      simp [hmid, updateOperation, Function.update_of_ne hi]
    cases hd : (s.operations o).loaderOperation with
    | none =>
        have hcancel : s.cancel o = mid.safelyRemoveOperationFromRunning o := by
          simp only [Loading.cancel, if_neg hcancelled, hd, hmid]
        rw [hcancel]
        exact {
          others := hothers
          self := by
            change mid.operations o = { s.operations o with
              isCancelled := true, loaderOperation := (mid.operations o).loaderOperation }
            rw [hself]
          loader := fun d hloader => by
            change (mid.operations o).loaderOperation = some d at hloader
            rw [hself] at hloader
            cases hloader
          waiting := ⟨0, (add_zero _).symm, fun _ hi => absurd hi (Multiset.notMem_zero _)⟩
          downloads := fun _ => ⟨rfl, List.Subset.refl _, rfl⟩
          completionBlock := fun _ => rfl
          received := fun _ => ⟨rfl, rfl⟩
          finished := fun _ => id
          deaf := fun _ => Or.inl
          mainQueue := .inl rfl
          rest := rfl }
    | some d =>
        obtain ⟨download, running, queue, htoken, hrunning, hnotifies, hdownload⟩ :=
          cancelToken_eq mid d (by rw [hself] : (mid.operations o).isCancelled = true)
        have hcancel : s.cancel o = { mid.updateDownload d download with
            runningOperations := s.runningOperations.erase o, mainQueue := queue } := by
          simp only [Loading.cancel, if_neg hcancelled, hd, ← hmid, htoken,
            safelyRemoveOperationFromRunning, hrunning]
          rfl
        rw [hcancel]
        have hat (i : Nat) : i ≠ d → (mid.updateDownload d download).downloads i =
            s.downloads i := by
          intro hi
          simp [updateDownload, Function.update_of_ne hi, hmid, updateOperation]
        have hatSelf : (mid.updateDownload d download).downloads d = download := by
          simp [updateDownload]
        exact {
          others := hothers
          self := by
            change mid.operations o = { s.operations o with
              isCancelled := true, loaderOperation := (mid.operations o).loaderOperation }
            rw [hself]
          loader := fun d hloader => by
            change (mid.operations o).loaderOperation = some d at hloader
            rw [hself] at hloader
            cases hloader
          waiting := by
            obtain ⟨lost, hlost, honly⟩ := hdownload.waiting
            refine ⟨lost, ?_, honly⟩
            have hupdate := waiting_updateDownload (s := mid) (hloader d hd) download
            rw [hlost, add_comm download.waiting, ← add_assoc] at hupdate
            have hqueue : ({ mid.updateDownload d download with
                mainQueue := queue } : Loading Data Image).waiting =
                  (mid.updateDownload d download).waiting :=
              waiting_of_notifies (s := mid.updateDownload d download) hnotifies
            rw [← hqueue] at hupdate
            exact (add_right_cancel hupdate).symm
          downloads := fun i => by
            change ((mid.updateDownload d download).downloads i).url = _ ∧
              ((mid.updateDownload d download).downloads i).callbacks ⊆ _ ∧
              ((mid.updateDownload d download).downloads i).stage = _
            by_cases hi : i = d
            · subst hi
              rw [hatSelf]
              exact ⟨hdownload.url, hdownload.callbacks, hdownload.stage⟩
            · rw [hat i hi]
              exact ⟨rfl, List.Subset.refl _, rfl⟩
          completionBlock := fun i => by
            change ((mid.updateDownload d download).downloads i).completionBlock = _
            by_cases hi : i = d
            · subst hi
              rw [hatSelf]
              exact hdownload.completionBlock
            · rw [hat i hi]
          received := fun i => by
            change ((mid.updateDownload d download).downloads i).response = _ ∧
              ((mid.updateDownload d download).downloads i).imageData = _
            by_cases hi : i = d
            · subst hi
              rw [hatSelf]
              exact hdownload.received
            · rw [hat i hi]
              exact ⟨rfl, rfl⟩
          finished := fun i hfinished => by
            change ((mid.updateDownload d download).downloads i).stage = .ended →
              ((mid.updateDownload d download).downloads i).isFinished = true
            by_cases hi : i = d
            · subst hi
              rw [hatSelf]
              exact hdownload.finished hfinished
            · rw [hat i hi]
              exact hfinished
          deaf := fun i hdeaf => by
            change ((mid.updateDownload d download).downloads i).isFinished = true ∨
              ((mid.updateDownload d download).downloads i).isCancelled = true at hdeaf
            change _ ∨ ((mid.updateDownload d download).downloads i).callbacks = []
            by_cases hi : i = d
            · subst hi
              rw [hatSelf] at hdeaf ⊢
              exact hdownload.deaf hdeaf
            · rw [hat i hi] at hdeaf
              exact .inl hdeaf
          mainQueue := hnotifies
          rest := rfl }

theorem Cancels.captured {o : Nat} (h : Cancels s s' o) (i : Nat) :
    (s'.operations i).view = (s.operations i).view ∧
      (s'.operations i).url = (s.operations i).url := by
  by_cases hi : i = o
  · subst hi
    rw [h.self]
    exact ⟨rfl, rfl⟩
  · rw [h.others i hi]
    exact ⟨rfl, rfl⟩

theorem Loading.Control.cancels (h : s.Control) {o : Nat} (hcancels : Cancels s s' o) :
    s'.Control where
  recorded v i hrecorded := by
    rw [hcancels.rest] at hrecorded
    rw [(hcancels.captured i).1, hcancels.rest]
    exact h.recorded v i hrecorded
  running i hi := by
    rw [hcancels.rest] at hi
    obtain ⟨hne, hrunning⟩ := Finset.mem_erase.mp hi
    rw [hcancels.others i hne, hcancels.rest]
    exact h.running i hrunning
  distinct := by
    obtain ⟨lost, hlost, -⟩ := hcancels.waiting
    have hdistinct := h.distinct
    rw [hlost, Multiset.nodup_add] at hdistinct
    exact hdistinct.1
  waits i hi := by
    obtain ⟨lost, hlost, -⟩ := hcancels.waiting
    have hwaits := h.waits i (by rw [hlost]; exact Multiset.mem_add.mpr (.inl hi))
    by_cases hio : i = o
    · subst hio
      rw [hcancels.self, hcancels.rest]
      exact ⟨hwaits.1, fun hcancelled => absurd hcancelled (by simp)⟩
    · rw [hcancels.others i hio, hcancels.rest]
      exact ⟨hwaits.1, fun hcancelled => Finset.mem_erase.mpr ⟨hio, hwaits.2 hcancelled⟩⟩
  loader i d hloader := by
    rw [hcancels.rest]
    by_cases hio : i = o
    · subst hio
      exact h.loader i d (hcancels.loader d hloader)
    · rw [hcancels.others i hio] at hloader
      exact h.loader i d hloader
  known url d hknown := by
    rw [hcancels.rest] at hknown
    rw [(hcancels.downloads d).1, hcancels.rest]
    exact h.known url d hknown
  unused d hd := by
    rw [hcancels.rest] at hd
    rw [(hcancels.downloads d).2.2]
    exact h.unused d hd
  finished d := hcancels.finished d (h.finished d)
  handlers d i hi := by
    rw [(hcancels.captured i).2, (hcancels.downloads d).1, hcancels.rest]
    exact h.handlers d i ((hcancels.downloads d).2.1 hi)
  deaf d hdeaf := by
    rcases hcancels.deaf d hdeaf with hdeaf | hnone
    · exact List.subset_nil.mp (h.deaf d hdeaf ▸ (hcancels.downloads d).2.1)
    · exact hnone

/-! ## A view lets go of its operation -/

theorem Loading.Control.updateView (h : s.Control) {v : Nat} {view : ImageView Image}
    (hidle : ∀ o ∈ s.runningOperations, (s.operations o).view ≠ v)
    (hrecorded : ∀ o, view.loadOperation = some o →
      o < s.operationCount ∧ (s.operations o).view = v) :
    (s.updateView v view).Control := by
  exact { h with
    recorded := fun w o hw => by
      by_cases hwv : w = v
      · subst hwv
        exact hrecorded o (by simpa [Loading.updateView] using hw)
      · simp only [Loading.updateView, Function.update_of_ne hwv] at hw
        exact h.recorded w o hw
    running := fun o ho => by
      simp only [Loading.updateView, Function.update_of_ne (hidle o ho)]
      exact h.running o ho }

theorem Loading.Control.cancelImageLoadOperation (h : s.Control) (v : Nat) :
    (s.cancelImageLoadOperation v).Control ∧
      ((s.cancelImageLoadOperation v).views v).loadOperation = none ∧
      ∀ o ∈ (s.cancelImageLoadOperation v).runningOperations,
        ((s.cancelImageLoadOperation v).operations o).view ≠ v := by
  unfold Loading.cancelImageLoadOperation
  cases hv : (s.views v).loadOperation with
  | none =>
      refine ⟨h, hv, ?_⟩
      intro o ho hview
      have hrecorded := (h.running o ho).2.1
      rw [hview, hv] at hrecorded
      cases hrecorded
  | some o =>
      have hcancels := cancels_cancel h (h.loader o)
      have hcontrol := h.cancels hcancels
      have hidle : ∀ i ∈ (s.cancel o).runningOperations, ((s.cancel o).operations i).view ≠ v := by
        intro i hi hview
        have hrecorded := (hcontrol.running i hi).2.1
        rw [hview, hcancels.rest] at hrecorded
        obtain rfl : i = o := Option.some.inj (hrecorded.symm.trans hv)
        rw [hcancels.rest] at hi
        exact absurd rfl (Finset.mem_erase.mp hi).1
      refine ⟨hcontrol.updateView hidle ?_, ?_, hidle⟩
      · intro i hi
        cases hi
      · simp [Loading.updateView]

/-! ## A view asks for an image -/

/-- The view has cancelled what it loaded and shows the placeholder. -/
def Loading.emptied (s : Loading Data Image) (v : Nat) (url : Option URL) :
    Loading Data Image :=
  (s.cancelImageLoadOperation v).updateView v
    { (s.cancelImageLoadOperation v).views v with imageURL := url, image := none }

/-- The next number goes to a new operation. -/
def Loading.begun (s : Loading Data Image) (v : Nat) (url : URL) : Loading Data Image :=
  { s with
    operations := Function.update s.operations s.operationCount ⟨v, url, false, none⟩
    operationCount := s.operationCount + 1 }

/-- The view's latest operation. -/
def Loading.records (s : Loading Data Image) (v o : Nat) : Loading Data Image :=
  s.updateView v { s.views v with loadOperation := some o }

theorem Loading.Control.emptied (h : s.Control) (v : Nat) (url : Option URL) :
    (s.emptied v url).Control ∧ ((s.emptied v url).views v).loadOperation = none ∧
      ∀ o ∈ (s.emptied v url).runningOperations, ((s.emptied v url).operations o).view ≠ v := by
  obtain ⟨hcontrol, hnone, hidle⟩ := h.cancelImageLoadOperation v
  refine ⟨hcontrol.updateView hidle ?_, ?_, hidle⟩
  · intro o ho
    rw [hnone] at ho
    cases ho
  · simp [Loading.emptied, Loading.updateView, hnone]

theorem Loading.Control.not_running (h : s.Control) : s.operationCount ∉ s.runningOperations := by
  intro hrunning
  exact absurd (h.recorded _ _ (h.running _ hrunning).2.1).1 (lt_irrefl _)

theorem Loading.Control.begun (h : s.Control) (v : Nat) (url : URL) : (s.begun v url).Control := by
  have hold {o : Nat} (ho : o < s.operationCount) :
      (s.begun v url).operations o = s.operations o := by
    simp [Loading.begun, Function.update_of_ne ho.ne]
  exact { h with
    recorded := fun w o hw => by
      obtain ⟨hlt, hview⟩ := h.recorded w o hw
      rw [hold hlt]
      exact ⟨Nat.lt_succ_of_lt hlt, hview⟩
    running := fun o ho => by
      have hlt := (h.recorded _ _ (h.running o ho).2.1).1
      rw [hold hlt]
      exact h.running o ho
    waits := fun o ho => by
      obtain ⟨hlt, hrunning⟩ := h.waits o ho
      rw [hold hlt]
      exact ⟨Nat.lt_succ_of_lt hlt, hrunning⟩
    loader := fun o d ho => by
      by_cases hnew : o = s.operationCount
      · subst hnew
        simp [Loading.begun] at ho
      · simp only [Loading.begun, Function.update_of_ne hnew] at ho
        exact h.loader o d ho
    handlers := fun d o ho => by
      obtain ⟨hlt, hurl⟩ := h.handlers d o ho
      rw [hold hlt]
      exact ⟨Nat.lt_succ_of_lt hlt, hurl⟩ }

/-! ### The three ways a load can begin -/

theorem setImageLoadOperation_of_none {v : Nat} (h : (s.views v).loadOperation = none) (o : Nat) :
    s.setImageLoadOperation v o = s.records v o := by
  simp only [setImageLoadOperation, Loading.cancelImageLoadOperation, h]
  rfl

section

variable {v : Nat} {url : URL}

private theorem setImage_eq (h : s.Control) {mid : Loading Data Image}
    (hload : (s.emptied v (some url)).loadImage v url = mid)
    (hmid : (mid.views v).loadOperation = ((s.emptied v (some url)).views v).loadOperation) :
    s.setImage v (some url) = mid.records v (s.emptied v (some url)).operationCount := by
  rw [← setImageLoadOperation_of_none (hmid.trans (h.emptied v (some url)).2.1), ← hload]
  rfl

theorem setImage_refused (h : s.Control)
    (hrefused : url = "" ∨ url ∈ (s.emptied v (some url)).failedURLs) :
    ∃ error, s.setImage v (some url) =
      (((s.emptied v (some url)).begun v url).callCompletionBlock
        (s.emptied v (some url)).operationCount (.error error)).records v
          (s.emptied v (some url)).operationCount := by
  refine ⟨_, setImage_eq h (if_pos hrefused) ?_⟩
  exact (settles_callCompletionBlock _ _ _).loadOperation v

theorem setImage_cached (h : s.Control) {image : Image}
    (haccepted : ¬(url = "" ∨ url ∈ (s.emptied v (some url)).failedURLs))
    (hcached : (s.emptied v (some url)).memoryCache url = some image) :
    s.setImage v (some url) =
      (((s.emptied v (some url)).begun v url).callCompletionBlock
        (s.emptied v (some url)).operationCount (.ok image)).records v
          (s.emptied v (some url)).operationCount := by
  apply setImage_eq h
  · have hnot := (h.emptied v (some url)).1.not_running
    simp only [loadImage, if_neg haccepted, queryImage, Function.update_self, hcached,
      callDownloadProcess, callCompletionBlock, safelyRemoveOperationFromRunning,
      Loading.updateView, Finset.erase_insert hnot, Loading.begun]
  · exact (settles_callCompletionBlock _ _ _).loadOperation v

theorem setImage_queried (h : s.Control)
    (haccepted : ¬(url = "" ∨ url ∈ (s.emptied v (some url)).failedURLs))
    (hcached : (s.emptied v (some url)).memoryCache url = none) :
    s.setImage v (some url) =
      ({ (s.emptied v (some url)).begun v url with
        runningOperations := insert (s.emptied v (some url)).operationCount
          (s.emptied v (some url)).runningOperations }.dispatchIOQueue
        (.query (s.emptied v (some url)).operationCount)).records v
          (s.emptied v (some url)).operationCount := by
  apply setImage_eq h
  · simp only [loadImage, if_neg haccepted, queryImage, Function.update_self, hcached,
      Loading.begun]
  · rfl

theorem begun_operation (s : Loading Data Image) (v : Nat) (url : URL) :
    (s.begun v url).operations s.operationCount = ⟨v, url, false, none⟩ := by
  simp [Loading.begun]

theorem begun_operation_of_lt {o : Nat} (ho : o < s.operationCount) :
    (s.begun v url).operations o = s.operations o := by
  simp [Loading.begun, Function.update_of_ne ho.ne]

theorem begun_idle (h : s.Control) (hidle : ∀ o ∈ s.runningOperations, (s.operations o).view ≠ v) :
    ∀ o ∈ (s.begun v url).runningOperations, ((s.begun v url).operations o).view ≠ v := by
  intro o ho
  rw [begun_operation_of_lt (h.recorded _ _ (h.running o ho).2.1).1]
  exact hidle o ho

private theorem control_of_called (h : s.Control)
    (hidle : ∀ o ∈ s.runningOperations, (s.operations o).view ≠ v)
    (result : Except LoadError Image) :
    (((s.begun v url).callCompletionBlock s.operationCount result).records v
      s.operationCount).Control := by
  have hcalled := settles_callCompletionBlock (s.begun v url) s.operationCount result
  apply ((h.begun v url).of_settles hcalled).updateView
  · intro o ho
    rw [hcalled.running, Finset.sdiff_empty] at ho
    rw [hcalled.operations]
    exact begun_idle h hidle o ho
  · intro o ho
    obtain rfl := Option.some.inj ho
    rw [hcalled.operationCount, hcalled.operations, begun_operation]
    exact ⟨Nat.lt_succ_self _, rfl⟩

private theorem control_of_queried (h : s.Control)
    (hidle : ∀ o ∈ s.runningOperations, (s.operations o).view ≠ v)
    (hurl : (s.views v).imageURL = some url) :
    (({ s.begun v url with
        runningOperations := insert s.operationCount s.runningOperations }.dispatchIOQueue
      (.query s.operationCount)).records v s.operationCount).Control := by
  have hbegun := h.begun v url
  have hfresh : s.operationCount ∉ s.waiting :=
    fun hmem => absurd (h.waits _ hmem).1 (lt_irrefl _)
  set s' := ({ s.begun v url with
    runningOperations := insert s.operationCount s.runningOperations }.dispatchIOQueue
      (.query s.operationCount)).records v s.operationCount with hs'
  have hwaiting : s'.waiting = s.waiting + {s.operationCount} := waiting_dispatchIOQueue _ _
  have hview (w : Nat) (hw : w ≠ v) : s'.views w = s.views w := by
    simp [hs', Loading.records, Loading.updateView, dispatchIOQueue, Loading.begun,
      Function.update_of_ne hw]
  have hviewSelf : s'.views v = { s.views v with loadOperation := some s.operationCount } := by
    simp [hs', Loading.records, Loading.updateView, dispatchIOQueue, Loading.begun]
  have hself : s'.operations s.operationCount = ⟨v, url, false, none⟩ := begun_operation s v url
  exact { hbegun with
    recorded := fun w o hw => by
      by_cases hwv : w = v
      · subst hwv
        rw [hviewSelf] at hw
        obtain rfl := Option.some.inj hw
        rw [hself]
        exact ⟨Nat.lt_succ_self _, rfl⟩
      · rw [hview w hwv] at hw
        exact hbegun.recorded w o hw
    running := fun o ho => by
      rcases Finset.mem_insert.mp ho with rfl | ho
      · rw [hself, hviewSelf]
        exact ⟨rfl, rfl, hurl⟩
      · have hother : (s'.operations o).view ≠ v := begun_idle h hidle o ho
        rw [hview _ hother]
        exact hbegun.running o ho
    distinct := by
      rw [hwaiting, Multiset.add_comm, Multiset.singleton_add]
      exact Multiset.nodup_cons.mpr ⟨hfresh, h.distinct⟩
    waits := fun o ho => by
      rw [hwaiting] at ho
      rcases Multiset.mem_add.mp ho with ho | ho
      · obtain ⟨hlt, hrunning⟩ := hbegun.waits o ho
        exact ⟨hlt, fun hcancelled => Finset.mem_insert_of_mem (hrunning hcancelled)⟩
      · obtain rfl := Multiset.mem_singleton.mp ho
        exact ⟨Nat.lt_succ_self _, fun _ => Finset.mem_insert_self _ _⟩ }

theorem Loading.Control.setImage (h : s.Control) (v : Nat) (url : Option URL) :
    (s.setImage v url).Control := by
  cases url with
  | none => exact (h.emptied v none).1
  | some url =>
      obtain ⟨hemptied, -, hidle⟩ := h.emptied v (some url)
      have hurl : ((s.emptied v (some url)).views v).imageURL = some url := by
        simp [Loading.emptied, Loading.updateView]
      by_cases hrefused : url = "" ∨ url ∈ (s.emptied v (some url)).failedURLs
      · obtain ⟨error, hset⟩ := setImage_refused h hrefused
        rw [hset]
        exact control_of_called hemptied hidle (.error error)
      · cases hcached : (s.emptied v (some url)).memoryCache url with
        | some image =>
            rw [setImage_cached h hrefused hcached]
            exact control_of_called hemptied hidle (.ok image)
        | none =>
            rw [setImage_queried h hrefused hcached]
            exact control_of_queried hemptied hidle hurl

end

end BookShelf.SDWebImage
