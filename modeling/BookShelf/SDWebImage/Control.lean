import BookShelf.SDWebImage.Loading
import Mathlib.Algebra.BigOperators.Group.Finset.Basic
import Mathlib.Algebra.Order.BigOperators.Group.List
import Mathlib.Algebra.Order.Group.Multiset
import Mathlib.Data.Multiset.OrderedMonoid
import Mathlib.Tactic.Abel

/-!
# Which operation waits where

An operation waits for its completion block in one place at a time: in the cache's queue, in a
download, or on the main queue. Only an operation that waits, or that has been cancelled, can
still touch its view.
-/

namespace BookShelf.SDWebImage

open Finset (range)

variable {Data Image : Type}

/-- The handlers have still to be called. Once a download reports they are on the main queue. -/
def Stage.willCall : Stage Data → Bool
  | .queued | .loading | .decoding _ => true
  | .reporting | .ended => false

/-- The handlers that a download has still to call. -/
def Download.waiting (download : Download Data) : Multiset Nat :=
  if download.isFinished = false ∧ download.stage.willCall = true then download.callbacks else 0

def IOTask.waiting : IOTask Data → Multiset Nat
  | .query operation => {operation}
  | .store _ _ => 0

def MainTask.waiting : MainTask Data Image → Multiset Nat
  | .completion _ _ => 0
  | .queried operation _ => {operation}
  | .downloaded callbacks _ => callbacks
  | .notification | .stored => 0

/-- The operations whose completion is still to come, each as often as it is. -/
def Loading.waiting (s : Loading Data Image) : Multiset Nat :=
  (s.ioQueue.map IOTask.waiting).sum + s.querying.elim 0 (fun o => {o}) +
    (s.mainQueue.map MainTask.waiting).sum +
    ∑ d ∈ range s.downloadCount, (s.downloads d).waiting

/-- What the threads share about the operations, in every reachable state. -/
structure Loading.Control (s : Loading Data Image) : Prop where
  recorded : ∀ v o, (s.views v).loadOperation = some o →
    o < s.operationCount ∧ (s.operations o).view = v
  running : ∀ o ∈ s.runningOperations, (s.operations o).isCancelled = false ∧
    (s.views (s.operations o).view).loadOperation = some o ∧
      (s.views (s.operations o).view).imageURL = some (s.operations o).url
  distinct : s.waiting.Nodup
  waits : ∀ o ∈ s.waiting, o < s.operationCount ∧
    ((s.operations o).isCancelled = false → o ∈ s.runningOperations)
  loader : ∀ o d, (s.operations o).loaderOperation = some d → d < s.downloadCount
  known : ∀ url d, s.urlOperations url = some d →
    d < s.downloadCount ∧ (s.downloads d).url = url
  unused : ∀ d, s.downloadCount ≤ d → (s.downloads d).stage = .ended
  finished : ∀ d, (s.downloads d).stage = .ended → (s.downloads d).isFinished = true
  handlers : ∀ d, ∀ o ∈ (s.downloads d).callbacks,
    o < s.operationCount ∧ (s.operations o).url = (s.downloads d).url
  deaf : ∀ d, (s.downloads d).isFinished = true ∨ (s.downloads d).isCancelled = true →
    (s.downloads d).callbacks = []

/-- From `s` to `s'` the operations `lost` stop waiting and `gone` stop running; nothing starts. -/
structure Settles (s s' : Loading Data Image) (gone : Finset Nat) (lost : Multiset Nat) :
    Prop where
  operations : s'.operations = s.operations := by rfl
  operationCount : s'.operationCount = s.operationCount := by rfl
  running : s'.runningOperations = s.runningOperations \ gone
  loadOperation : ∀ v, (s'.views v).loadOperation = (s.views v).loadOperation := by
    intro v
    rfl
  imageURL : ∀ v, (s'.views v).imageURL = (s.views v).imageURL := by
    intro v
    rfl
  waiting : s.waiting = s'.waiting + lost
  downloadCount : s'.downloadCount = s.downloadCount := by rfl
  url : ∀ d, (s'.downloads d).url = (s.downloads d).url := by
    intro d
    rfl
  callbacks : ∀ d, (s'.downloads d).callbacks ⊆ (s.downloads d).callbacks := by
    intro d
    exact List.Subset.refl _
  ended : ∀ d, (s.downloads d).stage = .ended → (s'.downloads d).stage = .ended := by
    intro d
    exact id
  finished : ∀ d, ((s.downloads d).stage = .ended → (s.downloads d).isFinished = true) →
      (s'.downloads d).stage = .ended → (s'.downloads d).isFinished = true := by
    intro d
    exact id
  deaf : ∀ d, (s'.downloads d).isFinished = true ∨ (s'.downloads d).isCancelled = true →
      ((s.downloads d).isFinished = true ∨ (s.downloads d).isCancelled = true) ∨
        (s'.downloads d).callbacks = [] := by
    intro d
    exact Or.inl
  urlOperations : ∀ url d, s'.urlOperations url = some d → s.urlOperations url = some d := by
    intro url d
    exact id

namespace Loading

variable {s : Loading Data Image}

/-! ## Waiting -/

theorem waiting_dispatchIOQueue (s : Loading Data Image) (task : IOTask Data) :
    (s.dispatchIOQueue task).waiting = s.waiting + task.waiting := by
  simp only [waiting, dispatchIOQueue, List.map_append, List.map_singleton, List.sum_append,
    List.sum_singleton]
  abel

theorem waiting_dispatchMain (s : Loading Data Image) (task : MainTask Data Image) :
    (s.dispatchMain task).waiting = s.waiting + task.waiting := by
  simp only [waiting, dispatchMain, List.map_append, List.map_singleton, List.sum_append,
    List.sum_singleton]
  abel

theorem mem_waiting_of_main {task : MainTask Data Image} (htask : task ∈ s.mainQueue) {o : Nat}
    (ho : o ∈ task.waiting) : o ∈ s.waiting := by
  have hle : task.waiting ≤ (s.mainQueue.map MainTask.waiting).sum :=
    List.le_sum_of_mem (List.mem_map_of_mem htask)
  exact Multiset.mem_add.mpr (.inl (Multiset.mem_add.mpr (.inr (Multiset.mem_of_le hle ho))))

private theorem sum_update {f : Nat → Download Data} {n d : Nat} (hd : d < n)
    (download : Download Data) :
    ∑ i ∈ range n, (Function.update f d download i).waiting + (f d).waiting =
      ∑ i ∈ range n, (f i).waiting + download.waiting := by
  have hmem : d ∈ range n := Finset.mem_range.mpr hd
  have hrest : ∑ i ∈ (range n).erase d, (Function.update f d download i).waiting =
      ∑ i ∈ (range n).erase d, (f i).waiting := by
    apply Finset.sum_congr rfl
    intro i hi
    rw [Function.update_of_ne (Finset.ne_of_mem_erase hi)]
  rw [← Finset.add_sum_erase _ _ hmem, ← Finset.add_sum_erase _ (fun i => (f i).waiting) hmem,
    hrest, Function.update_self]
  abel

theorem waiting_updateDownload {d : Nat} (hd : d < s.downloadCount) (download : Download Data) :
    (s.updateDownload d download).waiting + (s.downloads d).waiting =
      s.waiting + download.waiting := by
  simp only [waiting, updateDownload]
  rw [add_assoc, sum_update hd, ← add_assoc]

end Loading

/-! ## What settles -/

section

open Loading

variable {s s' : Loading Data Image} {gone gone' : Finset Nat} {lost lost' : Multiset Nat}

theorem Settles.trans {mid : Loading Data Image} (h : Settles s mid gone lost)
    (h' : Settles mid s' gone' lost') : Settles s s' (gone ∪ gone') (lost' + lost) where
  operations := h'.operations.trans h.operations
  operationCount := h'.operationCount.trans h.operationCount
  running := by rw [h'.running, h.running, sdiff_sdiff, Finset.sup_eq_union]
  loadOperation v := (h'.loadOperation v).trans (h.loadOperation v)
  imageURL v := (h'.imageURL v).trans (h.imageURL v)
  waiting := by rw [h.waiting, h'.waiting, add_assoc]
  downloadCount := h'.downloadCount.trans h.downloadCount
  url d := (h'.url d).trans (h.url d)
  callbacks d := List.Subset.trans (h'.callbacks d) (h.callbacks d)
  ended d hover := h'.ended d (h.ended d hover)
  finished d hfinished := h'.finished d (h.finished d hfinished)
  deaf d hdeaf := by
    rcases h'.deaf d hdeaf with hmid | hnone
    · rcases h.deaf d hmid with hdeaf | hnone
      · exact .inl hdeaf
      · exact .inr (List.subset_nil.mp (hnone ▸ h'.callbacks d))
    · exact .inr hnone
  urlOperations url d hknown := h.urlOperations url d (h'.urlOperations url d hknown)

theorem settles_refl (s : Loading Data Image) : Settles s s ∅ 0 where
  running := (Finset.sdiff_empty).symm
  waiting := (add_zero _).symm

theorem Settles.of_silent {mid : Loading Data Image} (h : Settles s mid ∅ 0)
    (h' : Settles mid s' ∅ lost) : Settles s s' ∅ lost := by
  have hboth := h.trans h'
  rwa [Finset.empty_union, add_zero] at hboth

theorem Settles.dispatchMain (h : Settles s s' gone lost) {task : MainTask Data Image}
    (htask : task.waiting = 0) : Settles s (s'.dispatchMain task) gone lost :=
  { h with
    waiting := by
      rw [waiting_dispatchMain, htask, add_zero]
      exact h.waiting }

theorem settles_callCompletionBlock (s : Loading Data Image) (o : Nat)
    (result : Except LoadError Image) : Settles s (s.callCompletionBlock o result) ∅ 0 := by
  cases result with
  | ok image =>
      have hview (v : Nat) : ((s.callCompletionBlock o (.ok image)).views v).loadOperation =
          (s.views v).loadOperation ∧
          ((s.callCompletionBlock o (.ok image)).views v).imageURL = (s.views v).imageURL := by
        by_cases hv : v = (s.operations o).view
        · subst hv
          simp [callCompletionBlock, updateView]
        · simp [callCompletionBlock, updateView, Function.update_of_ne hv]
      exact {
        running := Finset.sdiff_empty.symm
        loadOperation := fun v => (hview v).1
        imageURL := fun v => (hview v).2
        waiting := (add_zero _).symm }
  | error error =>
      by_cases hcancelled : (s.operations o).isCancelled = true
      · rw [callCompletionBlock, if_pos hcancelled]
        exact settles_refl s
      · rw [callCompletionBlock, if_neg hcancelled]
        exact { running := Finset.sdiff_empty.symm, waiting := (add_zero _).symm }

theorem settles_safelyRemoveOperationFromRunning (s : Loading Data Image) (o : Nat) :
    Settles s (s.safelyRemoveOperationFromRunning o) {o} 0 where
  running := Finset.erase_eq _ _
  waiting := (add_zero _).symm

theorem settles_callStoreCacheProcess (s : Loading Data Image) (o : Nat) (image : Image)
    (data : Data) : Settles s (s.callStoreCacheProcess o image data) ∅ 0 := by
  have hstore : Settles s (dispatchIOQueue { s with
      memoryCache := Function.update s.memoryCache (s.operations o).url (some image) }
      (.store (s.operations o).url data)) ∅ 0 := {
    running := Finset.sdiff_empty.symm
    waiting := by
      rw [waiting_dispatchIOQueue, add_zero]
      exact (add_zero _).symm }
  exact hstore.trans (settles_callCompletionBlock _ o (.ok image))

theorem settles_loaderCompleted (result : Except LoadError (Image × Data))
    (s : Loading Data Image) (o : Nat) : Settles s (s.loaderCompleted result o) {o} 0 := by
  suffices h : ∃ mid, Settles s mid ∅ 0 ∧
      s.loaderCompleted result o = mid.safelyRemoveOperationFromRunning o by
    obtain ⟨mid, hmid, hcompleted⟩ := h
    rw [hcompleted]
    have hremoved := hmid.trans (settles_safelyRemoveOperationFromRunning mid o)
    rwa [Finset.empty_union, add_zero] at hremoved
  refine ⟨_, ?_, rfl⟩
  by_cases hcancelled : (s.operations o).isCancelled = true
  · rw [if_pos hcancelled]
    exact settles_callCompletionBlock s o _
  · rw [if_neg hcancelled]
    match result with
    | .ok (image, data) => exact settles_callStoreCacheProcess s o image data
    | .error error =>
        have hcalled := settles_callCompletionBlock s o (.error error)
        by_cases hblock : error ≠ .sdWebImage .cancelled ∧ error.shouldBlockFailedURL = true
        · simp only [if_pos hblock]
          exact { hcalled with }
        · simp only [if_neg hblock]
          exact hcalled

theorem loaderCompleted_cancelled {o : Nat} (result : Except LoadError (Image × Data))
    (hcancelled : (s.operations o).isCancelled = true) :
    s.loaderCompleted result o = s.safelyRemoveOperationFromRunning o := by
  simp [loaderCompleted, callCompletionBlock, hcancelled]

theorem settles_foldl_loaderCompleted (result : Except LoadError (Image × Data))
    (callbacks : List Nat) (s : Loading Data Image) :
    Settles s (callbacks.foldl (loaderCompleted result) s) callbacks.toFinset 0 := by
  induction callbacks generalizing s with
  | nil => exact settles_refl s
  | cons o callbacks ih =>
      rw [List.toFinset_cons, Finset.insert_eq]
      exact (settles_loaderCompleted result s o).trans (ih _)

theorem settles_callDownloadProcess_some (s : Loading Data Image) (o : Nat) (image : Image) :
    Settles s (s.callDownloadProcess o (some image)) {o} 0 := by
  have hcalled := (settles_callCompletionBlock s o (.ok image)).trans
    (settles_safelyRemoveOperationFromRunning _ o)
  rwa [Finset.empty_union, add_zero] at hcalled

theorem settles_popMain {task : MainTask Data Image} {rest : List (MainTask Data Image)}
    (hqueue : s.mainQueue = task :: rest) :
    Settles s { s with mainQueue := rest } ∅ task.waiting where
  running := Finset.sdiff_empty.symm
  waiting := by
    simp only [waiting, hqueue, List.map_cons, List.sum_cons]
    abel

theorem settles_popIOQueue {task : IOTask Data} {rest : List (IOTask Data)}
    (hqueue : s.ioQueue = task :: rest) :
    Settles s { s with ioQueue := rest } ∅ task.waiting where
  running := Finset.sdiff_empty.symm
  waiting := by
    simp only [waiting, hqueue, List.map_cons, List.sum_cons]
    abel

theorem settles_updateDownload {d : Nat} (hd : d < s.downloadCount) {download : Download Data}
    (hurl : download.url = (s.downloads d).url)
    (hcallbacks : download.callbacks ⊆ (s.downloads d).callbacks)
    (hover : (s.downloads d).stage = .ended → download.stage = .ended)
    (hfinished : download.stage = .ended → download.isFinished = true)
    (hdeaf : download.isFinished = true ∨ download.isCancelled = true →
      ((s.downloads d).isFinished = true ∨ (s.downloads d).isCancelled = true) ∨
        download.callbacks = [])
    (hwaiting : (s.downloads d).waiting = download.waiting + lost) :
    Settles s (s.updateDownload d download) ∅ lost where
  running := Finset.sdiff_empty.symm
  waiting := by
    have hupdate := waiting_updateDownload hd download
    rw [hwaiting, add_comm download.waiting, ← add_assoc] at hupdate
    exact (add_right_cancel hupdate).symm
  url i := by
    by_cases hi : i = d
    · subst hi
      simpa [updateDownload] using hurl
    · simp [updateDownload, Function.update_of_ne hi]
  callbacks i := by
    by_cases hi : i = d
    · subst hi
      simpa [updateDownload] using hcallbacks
    · simp [updateDownload, Function.update_of_ne hi]
  ended i := by
    by_cases hi : i = d
    · subst hi
      simpa [updateDownload] using hover
    · simp [updateDownload, Function.update_of_ne hi]
  finished i := by
    by_cases hi : i = d
    · subst hi
      simpa [updateDownload] using fun _ => hfinished
    · simp [updateDownload, Function.update_of_ne hi]
  deaf i := by
    by_cases hi : i = d
    · subst hi
      simpa [updateDownload] using hdeaf
    · simpa [updateDownload, Function.update_of_ne hi] using Or.inl

theorem settles_report {d : Nat} (hd : d < s.downloadCount) {download : Download Data}
    (result : Except LoadError (Image × Data)) (hurl : download.url = (s.downloads d).url)
    (hcallbacks : download.callbacks ⊆ (s.downloads d).callbacks)
    (hover : (s.downloads d).stage = .ended → download.stage = .ended)
    (hfinished : download.stage = .ended → download.isFinished = true)
    (hdeaf : download.isFinished = true ∨ download.isCancelled = true →
      ((s.downloads d).isFinished = true ∨ (s.downloads d).isCancelled = true) ∨
        download.callbacks = [])
    (hwaiting : (s.downloads d).waiting = (s.downloads d).callbacks)
    (hreported : download.waiting = 0) :
    Settles s ((s.callCompletionBlocks d result).updateDownload d download) ∅ 0 := by
  have hupdated := settles_updateDownload hd hurl hcallbacks hover hfinished hdeaf
    (hwaiting.trans (by rw [hreported, zero_add]))
  have hdispatched : (s.callCompletionBlocks d result).updateDownload d download =
      (s.updateDownload d download).dispatchMain
        (.downloaded (s.downloads d).callbacks result) := rfl
  rw [hdispatched]
  exact { hupdated with
    waiting := by
      rw [waiting_dispatchMain, add_zero]
      exact hupdated.waiting }

theorem Loading.Control.lt_downloadCount (h : s.Control) {d : Nat}
    (hstage : (s.downloads d).stage ≠ .ended) : d < s.downloadCount := by
  by_contra hd
  exact hstage (h.unused d (Nat.le_of_not_lt hd))

theorem Loading.Control.waiting_download (h : s.Control) {d : Nat}
    (hcalls : (s.downloads d).stage.willCall = true) :
    (s.downloads d).waiting = (s.downloads d).callbacks := by
  unfold Download.waiting
  by_cases hfinished : (s.downloads d).isFinished = false
  · rw [if_pos ⟨hfinished, hcalls⟩]
  · rw [if_neg (mt And.left hfinished), h.deaf d (.inl (by simpa using hfinished))]
    rfl

/-! ## The threads -/

theorem Loading.Control.settles_start (h : s.Control) (d : Nat) :
    Settles s (s.start d) ∅ 0 := by
  cases hstage : (s.downloads d).stage
  case queued =>
    have hnot : (s.downloads d).stage ≠ .ended := by simp [hstage]
    have hd := h.lt_downloadCount hnot
    have hwaiting : (s.downloads d).waiting = (s.downloads d).callbacks :=
      h.waiting_download (by rw [hstage]; rfl)
    simp only [start, hstage]
    by_cases hcancelled : (s.downloads d).isCancelled = true
    · rw [if_pos hcancelled]
      exact settles_report hd _ rfl (List.nil_subset _) (fun _ => rfl) (fun _ => rfl)
        (fun _ => .inr rfl)
        hwaiting (by simp [Download.waiting, Stage.willCall])
    · rw [if_neg hcancelled]
      suffices hloading : Settles s (s.updateDownload d
          { s.downloads d with stage := .loading }) ∅ 0 from hloading.dispatchMain rfl
      refine settles_updateDownload hd rfl (List.Subset.refl _) ?_ ?_ ?_ ?_
      · exact fun hover => absurd hover hnot
      · exact nofun
      · exact Or.inl
      · simp [Download.waiting, Stage.willCall, hstage]
  all_goals simpa only [start, hstage] using settles_refl s

theorem Loading.Control.lt_of_isReceiving (h : s.Control) {d : Nat}
    (hreceiving : s.isReceiving d = true) : d < s.downloadCount := by
  apply h.lt_downloadCount
  intro hover
  simp [isReceiving, hover] at hreceiving

theorem Loading.Control.settles_receive (h : s.Control) {d : Nat} (hd : d < s.downloadCount)
    (response : Option Nat) (responseError : Option SDWebImageError) (imageData : Option Data) :
    Settles s (s.updateDownload d { s.downloads d with response, responseError, imageData }) ∅ 0 :=
  settles_updateDownload hd rfl (List.Subset.refl _) id (h.finished d) Or.inl (add_zero _).symm

theorem Loading.Control.settles_didReceiveResponse (h : s.Control) (d statusCode : Nat) :
    Settles s (s.didReceiveResponse d statusCode) ∅ 0 := by
  unfold didReceiveResponse
  by_cases hreceiving : s.isReceiving d = true
  · rw [if_pos hreceiving]
    exact (h.settles_receive (h.lt_of_isReceiving hreceiving) _ _ _).dispatchMain rfl
  · rw [if_neg hreceiving]
    exact settles_refl s

theorem Loading.Control.settles_didReceiveData [Append Data] (h : s.Control) (d : Nat)
    (data : Data) : Settles s (s.didReceiveData d data) ∅ 0 := by
  unfold didReceiveData
  by_cases hreceiving : s.isReceiving d = true
  · rw [if_pos hreceiving]
    exact h.settles_receive (h.lt_of_isReceiving hreceiving) _ _ _
  · rw [if_neg hreceiving]
    exact settles_refl s

theorem Loading.Control.settles_didComplete (h : s.Control) (d : Nat)
    (error : Option LoadError) : Settles s (s.didComplete d error) ∅ 0 := by
  cases hstage : (s.downloads d).stage
  case loading =>
    have hnot : (s.downloads d).stage ≠ .ended := by simp [hstage]
    have hd := h.lt_downloadCount hnot
    have hwaiting : (s.downloads d).waiting = (s.downloads d).callbacks :=
      h.waiting_download (by rw [hstage]; rfl)
    set mid := s.dispatchMain .notification with hmid
    have hnotified : Settles s mid ∅ 0 := (settles_refl s).dispatchMain rfl
    have hreport (result : Except LoadError (Image × Data)) (imageData : Option Data) :
        Settles s ((mid.callCompletionBlocks d result).updateDownload d
          { s.downloads d with stage := .reporting, imageData := imageData }) ∅ 0 := by
      apply hnotified.of_silent
      exact settles_report (s := mid) hd result rfl (List.Subset.refl _)
        (fun hover => absurd hover hnot) nofun Or.inl hwaiting
        (by simp [Download.waiting, Stage.willCall])
    simp only [didComplete, hstage, ← hmid]
    by_cases hfinished : (s.downloads d).isFinished = true
    · rw [if_pos hfinished]
      refine settles_updateDownload hd rfl (List.Subset.refl _) ?_ ?_ ?_ ?_
      · exact fun _ => rfl
      · exact fun _ => hfinished
      · exact Or.inl
      · simp [Download.waiting, hfinished]
    · rw [if_neg hfinished]
      cases error with
      | some error => exact hreport _ _
      | none =>
          by_cases hcallbacks : (s.downloads d).callbacks = []
          · simp only [if_pos hcallbacks]
            apply hnotified.of_silent
            refine settles_updateDownload (s := mid) hd rfl (List.Subset.refl _) ?_ ?_ ?_ ?_
            · exact fun hover => absurd hover hnot
            · exact nofun
            · exact Or.inl
            · change (s.downloads d).waiting = _
              rw [hwaiting, hcallbacks]
              simp [Download.waiting, Stage.willCall]
          · simp only [if_neg hcallbacks]
            cases (s.downloads d).imageData with
            | none => exact hreport _ _
            | some data =>
                have hupdated : Settles s (mid.updateDownload d
                    { s.downloads d with stage := .decoding data, imageData := none }) ∅ 0 := by
                  apply hnotified.of_silent
                  refine settles_updateDownload (s := mid) hd rfl (List.Subset.refl _) ?_ ?_ ?_ ?_
                  · exact fun hover => absurd hover hnot
                  · exact nofun
                  · exact Or.inl
                  · change (s.downloads d).waiting = _
                    simp [Download.waiting, Stage.willCall, hstage]
                exact { hupdated with }
  all_goals simpa only [didComplete, hstage] using settles_refl s

theorem Loading.Control.settles_didDecode (h : s.Control) (coders : Coders Data Image) (d : Nat) :
    Settles s (s.didDecode coders d) ∅ 0 := by
  cases hstage : (s.downloads d).stage
  case decoding data =>
    have hnot : (s.downloads d).stage ≠ .ended := by simp [hstage]
    simp only [didDecode, hstage]
    exact settles_report (h.lt_downloadCount hnot) _ rfl (List.Subset.refl _)
      (fun hover => absurd hover hnot) nofun Or.inl (h.waiting_download (by rw [hstage]; rfl))
      (by simp [Download.waiting, Stage.willCall])
  all_goals simpa only [didDecode, hstage] using settles_refl s

theorem Loading.Control.settles_done (h : s.Control) (d : Nat) : Settles s (s.done d) ∅ 0 := by
  cases hstage : (s.downloads d).stage
  case reporting =>
    have hd : d < s.downloadCount := h.lt_downloadCount (by simp [hstage])
    simp only [done, hstage]
    refine settles_updateDownload hd rfl (List.nil_subset _) ?_ ?_ ?_ ?_
    · exact fun _ => rfl
    · exact fun _ => rfl
    · exact fun _ => .inr rfl
    · simp [Download.waiting, Stage.willCall, hstage]
  all_goals simpa only [done, hstage] using settles_refl s

theorem settles_completionBlock (s : Loading Data Image) (d : Nat) :
    Settles s (s.completionBlock d) ∅ 0 := by
  unfold completionBlock
  by_cases hcalled : ((s.downloads d).isFinished && (s.downloads d).completionBlock) = true
  · simp only [if_pos hcalled]
    have hsame (i : Nat) :
        Function.update s.downloads d { s.downloads d with completionBlock := false } i =
          { s.downloads i with completionBlock :=
            (Function.update s.downloads d
              { s.downloads d with completionBlock := false } i).completionBlock } := by
      by_cases hi : i = d
      · subst hi
        rw [Function.update_self]
      · rw [Function.update_of_ne hi]
    exact {
      running := Finset.sdiff_empty.symm
      waiting := by
        simp only [waiting, updateDownload, add_zero]
        congr 1
        apply Finset.sum_congr rfl
        intro i _
        rw [hsame i]
        rfl
      url := fun i => by
        simp only [updateDownload]
        rw [hsame i]
      callbacks := fun i => by
        simp only [updateDownload]
        rw [hsame i]
        exact List.Subset.refl _
      ended := fun i hover => by
        simp only [updateDownload]
        rw [hsame i]
        exact hover
      finished := fun i hfinished => by
        simp only [updateDownload]
        rw [hsame i]
        exact hfinished
      deaf := fun i hdeaf => by
        simp only [updateDownload] at hdeaf
        rw [hsame i] at hdeaf
        exact .inl hdeaf
      urlOperations := fun url i hknown => by
        by_cases hurl : url = (s.downloads d).url
        · subst hurl
          simp [updateDownload] at hknown
        · simpa [updateDownload, Function.update_of_ne hurl] using hknown }
  · rw [if_neg hcalled]
    exact settles_refl s

theorem settles_endIOTask (coders : Coders Data Image) (s : Loading Data Image) :
    Settles s (s.endIOTask coders) ∅ 0 := by
  cases hquerying : s.querying with
  | none => simpa only [endIOTask, hquerying] using settles_refl s
  | some o =>
      simp only [endIOTask, hquerying]
      exact {
        running := Finset.sdiff_empty.symm
        waiting := by
          rw [waiting_dispatchMain]
          simp only [waiting, hquerying, MainTask.waiting, Option.elim_some, Option.elim_none]
          abel }

/-- A query that finds its operation cancelled is over; others go on to the disk. -/
theorem settles_beginIOTask (s : Loading Data Image) :
    Settles s s.beginIOTask ∅ 0 ∨
      ∃ o, (s.operations o).isCancelled = true ∧ Settles s s.beginIOTask {o} {o} := by
  match hquerying : s.querying, hqueue : s.ioQueue with
  | none, .store url data :: rest =>
      left
      have hpopped := settles_popIOQueue hqueue
      rw [hquerying] at hpopped
      simp only [beginIOTask, hquerying, hqueue]
      have hstored : Settles s { s with
          ioQueue := rest
          querying := none
          diskCache := Function.update s.diskCache url (some data) } ∅ 0 := { hpopped with }
      exact hstored.dispatchMain rfl
  | none, .query o :: rest =>
      have hpopped : Settles s { s with ioQueue := rest } ∅ {o} := settles_popIOQueue hqueue
      rw [hquerying] at hpopped
      simp only [beginIOTask, hquerying, hqueue]
      by_cases hcancelled : (s.operations o).isCancelled = true
      · right
        refine ⟨o, hcancelled, ?_⟩
        rw [if_pos hcancelled]
        have hdispatched : Settles s (dispatchMain { s with ioQueue := rest, querying := none }
            (.completion o (.error (.sdWebImage .cancelled)))) ∅ {o} :=
          { hpopped with
            waiting := by
              rw [waiting_dispatchMain]
              exact hpopped.waiting.trans (by simp [MainTask.waiting]) }
        have hremoved := hdispatched.trans (settles_safelyRemoveOperationFromRunning _ o)
        rwa [Finset.empty_union, zero_add] at hremoved
      · left
        rw [if_neg hcancelled]
        exact { hpopped with
          waiting := by
            rw [hpopped.waiting]
            simp only [waiting, Option.elim_none, Option.elim_some]
            abel }
  | some o, _ =>
      left
      simpa only [beginIOTask, hquerying] using settles_refl s
  | none, [] =>
      left
      simpa only [beginIOTask, hquerying, hqueue] using settles_refl s

/-! ## Control is kept -/

theorem Loading.Control.settles (h : s.Control) (hsettles : Settles s s' gone lost)
    (hgone : ∀ o ∈ gone, o ∉ s'.waiting) : s'.Control where
  recorded v o := by
    rw [hsettles.loadOperation, hsettles.operationCount, hsettles.operations]
    exact h.recorded v o
  running o ho := by
    rw [hsettles.running, Finset.mem_sdiff] at ho
    rw [hsettles.operations, hsettles.loadOperation, hsettles.imageURL]
    exact h.running o ho.1
  distinct := by
    have hdistinct := h.distinct
    rw [hsettles.waiting, Multiset.nodup_add] at hdistinct
    exact hdistinct.1
  waits o ho := by
    have hwaits := h.waits o (by rw [hsettles.waiting]; exact Multiset.mem_add.mpr (.inl ho))
    rw [hsettles.operationCount, hsettles.operations, hsettles.running, Finset.mem_sdiff]
    exact ⟨hwaits.1, fun hcancelled => ⟨hwaits.2 hcancelled, fun hmem => hgone o hmem ho⟩⟩
  loader o d := by
    rw [hsettles.operations, hsettles.downloadCount]
    exact h.loader o d
  known url d hknown := by
    rw [hsettles.downloadCount, hsettles.url]
    exact h.known url d (hsettles.urlOperations url d hknown)
  unused d hd := by
    rw [hsettles.downloadCount] at hd
    exact hsettles.ended d (h.unused d hd)
  finished d := hsettles.finished d (h.finished d)
  handlers d o ho := by
    rw [hsettles.operationCount, hsettles.operations, hsettles.url]
    exact h.handlers d o (hsettles.callbacks d ho)
  deaf d hdeaf := by
    rcases hsettles.deaf d hdeaf with hdeaf | hnone
    · exact List.subset_nil.mp (h.deaf d hdeaf ▸ hsettles.callbacks d)
    · exact hnone

theorem Loading.Control.not_waiting (h : s.Control) (hsettles : Settles s s' gone lost)
    {o : Nat} (ho : o ∈ lost) : o ∉ s'.waiting := by
  have hdistinct := h.distinct
  rw [hsettles.waiting, Multiset.nodup_add] at hdistinct
  exact fun hmem => Multiset.disjoint_left.mp hdistinct.2.2 hmem ho

theorem Loading.Control.of_settles (h : s.Control) (hsettles : Settles s s' ∅ lost) :
    s'.Control :=
  h.settles hsettles fun _ ho => absurd ho (Finset.notMem_empty _)

end

end BookShelf.SDWebImage
