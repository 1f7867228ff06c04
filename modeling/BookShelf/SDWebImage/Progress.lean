import BookShelf.Library.Potential
import BookShelf.SDWebImage.Quiet

/-!
# Loads come to rest

Each image that is asked for pays for the steps that the threads take on its behalf; there are no
more than seventeen, and what the network has to say besides a response and some data pays for
itself. A thread that has nothing to do waits for one that has, so that the threads can always
finish their work, and have finished it when none of them has anything to do.
-/

namespace BookShelf.SDWebImage

open Loading
open Finset (range)

variable {Data Image : Type} {coders : Coders Data Image} {diskCache : URL → Option Data}
  {s s' : Loading Data Image}

/-- The event finds something to do. What the app asks for, and what the caches and the views drop,
is not work. -/
def Loading.hasWork (s : Loading Data Image) : LoadEvent Data → Bool
  | .main => !s.mainQueue.isEmpty
  | .beginIOTask => s.querying.isNone && !s.ioQueue.isEmpty
  | .endIOTask => s.querying.isSome
  | .start d => match (s.downloads d).stage with
      | .queued => true
      | _ => false
  | .didReceiveResponse d _ | .didReceiveData d _ => s.isReceiving d
  | .didComplete d _ => match (s.downloads d).stage with
      | .loading => true
      | _ => false
  | .didDecode d => match (s.downloads d).stage with
      | .decoding _ => true
      | _ => false
  | .done d => match (s.downloads d).stage with
      | .reporting => true
      | _ => false
  | .completionBlock d => decide (d < s.downloadCount) &&
      ((s.downloads d).isFinished && (s.downloads d).completionBlock)
  | .setImage _ _ | .release _ | .removeFromMemory _ | .removeFromDisk _ => false

/-- A download that has had a response receives one more. -/
def Loading.isFurtherResponse (s : Loading Data Image) : LoadEvent Data → Bool
  | .didReceiveResponse d _ => s.isReceiving d && (s.downloads d).response.isSome
  | _ => false

/-- A download that has some data receives more. -/
def Loading.isFurtherData (s : Loading Data Image) : LoadEvent Data → Bool
  | .didReceiveData d _ => s.isReceiving d && (s.downloads d).imageData.isSome
  | _ => false

/-! ## What is still to be done -/

def IOTask.cost : IOTask Data → Nat
  | .query _ => 14
  | .store _ _ => 2

def MainTask.cost : MainTask Data Image → Nat
  | .queried _ _ => 12
  | .completion _ _ | .downloaded _ _ | .notification | .stored => 1

/-- A download is paid for its response and for the first of its data. -/
def Download.cost (download : Download Data) : Nat :=
  (match download.stage with
    | .queued => 10
    | .loading => 5 + 2 * download.response.isNone.toNat + download.imageData.isNone.toNat
    | .decoding _ => 3
    | .reporting => 1
    | .ended => 0) + download.completionBlock.toNat

/-- The steps that the queues and the downloads are still good for, leaving out what becomes of
the handlers that they call. -/
def Loading.cost (s : Loading Data Image) : Nat :=
  (s.ioQueue.map IOTask.cost).sum + s.querying.elim 0 (fun _ => 13) +
    (s.mainQueue.map MainTask.cost).sum + ∑ d ∈ range s.downloadCount, (s.downloads d).cost

/-- A handler that is called may have an image stored, which is reported on the main queue. -/
def Loading.potential (s : Loading Data Image) : Nat :=
  s.cost + 2 * s.waiting.card

theorem cost_dispatchIOQueue (s : Loading Data Image) (task : IOTask Data) :
    (s.dispatchIOQueue task).cost = s.cost + task.cost := by
  simp only [Loading.cost, dispatchIOQueue, List.map_append, List.map_singleton, List.sum_append,
    List.sum_singleton]
  omega

theorem cost_dispatchMain (s : Loading Data Image) (task : MainTask Data Image) :
    (s.dispatchMain task).cost = s.cost + task.cost := by
  simp only [Loading.cost, dispatchMain, List.map_append, List.map_singleton, List.sum_append,
    List.sum_singleton]
  omega

theorem cost_updateDownload {d : Nat} (hd : d < s.downloadCount) (download : Download Data) :
    (s.updateDownload d download).cost + (s.downloads d).cost = s.cost + download.cost := by
  have hmem : d ∈ range s.downloadCount := Finset.mem_range.mpr hd
  have hrest : ∑ i ∈ (range s.downloadCount).erase d,
      (Function.update s.downloads d download i).cost =
        ∑ i ∈ (range s.downloadCount).erase d, (s.downloads i).cost := by
    apply Finset.sum_congr rfl
    intro i hi
    rw [Function.update_of_ne (Finset.ne_of_mem_erase hi)]
  simp only [Loading.cost, updateDownload]
  rw [← Finset.add_sum_erase _ _ hmem,
    ← Finset.add_sum_erase _ (fun i => (s.downloads i).cost) hmem, hrest, Function.update_self]
  omega

/-! ## Completion blocks -/

theorem cost_callCompletionBlock (s : Loading Data Image) (o : Nat)
    (result : Except LoadError Image) : (s.callCompletionBlock o result).cost = s.cost := by
  cases result with
  | ok image => rfl
  | error error =>
      unfold callCompletionBlock
      simp only
      split <;> rfl

theorem cost_loaderCompleted (result : Except LoadError (Image × Data)) (s : Loading Data Image)
    (o : Nat) : (s.loaderCompleted result o).cost ≤ s.cost + 2 := by
  unfold loaderCompleted
  by_cases hcancelled : (s.operations o).isCancelled = true
  · rw [if_pos hcancelled]
    exact (cost_callCompletionBlock s o _).trans_le (Nat.le_add_right _ _)
  · rw [if_neg hcancelled]
    match result with
    | .ok (image, data) =>
        have hstored := cost_dispatchIOQueue { s with
          memoryCache := Function.update s.memoryCache (s.operations o).url (some image) }
            (.store (s.operations o).url data)
        exact ((cost_callCompletionBlock _ o _).trans hstored).le
    | .error error =>
        have hcalled := cost_callCompletionBlock s o (.error error)
        simp only
        split <;> exact hcalled.trans_le (Nat.le_add_right _ _)

theorem cost_foldl_loaderCompleted (result : Except LoadError (Image × Data))
    (callbacks : List Nat) (s : Loading Data Image) :
    (callbacks.foldl (loaderCompleted result) s).cost ≤ s.cost + 2 * callbacks.length := by
  induction callbacks generalizing s with
  | nil => exact le_refl _
  | cons o callbacks ih =>
      have hfirst := cost_loaderCompleted result s o
      have hrest := ih (s.loaderCompleted result o)
      rw [List.foldl_cons, List.length_cons]
      omega

/-! ## The threads -/

theorem cost_popMain {task : MainTask Data Image} {rest : List (MainTask Data Image)}
    (hqueue : s.mainQueue = task :: rest) :
    ({ s with mainQueue := rest } : Loading Data Image).cost + task.cost = s.cost := by
  simp only [Loading.cost, hqueue, List.map_cons, List.sum_cons]
  omega

theorem cost_report {d : Nat} (hd : d < s.downloadCount) (download : Download Data)
    (result : Except LoadError (Image × Data)) :
    ((s.callCompletionBlocks d result).updateDownload d download).cost + (s.downloads d).cost =
      s.cost + download.cost + 1 := by
  have hupdated := cost_updateDownload (s := s.callCompletionBlocks d result) hd download
  have hdispatched := cost_dispatchMain s (.downloaded (s.downloads d).callbacks result)
  change (s.callCompletionBlocks d result).cost = s.cost + 1 at hdispatched
  rw [hdispatched] at hupdated
  change _ + (s.downloads d).cost = _ at hupdated
  omega

theorem Loading.Control.cost_start (h : s.Control) (d : Nat) :
    (s.start d).cost + (if s.hasWork (.start d) then 1 else 0) ≤ s.cost := by
  cases hstage : (s.downloads d).stage
  case queued =>
    have hd : d < s.downloadCount := h.lt_downloadCount (by simp [hstage])
    simp only [start, hasWork, hstage]
    by_cases hcancelled : (s.downloads d).isCancelled = true
    · rw [if_pos hcancelled]
      have hreport := cost_report hd { s.downloads d with
        isFinished := true, callbacks := [], stage := .ended }
          (.error (.sdWebImage .cancelled))
      simp only [Download.cost, hstage] at hreport
      simp only [if_true]
      omega
    · rw [if_neg hcancelled, cost_dispatchMain]
      have hupdated := cost_updateDownload hd { s.downloads d with stage := .loading }
      have hresponse := Bool.toNat_le (s.downloads d).response.isNone
      have hdata := Bool.toNat_le (s.downloads d).imageData.isNone
      simp only [Download.cost, hstage] at hupdated
      simp only [if_true, MainTask.cost]
      omega
  all_goals simp [start, hasWork, hstage]

theorem Loading.stage_of_isReceiving {d : Nat} (hreceiving : s.isReceiving d = true) :
    (s.downloads d).stage = .loading := by
  unfold isReceiving at hreceiving
  cases hstage : (s.downloads d).stage with
  | loading => rfl
  | _ => simp [hstage] at hreceiving

theorem Loading.Control.cost_didReceiveResponse (h : s.Control) (d statusCode : Nat) :
    (s.didReceiveResponse d statusCode).cost +
        (if s.hasWork (.didReceiveResponse d statusCode) then 1 else 0) ≤
      s.cost + 2 * (if s.isFurtherResponse (.didReceiveResponse d statusCode) then 1 else 0) := by
  unfold didReceiveResponse
  by_cases hreceiving : s.isReceiving d = true
  · have hstage := stage_of_isReceiving hreceiving
    simp only [hasWork, isFurtherResponse, hreceiving, if_true, Bool.true_and]
    rw [cost_dispatchMain]
    suffices hpaid : ∀ responseError, (s.updateDownload d
        { s.downloads d with response := some statusCode, responseError }).cost + 2 =
          s.cost + 2 * (if (s.downloads d).response.isSome then 1 else 0) from
      (hpaid _).le
    intro responseError
    have hupdated := cost_updateDownload (h.lt_of_isReceiving hreceiving)
      { s.downloads d with response := some statusCode, responseError }
    simp only [Download.cost, hstage, Option.isNone_some, Bool.toNat_false] at hupdated ⊢
    cases hresponse : (s.downloads d).response with
    | none =>
        simp only [hresponse, Option.isNone_none, Bool.toNat_true] at hupdated
        simp only [Option.isSome_none, Bool.false_eq_true, if_false]
        omega
    | some statusCode' =>
        simp only [hresponse, Option.isNone_some, Bool.toNat_false] at hupdated
        simp only [Option.isSome_some, if_true]
        omega
  · simp only [hasWork, hreceiving, Bool.false_eq_true, if_false]
    exact Nat.le_add_right _ _

theorem Loading.Control.cost_didReceiveData [Append Data] (h : s.Control) (d : Nat)
    (data : Data) : (s.didReceiveData d data).cost +
        (if s.hasWork (.didReceiveData d data) then 1 else 0) ≤
      s.cost + (if s.isFurtherData (.didReceiveData d data) then 1 else 0) := by
  unfold didReceiveData
  by_cases hreceiving : s.isReceiving d = true
  · have hstage := stage_of_isReceiving hreceiving
    simp only [hasWork, isFurtherData, hreceiving, if_true, Bool.true_and]
    suffices hpaid : ∀ received, (s.updateDownload d
        { s.downloads d with imageData := some received }).cost + 1 =
          s.cost + (if (s.downloads d).imageData.isSome then 1 else 0) from
      (hpaid _).le
    intro received
    have hupdated := cost_updateDownload (h.lt_of_isReceiving hreceiving)
      { s.downloads d with imageData := some received }
    simp only [Download.cost, hstage, Option.isNone_some, Bool.toNat_false] at hupdated ⊢
    cases hdata : (s.downloads d).imageData with
    | none =>
        simp only [hdata, Option.isNone_none, Bool.toNat_true] at hupdated
        simp only [Option.isSome_none, Bool.false_eq_true, if_false]
        omega
    | some received' =>
        simp only [hdata, Option.isNone_some, Bool.toNat_false] at hupdated
        simp only [Option.isSome_some, if_true]
        omega
  · simp only [hasWork, hreceiving, Bool.false_eq_true, if_false]
    exact Nat.le_add_right _ _

theorem Loading.Control.cost_didComplete (h : s.Control) (d : Nat) (error : Option LoadError) :
    (s.didComplete d error).cost + (if s.hasWork (.didComplete d error) then 1 else 0) ≤
      s.cost := by
  cases hstage : (s.downloads d).stage
  case loading =>
    have hd : d < s.downloadCount := h.lt_downloadCount (by simp [hstage])
    set mid := s.dispatchMain .notification with hmid
    have hnotified : mid.cost = s.cost + 1 := cost_dispatchMain s .notification
    have hupdated (stage : Stage Data) (imageData : Option Data) :=
      cost_updateDownload (s := mid) hd
        { s.downloads d with stage := stage, imageData := imageData }
    have hreport (imageData : Option Data) (result : Except LoadError (Image × Data)) :
        ((mid.callCompletionBlocks d result).updateDownload d
          { s.downloads d with stage := .reporting, imageData := imageData }).cost + 1 ≤
            s.cost := by
      have hreported := cost_report (s := mid) hd
        { s.downloads d with stage := .reporting, imageData := imageData } result
      change _ + (s.downloads d).cost = _ at hreported
      simp only [Download.cost, hstage] at hreported ⊢
      omega
    simp only [didComplete, hasWork, hstage, if_true, ← hmid]
    by_cases hfinished : (s.downloads d).isFinished = true
    · rw [if_pos hfinished]
      have hover := cost_updateDownload hd { s.downloads d with stage := .ended }
      simp only [Download.cost, hstage] at hover
      omega
    · rw [if_neg hfinished]
      cases error with
      | some error => exact hreport _ _
      | none =>
          by_cases hcallbacks : (s.downloads d).callbacks = []
          · simp only [if_pos hcallbacks]
            have hreporting := hupdated .reporting (s.downloads d).imageData
            change _ + (s.downloads d).cost = _ at hreporting
            simp only [Download.cost, hstage] at hreporting
            omega
          · simp only [if_neg hcallbacks]
            cases hdata : (s.downloads d).imageData with
            | none => exact hreport _ _
            | some data =>
                have hdecoding := hupdated (.decoding data) none
                change _ + (s.downloads d).cost = _ at hdecoding
                simp only [Download.cost, hstage] at hdecoding
                change (mid.updateDownload d _).cost + 1 ≤ s.cost
                omega
  all_goals simp [didComplete, hasWork, hstage]

theorem Loading.Control.cost_didDecode (h : s.Control) (coders : Coders Data Image) (d : Nat) :
    (s.didDecode coders d).cost + (if s.hasWork (.didDecode d) then 1 else 0) ≤ s.cost := by
  cases hstage : (s.downloads d).stage
  case decoding data =>
    have hd : d < s.downloadCount := h.lt_downloadCount (by simp [hstage])
    have hreport := cost_report hd { s.downloads d with stage := .reporting }
    simp only [Download.cost, hstage] at hreport
    simp only [didDecode, hasWork, hstage, if_true]
    suffices hpaid : ∀ result, ((s.callCompletionBlocks d result).updateDownload d
        { s.downloads d with stage := .reporting }).cost + 1 ≤ s.cost from hpaid _
    intro result
    have hresult := hreport result
    simp only
    omega
  all_goals simp [didDecode, hasWork, hstage]

theorem Loading.Control.cost_done (h : s.Control) (d : Nat) :
    (s.done d).cost + (if s.hasWork (.done d) then 1 else 0) ≤ s.cost := by
  cases hstage : (s.downloads d).stage
  case reporting =>
    have hd : d < s.downloadCount := h.lt_downloadCount (by simp [hstage])
    have hupdated := cost_updateDownload hd { s.downloads d with
      isFinished := true, callbacks := [], stage := .ended }
    simp only [Download.cost, hstage] at hupdated
    simp only [done, hasWork, hstage, if_true]
    omega
  all_goals simp [done, hasWork, hstage]

theorem cost_completionBlock (s : Loading Data Image) (d : Nat) :
    (s.completionBlock d).cost + (if s.hasWork (.completionBlock d) then 1 else 0) ≤ s.cost := by
  unfold completionBlock
  by_cases hcalled : ((s.downloads d).isFinished && (s.downloads d).completionBlock) = true
  · simp only [hasWork, hcalled, Bool.and_true, if_true, decide_eq_true_eq]
    by_cases hd : d < s.downloadCount
    · have hupdated := cost_updateDownload hd { s.downloads d with completionBlock := false }
      have hblock := (Bool.and_eq_true_iff.mp hcalled).2
      simp only [Download.cost, hblock, Bool.toNat_true, Bool.toNat_false] at hupdated
      rw [if_pos hd]
      change (s.updateDownload d _).cost + 1 ≤ s.cost
      omega
    · rw [if_neg hd]
      have hsame : ∑ i ∈ range s.downloadCount, (Function.update s.downloads d
          { s.downloads d with completionBlock := false } i).cost =
            ∑ i ∈ range s.downloadCount, (s.downloads i).cost := by
        apply Finset.sum_congr rfl
        intro i hi
        rw [Function.update_of_ne]
        rintro rfl
        exact hd (Finset.mem_range.mp hi)
      simp only [Loading.cost, updateDownload, hsame, add_zero, le_refl]
  · simp [hasWork, hcalled]

theorem cost_endIOTask (coders : Coders Data Image) (s : Loading Data Image) :
    (s.endIOTask coders).cost + (if s.hasWork .endIOTask then 1 else 0) ≤ s.cost := by
  cases hquerying : s.querying with
  | none => simp [endIOTask, hasWork, hquerying]
  | some o =>
      simp only [endIOTask, hasWork, hquerying, Option.isSome_some, if_true]
      rw [cost_dispatchMain]
      simp only [Loading.cost, hquerying, MainTask.cost, Option.elim_none, Option.elim_some]
      omega

/-! ## The main thread and the cache -/

theorem Settles.card_waiting {gone : Finset Nat} {lost : Multiset Nat}
    (h : Settles s s' gone lost) : s'.waiting.card + lost.card = s.waiting.card := by
  rw [h.waiting, Multiset.card_add]

theorem potential_of_settles {gone : Finset Nat} {lost : Multiset Nat} {w : Nat}
    (h : Settles s s' gone lost) (hcost : s'.cost + w ≤ s.cost + 2 * lost.card) :
    s'.potential + w ≤ s.potential := by
  have hcard := h.card_waiting
  unfold Loading.potential
  omega

theorem cost_beginIOTask (s : Loading Data Image) :
    s.beginIOTask.cost + (if s.hasWork .beginIOTask then 1 else 0) ≤ s.cost := by
  match hquerying : s.querying, hqueue : s.ioQueue with
  | none, .store url data :: rest =>
      have hworks : s.hasWork .beginIOTask = true := by simp [hasWork, hquerying, hqueue]
      rw [if_pos hworks]
      simp only [beginIOTask, hquerying, hqueue]
      rw [cost_dispatchMain]
      simp only [Loading.cost, hquerying, hqueue, List.map_cons, List.sum_cons, IOTask.cost,
        MainTask.cost]
      omega
  | none, .query o :: rest =>
      have hworks : s.hasWork .beginIOTask = true := by simp [hasWork, hquerying, hqueue]
      rw [if_pos hworks]
      simp only [beginIOTask, hquerying, hqueue]
      by_cases hcancelled : (s.operations o).isCancelled = true
      · rw [if_pos hcancelled]
        change (dispatchMain { s with ioQueue := rest, querying := none }
          (.completion o (.error (.sdWebImage .cancelled)))).cost + 1 ≤ s.cost
        rw [cost_dispatchMain]
        simp only [Loading.cost, hquerying, hqueue, List.map_cons, List.sum_cons, IOTask.cost,
          MainTask.cost]
        omega
      · rw [if_neg hcancelled]
        simp only [Loading.cost, hquerying, hqueue, List.map_cons, List.sum_cons, IOTask.cost,
          Option.elim_none, Option.elim_some]
        omega
  | some o, _ => simp [beginIOTask, hasWork, hquerying]
  | none, [] => simp [beginIOTask, hasWork, hquerying, hqueue]

theorem potential_beginIOTask (s : Loading Data Image) :
    s.beginIOTask.potential + (if s.hasWork .beginIOTask then 1 else 0) ≤ s.potential := by
  have hcost := cost_beginIOTask s
  rcases settles_beginIOTask s with hsettles | ⟨o, -, hsettles⟩
  · exact potential_of_settles hsettles (hcost.trans (Nat.le_add_right _ _))
  · exact potential_of_settles hsettles (hcost.trans (Nat.le_add_right _ _))

theorem Loading.Control.cost_downloadImage (h : s.Control) (o : Nat) :
    (s.downloadImage (s.operations o).url o).1.cost ≤ s.cost + 11 := by
  have hfresh : ∑ i ∈ range (s.downloadCount + 1), (Function.update s.downloads s.downloadCount
      ⟨(s.operations o).url, [o], false, false, .queued, none, none, none, true⟩ i).cost =
        ∑ i ∈ range s.downloadCount, (s.downloads i).cost + 11 := by
    rw [Finset.sum_range_succ, Function.update_self]
    congr 1
    apply Finset.sum_congr rfl
    intro i hi
    rw [Function.update_of_ne (Finset.mem_range.mp hi).ne]
  unfold downloadImage
  cases hknown : s.urlOperations (s.operations o).url with
  | none =>
      simp only [Loading.cost, hfresh]
      omega
  | some d =>
      by_cases hdeaf : ((s.downloads d).isFinished || (s.downloads d).isCancelled) = true
      · simp only [if_pos hdeaf, Loading.cost, hfresh]
        omega
      · simp only [if_neg hdeaf]
        have hupdated := cost_updateDownload (h.known _ d hknown).1
          { s.downloads d with callbacks := (s.downloads d).callbacks ++ [o] }
        simp only [Download.cost] at hupdated
        omega

/-- A handler that is called may have its image stored, and an operation that has not found its
image in the cache has it downloaded. -/
theorem Loading.Control.potential_perform (h : s.Control) (task : MainTask Data Image) :
    (s.perform task).potential + 1 ≤ s.potential + task.cost + 2 * task.waiting.card := by
  cases task with
  | completion o result =>
      have hsettled := potential_of_settles (w := 0) (settles_callCompletionBlock s o result)
        (cost_callCompletionBlock s o result).le
      simp only [perform, MainTask.cost, MainTask.waiting]
      omega
  | queried o image =>
      simp only [perform, cacheCompleted, MainTask.cost, MainTask.waiting, Multiset.card_singleton]
      by_cases hcancelled : (s.operations o).isCancelled = true
      · rw [if_pos hcancelled]
        have hsettled := potential_of_settles (w := 0)
          (settles_callCompletionBlock s o (.error (.sdWebImage .cancelled)))
          (cost_callCompletionBlock s o _).le
        change (s.callCompletionBlock o _).potential + 1 ≤ _
        omega
      · rw [if_neg hcancelled]
        cases image with
        | some image =>
            have hsettled := potential_of_settles (w := 0)
              (settles_callCompletionBlock s o (.ok image)) (cost_callCompletionBlock s o _).le
            change (s.callCompletionBlock o _).potential + 1 ≤ _
            omega
        | none =>
            obtain ⟨gained, hattaches, hgained⟩ := attaches_downloadImage h o
            have hcost := h.cost_downloadImage o
            have hcard : gained.card ≤ 1 := by
              rcases hgained with rfl | ⟨-, rfl⟩ <;> simp
            have hwaiting := congrArg Multiset.card hattaches.waiting
            rw [Multiset.card_add] at hwaiting
            change (s.downloadImage (s.operations o).url o).1.potential + 1 ≤ _
            unfold Loading.potential
            omega
  | downloaded callbacks result =>
      have hcost := cost_foldl_loaderCompleted result callbacks s
      have hcard := (settles_foldl_loaderCompleted result callbacks s).card_waiting
      simp only [perform, MainTask.cost, MainTask.waiting, Multiset.coe_card, Multiset.card_zero,
        add_zero, Loading.potential] at hcard ⊢
      omega
  | notification | stored =>
      simp only [perform, MainTask.cost, MainTask.waiting, Multiset.card_zero]
      omega

theorem Loading.Control.potential_runMain (h : s.Control) :
    s.runMain.potential + (if s.hasWork .main then 1 else 0) ≤ s.potential := by
  cases hqueue : s.mainQueue with
  | nil => simp [runMain, hasWork, hqueue]
  | cons task rest =>
      have hpopped := settles_popMain hqueue
      have hperformed := (h.of_settles hpopped).potential_perform task
      have hcost := cost_popMain hqueue
      have hcard := hpopped.card_waiting
      simp only [runMain, hasWork, hqueue, List.isEmpty_cons, Bool.not_false, if_true]
      unfold Loading.potential at hperformed ⊢
      omega

/-! ## A view asks for an image -/

theorem Cancels.potential_le {o : Nat} (h : Cancels s s' o) : s'.potential ≤ s.potential + 1 := by
  have hdownload (d : Nat) : (s'.downloads d).cost = (s.downloads d).cost := by
    rw [Download.cost, (h.downloads d).2.2, h.completionBlock, (h.received d).1,
      (h.received d).2]
    rfl
  have hmain : (s'.mainQueue.map MainTask.cost).sum ≤ (s.mainQueue.map MainTask.cost).sum + 1 := by
    rcases h.mainQueue with hsame | hnotified
    · rw [hsame]
      exact Nat.le_add_right _ _
    · rw [hnotified]
      simp [MainTask.cost]
  have hcost : s'.cost ≤ s.cost + 1 := by
    rw [h.rest]
    simp only [Loading.cost, hdownload]
    omega
  obtain ⟨lost, hlost, -⟩ := h.waiting
  have hcard := congrArg Multiset.card hlost
  rw [Multiset.card_add] at hcard
  unfold Loading.potential
  omega

theorem Loading.Control.potential_emptied (h : s.Control) (v : Nat) (url : Option URL) :
    (s.emptied v url).potential ≤ s.potential + 1 := by
  change (s.cancelImageLoadOperation v).potential ≤ s.potential + 1
  unfold Loading.cancelImageLoadOperation
  cases hv : (s.views v).loadOperation with
  | none => exact Nat.le_add_right _ _
  | some o => exact (cancels_cancel h (h.loader o)).potential_le

theorem Loading.Control.potential_setImage (h : s.Control) (v : Nat) (url : Option URL) :
    (s.setImage v url).potential ≤ s.potential + 17 := by
  have hemptied := h.potential_emptied v url
  cases url with
  | none => exact hemptied.trans (Nat.add_le_add_left (by decide) _)
  | some url =>
      set mid := s.emptied v (some url)
      have hcalled (result : Except LoadError Image) :
          ((mid.begun v url).callCompletionBlock mid.operationCount result).potential ≤
            mid.potential :=
        potential_of_settles (s := mid.begun v url) (w := 0)
          (settles_callCompletionBlock _ _ result) (cost_callCompletionBlock _ _ result).le
      by_cases hrefused : url = "" ∨ url ∈ mid.failedURLs
      · obtain ⟨error, hset⟩ := setImage_refused h hrefused
        rw [hset]
        exact ((hcalled (.error error)).trans hemptied).trans (Nat.add_le_add_left (by decide) _)
      · cases hcached : mid.memoryCache url with
        | some image =>
            rw [setImage_cached h hrefused hcached]
            exact ((hcalled (.ok image)).trans hemptied).trans
              (Nat.add_le_add_left (by decide) _)
        | none =>
            rw [setImage_queried h hrefused hcached]
            set running := { mid.begun v url with
              runningOperations := insert mid.operationCount mid.runningOperations }
            have hcost :
                (running.dispatchIOQueue (.query mid.operationCount)).cost = mid.cost + 14 :=
              cost_dispatchIOQueue running _
            have hcard := congrArg Multiset.card
              (waiting_dispatchIOQueue running (.query mid.operationCount))
            rw [Multiset.card_add] at hcard
            change (running.dispatchIOQueue (.query mid.operationCount)).waiting.card =
              mid.waiting.card + 1 at hcard
            change (running.dispatchIOQueue (.query mid.operationCount)).potential ≤ _
            unfold Loading.potential at hemptied ⊢
            omega

/-! ## Each step is paid for -/

/-- What an event pays in. -/
def Loading.gain (s : Loading Data Image) (e : LoadEvent Data) : Nat :=
  17 * (if e.isSetImage then 1 else 0) + (2 * (if s.isFurtherResponse e then 1 else 0) +
    (if s.isFurtherData e then 1 else 0))

theorem Loading.Control.paid [Append Data] (h : s.Control) {e : LoadEvent Data}
    (hstep : (loadingMachine coders).step s e = .ok s') :
    s'.potential + (if s.hasWork e then 1 else 0) ≤ s.potential + s.gain e := by
  cases e with
  | setImage v url =>
      cases hstep
      exact h.potential_setImage v url
  | main =>
      cases hstep
      exact h.potential_runMain
  | beginIOTask =>
      cases hstep
      exact potential_beginIOTask s
  | endIOTask =>
      cases hstep
      exact potential_of_settles (settles_endIOTask coders s) (cost_endIOTask coders s)
  | start d =>
      cases hstep
      exact potential_of_settles (h.settles_start d) (h.cost_start d)
  | didReceiveResponse d statusCode =>
      cases hstep
      have hcost := h.cost_didReceiveResponse d statusCode
      have hwaiting := (h.settles_didReceiveResponse d statusCode).card_waiting
      simp only [Loading.gain, LoadEvent.isSetImage, isFurtherData, Bool.false_eq_true, if_false,
        Loading.potential, Multiset.card_zero, add_zero] at hwaiting ⊢
      omega
  | didReceiveData d data =>
      cases hstep
      have hcost := h.cost_didReceiveData d data
      have hwaiting := (h.settles_didReceiveData d data).card_waiting
      simp only [Loading.gain, LoadEvent.isSetImage, isFurtherResponse, Bool.false_eq_true,
        if_false, Loading.potential, Multiset.card_zero, add_zero] at hwaiting ⊢
      omega
  | didComplete d error =>
      cases hstep
      exact potential_of_settles (h.settles_didComplete d error) (h.cost_didComplete d error)
  | didDecode d =>
      cases hstep
      exact potential_of_settles (h.settles_didDecode coders d) (h.cost_didDecode coders d)
  | done d =>
      cases hstep
      exact potential_of_settles (h.settles_done d) (h.cost_done d)
  | completionBlock d =>
      cases hstep
      exact potential_of_settles (settles_completionBlock s d) (cost_completionBlock s d)
  | release v =>
      cases hstep
      change (s.release v).potential ≤ s.potential
      unfold Loading.release
      split
      · exact le_refl _
      · split <;> exact le_refl _
  | removeFromMemory url =>
      cases hstep
      exact le_refl _
  | removeFromDisk url =>
      cases hstep
      exact le_refl _

/-- What the app and the network have paid for all together: seventeen steps for each image that
was asked for, two for each response of a download after the first, and one for each piece of data
after the first. -/
def paidSteps [Append Data] (coders : Coders Data Image) (s : Loading Data Image)
    (es : List (LoadEvent Data)) : Nat :=
  17 * es.countP LoadEvent.isSetImage +
    (2 * (loadingMachine coders).countSteps Loading.isFurtherResponse s es +
      (loadingMachine coders).countSteps Loading.isFurtherData s es)

theorem sumSteps_gain [Append Data] {es : List (LoadEvent Data)}
    (hrun : (loadingMachine coders).run s es = .ok s') :
    (loadingMachine coders).sumSteps Loading.gain s es = paidSteps coders s es := by
  unfold Loading.gain
  rw [Machine.sumSteps_add, Machine.sumSteps_add, Machine.sumSteps_mul, Machine.sumSteps_mul]
  rw [paidSteps, ← Machine.countSteps_of_run hrun]
  rfl

theorem potential_initial (diskCache : URL → Option Data) :
    (initial Data Image diskCache).potential = 0 :=
  rfl

private theorem potential_add_work [Append Data] {es : List (LoadEvent Data)}
    (hrun : (loadingMachine coders).run (initial Data Image diskCache) es = .ok s) :
    s.potential + (loadingMachine coders).countSteps Loading.hasWork
      (initial Data Image diskCache) es ≤ paidSteps coders (initial Data Image diskCache) es := by
  have hpaid : s.potential + (loadingMachine coders).countSteps Loading.hasWork
      (initial Data Image diskCache) es ≤ (initial Data Image diskCache).potential +
        (loadingMachine coders).sumSteps Loading.gain (initial Data Image diskCache) es := by
    refine Machine.potential_add_sumSteps_le (P := Loading.Control) ?_ ?_
      (control_initial diskCache) hrun
    · exact fun s e s' h hstep => (stepped_of_step h hstep).control h
    · exact fun s e s' h hstep => h.paid hstep
  rwa [potential_initial, zero_add, sumSteps_gain hrun] at hpaid

/-- The threads take no more than seventeen steps for each image that was asked for, two for each
further response and one for each further piece of data. -/
theorem loads_take_few_steps [Append Data] {es : List (LoadEvent Data)}
    (hrun : (loadingMachine coders).run (initial Data Image diskCache) es = .ok s) :
    (loadingMachine coders).countSteps Loading.hasWork (initial Data Image diskCache) es ≤
      17 * es.countP LoadEvent.isSetImage +
        (2 * (loadingMachine coders).countSteps Loading.isFurtherResponse
            (initial Data Image diskCache) es +
          (loadingMachine coders).countSteps Loading.isFurtherData
            (initial Data Image diskCache) es) :=
  (Nat.le_add_left _ _).trans (potential_add_work hrun)

theorem loads_take_few_steps_shared :
    ∃ s, (loadingMachine plainCoders).run (initial (List Nat) Nat (fun _ => none))
        sharedDownload = .ok s ∧
      (loadingMachine plainCoders).countSteps Loading.hasWork
        (initial (List Nat) Nat (fun _ => none)) sharedDownload ≤ 51 := by
  obtain ⟨s, hrun, -⟩ := Machine.exists_of_any (loadingMachine plainCoders)
    (initial (List Nat) Nat (fun _ => none)) sharedDownload (fun _ => true) (by decide)
  exact ⟨s, hrun, loads_take_few_steps hrun⟩

/-- An image that is not in the cache takes sixteen; here there is a second piece of data. -/
example : (loadingMachine plainCoders).countSteps Loading.hasWork
    (initial (List Nat) Nat (fun _ => none))
    [.setImage 0 (some "a"), .beginIOTask, .endIOTask, .main, .start 0, .main,
      .didReceiveResponse 0 200, .main, .didReceiveData 0 [3], .didReceiveData 0 [4],
      .didComplete 0 none, .main, .didDecode 0, .main, .done 0, .beginIOTask, .main,
      .completionBlock 0] = 16 + 1 := by
  decide

/-! ## The work can be finished -/

/-- What the network still has to say about a download: the status code of its response and the
data that it brings, each if none has come yet, and how the data task ends. -/
structure NetworkAnswer (Data : Type) where
  statusCode : Option Nat
  data : Option Data
  error : Option LoadError

/-- The download has its response, if the network has one for it. -/
def Loading.Responded (s : Loading Data Image) (answers : Nat → NetworkAnswer Data) (d : Nat) :
    Prop :=
  (s.downloads d).response = none → (answers d).statusCode = none

/-- The same for its data. -/
def Loading.Filled (s : Loading Data Image) (answers : Nat → NetworkAnswer Data) (d : Nat) : Prop :=
  (s.downloads d).imageData = none → (answers d).data = none

/-- The downloads that keep a place of the download queue. -/
def Loading.executing (s : Loading Data Image) : Nat :=
  (List.range s.downloadCount).countP fun d =>
    (s.downloads d).stage.isStarted && !(s.downloads d).isFinished

/-- The default of the downloader's configuration. -/
def maxConcurrentDownloads : Nat :=
  6

/-- The download queue starts its downloads in turn, as long as a place is free. -/
def Loading.MayStart (s : Loading Data Image) (d : Nat) : Prop :=
  (∀ earlier < d, (s.downloads earlier).stage.isStarted = true) ∧
    s.executing < maxConcurrentDownloads

/-- A thread goes on, and what it hears from the network about a download is what `answers`
says: the response first, then the data, and then how it ends. -/
def Loading.GoesOn (s : Loading Data Image) (answers : Nat → NetworkAnswer Data) :
    LoadEvent Data → Prop
  | .main | .beginIOTask | .endIOTask => True
  | .start d => s.MayStart d
  | .didDecode _ | .done _ | .completionBlock _ => True
  | .didReceiveResponse d statusCode =>
      (s.downloads d).response = none ∧ (answers d).statusCode = some statusCode
  | .didReceiveData d data => s.Responded answers d ∧
      (s.downloads d).imageData = none ∧ (answers d).data = some data
  | .didComplete d error => error = (answers d).error ∧
      (s.isReceiving d = true → s.Responded answers d ∧ s.Filled answers d)
  | .setImage _ _ | .release _ | .removeFromMemory _ | .removeFromDisk _ => False

theorem Loading.GoesOn.isSetImage {answers : Nat → NetworkAnswer Data} {e : LoadEvent Data}
    (h : s.GoesOn answers e) : e.isSetImage = false := by
  cases e with
  | setImage v url => exact h.elim
  | _ => rfl

theorem Loading.GoesOn.gain {answers : Nat → NetworkAnswer Data} {e : LoadEvent Data}
    (h : s.GoesOn answers e) : s.gain e = 0 := by
  cases e with
  | setImage v url => exact h.elim
  | didReceiveResponse d statusCode =>
      simp [Loading.gain, LoadEvent.isSetImage, isFurtherResponse, isFurtherData, h.1]
  | didReceiveData d data =>
      simp [Loading.gain, LoadEvent.isSetImage, isFurtherResponse, isFurtherData, h.2.1]
  | _ => rfl

theorem Loading.Control.potential_lt [Append Data] (h : s.Control) {e : LoadEvent Data}
    {answers : Nat → NetworkAnswer Data} (hgoesOn : s.GoesOn answers e)
    (hworks : s.hasWork e = true) (hstep : (loadingMachine coders).step s e = .ok s') :
    s'.potential < s.potential := by
  have hpaid := h.paid hstep
  rw [if_pos hworks, hgoesOn.gain] at hpaid
  exact hpaid

/-- No thread finds anything to do. -/
def Loading.Idle (s : Loading Data Image) : Prop :=
  ∀ e, s.hasWork e = false

theorem Loading.Idle.quiet (h : s.Idle) : s.Quiet := by
  have hquerying : s.querying = none := by simpa [hasWork] using h .endIOTask
  refine ⟨?_, hquerying, by simpa [hasWork] using h .main, ?_⟩
  · simpa [hasWork, hquerying] using h .beginIOTask
  · intro d
    right
    cases hstage : (s.downloads d).stage with
    | queued => simpa [hasWork, hstage] using h (.start d)
    | loading => simpa [hasWork, hstage] using h (.didComplete d none)
    | decoding data => simpa [hasWork, hstage] using h (.didDecode d)
    | reporting => simpa [hasWork, hstage] using h (.done d)
    | ended => rfl

theorem Loading.Control.reporting_of_late (h : s.Control) {e : LoadEvent Data}
    (hlate : s.HandlerIsLate e) : ∃ d, (s.downloads d).stage = .reporting := by
  obtain ⟨o, d, -, hfinished, -, hcalled⟩ : ∃ o, s.AttachesLate o := by
    unfold Loading.HandlerIsLate at hlate
    split at hlate
    · split at hlate
      · exact ⟨_, hlate.2⟩
      · exact hlate.elim
    · exact hlate.elim
  cases hstage : (s.downloads d).stage with
  | reporting => exact ⟨d, hstage⟩
  | ended =>
      rw [h.finished d hstage] at hfinished
      cases hfinished
  | _ =>
      rw [hstage] at hcalled
      cases hcalled

theorem Loading.executing_eq_zero (hexecuting : ∀ d, (s.downloads d).stage.isStarted = true →
    (s.downloads d).isFinished = true) : s.executing = 0 := by
  rw [Loading.executing, List.countP_eq_zero]
  intro d _ hd
  rw [Bool.and_eq_true, Bool.not_eq_true'] at hd
  rw [hexecuting d hd.1] at hd
  cases hd.2

/-- The first download in the queue may start when no other keeps a place. -/
theorem Loading.exists_mayStart (hexecuting : ∀ d, (s.downloads d).stage.isStarted = true →
    (s.downloads d).isFinished = true) {d : Nat} (hd : (s.downloads d).stage = .queued) :
    ∃ first, (s.downloads first).stage = .queued ∧ s.MayStart first := by
  induction d using Nat.strong_induction_on with
  | h d ih =>
      by_cases hfirst : ∀ earlier < d, (s.downloads earlier).stage.isStarted = true
      · refine ⟨d, hd, hfirst, ?_⟩
        rw [Loading.executing_eq_zero hexecuting]
        decide
      · push Not at hfirst
        obtain ⟨earlier, hearlier, hnot⟩ := hfirst
        apply ih earlier hearlier
        cases hstage : (s.downloads earlier).stage with
        | queued => rfl
        | _ => simp [hstage, Stage.isStarted] at hnot

/-- If each download that has reported is marked as finished first, then no handler comes too
late. A place of the download queue is free unless some download can go on. -/
theorem Loading.Control.exists_work (h : s.Control) (hwork : ¬ s.Idle)
    (answers : Nat → NetworkAnswer Data) :
    ∃ e : LoadEvent Data, (s.GoesOn answers e ∧ ¬ s.HandlerIsLate e) ∧ s.hasWork e = true := by
  by_cases hreporting : ∃ d, (s.downloads d).stage = .reporting
  · obtain ⟨d, hd⟩ := hreporting
    exact ⟨.done d, ⟨trivial, id⟩, by simp only [hasWork, hd]⟩
  · have hlate (e : LoadEvent Data) : ¬ s.HandlerIsLate e := mt h.reporting_of_late hreporting
    have hloading {d : Nat} (hstage : (s.downloads d).stage = .loading) :
        ∃ e : LoadEvent Data, (s.GoesOn answers e ∧ ¬ s.HandlerIsLate e) ∧
          s.hasWork e = true := by
      by_cases hover : s.isReceiving d = true → s.Responded answers d ∧ s.Filled answers d
      · exact ⟨.didComplete d (answers d).error, ⟨⟨rfl, hover⟩, hlate _⟩, by
          simp only [hasWork, hstage]⟩
      · rw [Classical.not_imp, not_and_or] at hover
        obtain ⟨hreceiving, hmore⟩ := hover
        by_cases hresponded : s.Responded answers d
        · have hunfilled := hmore.resolve_left (not_not.mpr hresponded)
          obtain ⟨hnone, hdata⟩ := Classical.not_imp.mp hunfilled
          obtain ⟨data, hdata⟩ := Option.ne_none_iff_exists'.mp hdata
          exact ⟨.didReceiveData d data, ⟨⟨hresponded, hnone, hdata⟩, hlate _⟩, hreceiving⟩
        · obtain ⟨hnone, hcode⟩ := Classical.not_imp.mp hresponded
          obtain ⟨statusCode, hcode⟩ := Option.ne_none_iff_exists'.mp hcode
          exact ⟨.didReceiveResponse d statusCode, ⟨⟨hnone, hcode⟩, hlate _⟩, hreceiving⟩
    by_cases hexecuting : ∀ d, (s.downloads d).stage.isStarted = true →
        (s.downloads d).isFinished = true
    case neg =>
      push Not at hexecuting
      obtain ⟨d, hstarted, hunfinished⟩ := hexecuting
      cases hstage : (s.downloads d).stage with
      | queued =>
          rw [hstage] at hstarted
          cases hstarted
      | loading => exact hloading hstage
      | decoding data => exact ⟨.didDecode d, ⟨trivial, hlate _⟩, by simp only [hasWork, hstage]⟩
      | reporting => exact absurd ⟨d, hstage⟩ hreporting
      | ended => exact absurd (h.finished d hstage) hunfinished
    obtain ⟨e, he⟩ : ∃ e, s.hasWork e = true := by simpa [Loading.Idle] using hwork
    cases e with
    | start d =>
        obtain ⟨first, hqueued, hmay⟩ := Loading.exists_mayStart hexecuting (d := d) <| by
          simp only [hasWork] at he
          split at he
          · assumption
          · cases he
        exact ⟨.start first, ⟨hmay, hlate _⟩, by simp only [hasWork, hqueued]⟩
    | setImage v url => cases he
    | release v => cases he
    | removeFromMemory url => cases he
    | removeFromDisk url => cases he
    | didReceiveResponse d statusCode => exact hloading (stage_of_isReceiving he)
    | didReceiveData d data => exact hloading (stage_of_isReceiving he)
    | didComplete d error =>
        apply hloading (d := d)
        simp only [hasWork] at he
        split at he
        · assumption
        · cases he
    | _ =>
        refine ⟨_, ⟨?_, hlate _⟩, he⟩
        trivial

theorem Loading.Pursues.exists_step [Append Data] (h : s.Pursues) (hcontrol : s.Control)
    (hwork : ¬ s.Idle) (answers : Nat → NetworkAnswer Data) :
    ∃ e s', (s.GoesOn answers e ∧ ¬ s.HandlerIsLate e) ∧
      (loadingMachine coders).step s e = .ok s' ∧
      (s'.Control ∧ s'.Pursues ∧ ∀ v, (s'.views v).imageURL = (s.views v).imageURL) ∧
      s'.potential < s.potential := by
  obtain ⟨e, ⟨hgoesOn, hlate⟩, hworks⟩ := hcontrol.exists_work hwork answers
  obtain ⟨s', hstep⟩ : ∃ s', (loadingMachine coders).step s e = .ok s' := by
    cases e <;> exact ⟨_, rfl⟩
  have hstepped := stepped_of_step hcontrol hstep
  exact ⟨e, s', ⟨hgoesOn, hlate⟩, hstep, ⟨hstepped.control hcontrol,
    hstepped.pursues h hcontrol hlate, hstepped.imageURL hcontrol hgoesOn.isSetImage⟩,
    hcontrol.potential_lt hgoesOn hworks hstep⟩

theorem Loading.Pursues.finish [Append Data] (h : s.Pursues) (hcontrol : s.Control)
    (coders : Coders Data Image) (answers : Nat → NetworkAnswer Data) :
    ∃ more s', (loadingMachine coders).Meets
        (fun s e => s.GoesOn answers e ∧ ¬ s.HandlerIsLate e) s more ∧
      more.length ≤ s.potential ∧ (loadingMachine coders).run s more = .ok s' ∧ s'.Idle ∧
      ∀ v url, (s.views v).imageURL = some url →
        (s'.views v).imageURL = some url ∧ ((s'.views v).image ≠ none ∨ url ∈ s'.failed) := by
  set P : Loading Data Image → Prop := fun s' =>
    s'.Control ∧ s'.Pursues ∧ ∀ v, (s'.views v).imageURL = (s.views v).imageURL
  have hprogress : ∀ s, P s → ¬ s.Idle →
      ∃ e s', (s.GoesOn answers e ∧ ¬ s.HandlerIsLate e) ∧
        (loadingMachine coders).step s e = .ok s' ∧ P s' ∧ s'.potential < s.potential := by
    intro s ⟨hcontrol, hpursues, hurls⟩ hwork
    obtain ⟨e, s', hgoesOn, hstep, ⟨hcontrol', hpursues', hurls'⟩, hlt⟩ :=
      hpursues.exists_step hcontrol hwork answers
    exact ⟨e, s', hgoesOn, hstep,
      ⟨hcontrol', hpursues', fun v => (hurls' v).trans (hurls v)⟩, hlt⟩
  obtain ⟨more, s', hmore, hlength, hrest, ⟨-, hpursues, hurls⟩, hidle⟩ :=
    Machine.exists_rest hprogress ⟨hcontrol, h, fun _ => rfl⟩
  refine ⟨more, s', hmore, hlength, hrest, hidle, ?_⟩
  intro v url hurl
  rw [← hurls v] at hurl
  exact ⟨hurl, hpursues.answered hidle.quiet hurl⟩

/-- As long as no handler has come too late, the threads can finish all loads, whatever the
network answers: each view that was given a URL then shows an image, or loading the URL has
failed. -/
theorem loads_can_be_finished [Append Data] (answers : Nat → NetworkAnswer Data)
    {es : List (LoadEvent Data)}
    (hmeets : (loadingMachine coders).Meets (fun s e => ¬ s.HandlerIsLate e)
      (initial Data Image diskCache) es)
    (hrun : (loadingMachine coders).run (initial Data Image diskCache) es = .ok s) :
    ∃ more s', (loadingMachine coders).Meets
        (fun s e => s.GoesOn answers e ∧ ¬ s.HandlerIsLate e) s more ∧
      more.length ≤ paidSteps coders (initial Data Image diskCache) es ∧
      (loadingMachine coders).run s more = .ok s' ∧ s'.Idle ∧
      ∀ v url, (s.views v).imageURL = some url →
        (s'.views v).imageURL = some url ∧ ((s'.views v).image ≠ none ∨ url ∈ s'.failed) := by
  obtain ⟨hcontrol, hpursues⟩ := pursues_of_run hmeets hrun
  obtain ⟨more, s', hmore, hlength, hrest, hidle, hviews⟩ :=
    hpursues.finish hcontrol coders answers
  refine ⟨more, s', hmore, ?_, hrest, hidle, hviews⟩
  exact hlength.trans ((Nat.le_add_right _ _).trans (potential_add_work hrun))

/-- Two views wait for a query each, and a third has given up its first image. -/
def unfinishedLoads : List (LoadEvent (List Nat)) :=
  [.setImage 0 (some "a"), .setImage 1 (some "a"), .setImage 2 (some "b"), .beginIOTask,
    .setImage 2 (some "c")]

theorem loads_can_be_finished_offline :
    ∃ s, (loadingMachine plainCoders).run (initial (List Nat) Nat (fun _ => none))
        unfinishedLoads = .ok s ∧
      ∃ more s', more.length ≤ 68 ∧ (loadingMachine plainCoders).run s more = .ok s' ∧
        ((s'.views 2).image ≠ none ∨ "c" ∈ s'.failed) := by
  obtain ⟨s, hrun, hurl⟩ := Machine.exists_of_any (loadingMachine plainCoders)
    (initial (List Nat) Nat (fun _ => none)) unfinishedLoads
    (fun s => decide ((s.views 2).imageURL = some "c")) (by decide)
  obtain ⟨more, s', -, hlength, hrest, -, hviews⟩ :=
    loads_can_be_finished (fun _ => ⟨some 200, some [5], some (.nsURL .notConnectedToInternet)⟩)
      (by decide) hrun
  exact ⟨s, hrun, more, s', hlength, hrest, (hviews 2 "c" (of_decide_eq_true hurl)).2⟩

end BookShelf.SDWebImage
