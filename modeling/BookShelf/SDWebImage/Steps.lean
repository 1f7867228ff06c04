import BookShelf.SDWebImage.Cancelling

/-!
# Steps of a load

What the threads share about the operations is kept by every step. A handler that is attached to a
download waits with it, unless the download has its handlers called already.
-/

namespace BookShelf.SDWebImage

open Loading
open Finset (range)

variable {Data Image : Type} {s s' : Loading Data Image}

/-! ## Attaching a handler -/

/-- A handler for the operation would go to a download that reports to its handlers already: it
would never be called. -/
def Loading.AttachesLate (s : Loading Data Image) (o : Nat) : Prop :=
  ∃ d, s.urlOperations (s.operations o).url = some d ∧
    (s.downloads d).isFinished = false ∧ (s.downloads d).isCancelled = false ∧
      (s.downloads d).stage.willCall = false

/-- The handler of the operation `o` has been added to the download `d`; `gained` says whether it
waits there. -/
structure Attaches (s s' : Loading Data Image) (o d : Nat) (gained : Multiset Nat) : Prop where
  rest : s' = { s with
    downloads := s'.downloads
    downloadCount := s'.downloadCount
    urlOperations := s'.urlOperations }
  count : s.downloadCount ≤ s'.downloadCount
  lt : d < s'.downloadCount
  known : ∀ url i, s'.urlOperations url = some i →
    i < s'.downloadCount ∧ (s'.downloads i).url = url
  unused : ∀ i, s'.downloadCount ≤ i → (s'.downloads i).stage = .ended
  finished : ∀ i, (s'.downloads i).stage = .ended → (s'.downloads i).isFinished = true
  handlers : ∀ i, ∀ p ∈ (s'.downloads i).callbacks,
    p ∈ (s.downloads i).callbacks ∧ (s'.downloads i).url = (s.downloads i).url ∨
      p = o ∧ (s'.downloads i).url = (s.operations o).url
  deaf : ∀ i, (s'.downloads i).isFinished = true ∨ (s'.downloads i).isCancelled = true →
    (s'.downloads i).callbacks = []
  decoding : ∀ i data, (s'.downloads i).stage = .decoding data →
    (s.downloads i).stage = .decoding data ∧ (s'.downloads i).url = (s.downloads i).url
  waiting : s'.waiting = s.waiting + gained

private theorem attaches_fresh (h : s.Control) (o : Nat) :
    Attaches s { s with
        downloads := Function.update s.downloads s.downloadCount
          ⟨(s.operations o).url, [o], false, false, .queued, none, none, none, true⟩
        downloadCount := s.downloadCount + 1
        urlOperations := Function.update s.urlOperations (s.operations o).url
          (some s.downloadCount) } o s.downloadCount {o} where
  rest := rfl
  count := Nat.le_succ _
  lt := Nat.lt_succ_self _
  known url i hknown := by
    simp only at hknown ⊢
    by_cases hurl : url = (s.operations o).url
    · subst hurl
      rw [Function.update_self] at hknown
      obtain rfl := Option.some.inj hknown
      rw [Function.update_self]
      exact ⟨Nat.lt_succ_self _, rfl⟩
    · rw [Function.update_of_ne hurl] at hknown
      obtain ⟨hlt, hi⟩ := h.known url i hknown
      rw [Function.update_of_ne hlt.ne]
      exact ⟨Nat.lt_succ_of_lt hlt, hi⟩
  unused i hi := by
    simp only at hi ⊢
    rw [Function.update_of_ne (Nat.lt_of_succ_le hi).ne']
    exact h.unused i (Nat.le_of_succ_le hi)
  finished i hover := by
    simp only at hover ⊢
    by_cases hi : i = s.downloadCount
    · subst hi
      rw [Function.update_self] at hover
      cases hover
    · rw [Function.update_of_ne hi] at hover ⊢
      exact h.finished i hover
  handlers i p hp := by
    simp only at hp ⊢
    by_cases hi : i = s.downloadCount
    · subst hi
      rw [Function.update_self] at hp ⊢
      exact .inr ⟨List.mem_singleton.mp hp, rfl⟩
    · rw [Function.update_of_ne hi] at hp ⊢
      exact .inl ⟨hp, rfl⟩
  deaf i hdeaf := by
    simp only at hdeaf ⊢
    by_cases hi : i = s.downloadCount
    · subst hi
      rw [Function.update_self] at hdeaf
      simp at hdeaf
    · rw [Function.update_of_ne hi] at hdeaf ⊢
      exact h.deaf i hdeaf
  decoding i data hstage := by
    simp only at hstage ⊢
    by_cases hi : i = s.downloadCount
    · subst hi
      rw [Function.update_self] at hstage
      cases hstage
    · rw [Function.update_of_ne hi] at hstage ⊢
      exact ⟨hstage, rfl⟩
  waiting := by
    have hold : ∑ i ∈ range s.downloadCount, (Function.update s.downloads s.downloadCount
        ⟨(s.operations o).url, [o], false, false, .queued, none, none, none, true⟩ i).waiting =
          ∑ i ∈ range s.downloadCount, (s.downloads i).waiting := by
      apply Finset.sum_congr rfl
      intro i hi
      rw [Function.update_of_ne (Finset.mem_range.mp hi).ne]
    simp only [waiting]
    rw [Finset.sum_range_succ, hold, Function.update_self, ← add_assoc]
    rfl

private theorem attaches_shared (h : s.Control) {o d : Nat}
    (hknown : s.urlOperations (s.operations o).url = some d)
    (hfinished : (s.downloads d).isFinished = false)
    (hcancelled : (s.downloads d).isCancelled = false) :
    ∃ gained, Attaches s (s.updateDownload d
        { s.downloads d with callbacks := (s.downloads d).callbacks ++ [o] }) o d gained ∧
      (gained = {o} ∨ s.AttachesLate o ∧ gained = 0) := by
  obtain ⟨hlt, hurl⟩ := h.known _ d hknown
  have hattaches (gained : Multiset Nat) (hgained : (s.downloads d).waiting + gained =
      ({ s.downloads d with
        callbacks := (s.downloads d).callbacks ++ [o] } : Download Data).waiting) :
      Attaches s (s.updateDownload d
        { s.downloads d with callbacks := (s.downloads d).callbacks ++ [o] }) o d gained := {
    rest := rfl
    count := le_refl _
    lt := hlt
    known := fun url i hi => by
      obtain ⟨hilt, hiurl⟩ := h.known url i hi
      refine ⟨hilt, ?_⟩
      by_cases hid : i = d
      · subst hid
        simpa [updateDownload] using hiurl
      · simpa [updateDownload, Function.update_of_ne hid] using hiurl
    unused := fun i hi => by
      have hid : i ≠ d := (lt_of_lt_of_le hlt hi).ne'
      simpa [updateDownload, Function.update_of_ne hid] using h.unused i hi
    finished := fun i => by
      by_cases hid : i = d
      · subst hid
        simpa [updateDownload] using h.finished i
      · simpa [updateDownload, Function.update_of_ne hid] using h.finished i
    handlers := fun i p hp => by
      by_cases hid : i = d
      · subst hid
        simp only [updateDownload, Function.update_self] at hp ⊢
        rcases List.mem_append.mp hp with hp | hp
        · exact .inl ⟨hp, trivial⟩
        · exact .inr ⟨List.mem_singleton.mp hp, hurl⟩
      · simp only [updateDownload, Function.update_of_ne hid] at hp ⊢
        exact .inl ⟨hp, trivial⟩
    deaf := fun i hdeaf => by
      by_cases hid : i = d
      · subst hid
        simp [updateDownload, hfinished, hcancelled] at hdeaf
      · simp only [updateDownload, Function.update_of_ne hid] at hdeaf ⊢
        exact h.deaf i hdeaf
    decoding := fun i data hstage => by
      by_cases hid : i = d
      · subst hid
        simpa [updateDownload] using hstage
      · simpa [updateDownload, Function.update_of_ne hid] using hstage
    waiting := by
      have hupdate := waiting_updateDownload hlt
        { s.downloads d with callbacks := (s.downloads d).callbacks ++ [o] }
      rw [← hgained, add_comm _ gained, ← add_assoc] at hupdate
      exact add_right_cancel hupdate }
  cases hcalls : (s.downloads d).stage.willCall with
  | true =>
      refine ⟨{o}, hattaches _ ?_, .inl rfl⟩
      simp only [Download.waiting, hfinished, hcalls]
      rfl
  | false =>
      refine ⟨0, hattaches _ ?_, .inr ⟨⟨d, hknown, hfinished, hcancelled, hcalls⟩, rfl⟩⟩
      simp [Download.waiting, hcalls]

theorem attaches_downloadImage (h : s.Control) (o : Nat) :
    ∃ gained, Attaches s (s.downloadImage (s.operations o).url o).1 o
        (s.downloadImage (s.operations o).url o).2 gained ∧
      (gained = {o} ∨ s.AttachesLate o ∧ gained = 0) := by
  unfold downloadImage
  cases hknown : s.urlOperations (s.operations o).url with
  | none => exact ⟨_, attaches_fresh h o, .inl rfl⟩
  | some d =>
      by_cases hdeaf : ((s.downloads d).isFinished || (s.downloads d).isCancelled) = true
      · simp only [if_pos hdeaf]
        exact ⟨_, attaches_fresh h o, .inl rfl⟩
      · simp only [if_neg hdeaf]
        rw [Bool.or_eq_true, not_or, Bool.not_eq_true, Bool.not_eq_true] at hdeaf
        exact attaches_shared h hknown hdeaf.1 hdeaf.2

theorem captured_callDownloadProcess_none (s : Loading Data Image) (o i : Nat) :
    ((s.callDownloadProcess o none).operations i).view =
        ((s.downloadImage (s.operations o).url o).1.operations i).view ∧
      ((s.callDownloadProcess o none).operations i).url =
        ((s.downloadImage (s.operations o).url o).1.operations i).url ∧
      ((s.callDownloadProcess o none).operations i).isCancelled =
        ((s.downloadImage (s.operations o).url o).1.operations i).isCancelled := by
  set mid := (s.downloadImage (s.operations o).url o).1
  change (Function.update mid.operations o _ i).view = _ ∧
    (Function.update mid.operations o _ i).url = _ ∧
    (Function.update mid.operations o _ i).isCancelled = _
  by_cases hi : i = o
  · subst hi
    rw [Function.update_self]
    exact ⟨rfl, rfl, rfl⟩
  · rw [Function.update_of_ne hi]
    exact ⟨rfl, rfl, rfl⟩

theorem Loading.Control.callDownloadProcess_none (h : s.Control) {o : Nat}
    (hlt : o < s.operationCount) (hfresh : o ∉ s.waiting) (hrunning : o ∈ s.runningOperations) :
    (s.callDownloadProcess o none).Control ∧
      (o ∈ (s.callDownloadProcess o none).waiting ∨ s.AttachesLate o) ∧
      ∀ i ∈ s.waiting, i ∈ (s.callDownloadProcess o none).waiting := by
  obtain ⟨gained, hattaches, hgained⟩ := attaches_downloadImage h o
  set mid := (s.downloadImage (s.operations o).url o).1
  set d := (s.downloadImage (s.operations o).url o).2
  have hoperations : mid.operations = s.operations := by rw [hattaches.rest]
  have hoperationCount : mid.operationCount = s.operationCount := by rw [hattaches.rest]
  have hrunningMid : mid.runningOperations = s.runningOperations := by rw [hattaches.rest]
  have hviews : mid.views = s.views := by rw [hattaches.rest]
  have hmid : mid.Control := {
    recorded := by
      rw [hviews, hoperationCount, hoperations]
      exact h.recorded
    running := by
      rw [hrunningMid, hviews, hoperations]
      exact h.running
    distinct := by
      rw [hattaches.waiting]
      rcases hgained with rfl | ⟨-, rfl⟩
      · rw [add_comm, Multiset.singleton_add]
        exact Multiset.nodup_cons.mpr ⟨hfresh, h.distinct⟩
      · rw [add_zero]
        exact h.distinct
    waits := fun i hi => by
      rw [hoperationCount, hoperations, hrunningMid]
      rw [hattaches.waiting] at hi
      rcases Multiset.mem_add.mp hi with hi | hi
      · exact h.waits i hi
      · rcases hgained with rfl | ⟨-, rfl⟩
        · obtain rfl := Multiset.mem_singleton.mp hi
          exact ⟨hlt, fun _ => hrunning⟩
        · exact absurd hi (Multiset.notMem_zero _)
    loader := fun i j hi => by
      rw [hoperations] at hi
      exact lt_of_lt_of_le (h.loader i j hi) hattaches.count
    known := hattaches.known
    unused := hattaches.unused
    finished := hattaches.finished
    handlers := fun i p hp => by
      rw [hoperationCount, hoperations]
      rcases hattaches.handlers i p hp with ⟨hold, hurl⟩ | ⟨rfl, hurl⟩
      · rw [hurl]
        exact h.handlers i p hold
      · exact ⟨hlt, hurl.symm⟩
    deaf := hattaches.deaf }
  have hcaptured := captured_callDownloadProcess_none s o
  have hwaiting : (s.callDownloadProcess o none).waiting = s.waiting + gained := hattaches.waiting
  refine ⟨?_, ?_, ?_⟩
  · exact { hmid with
      recorded := fun v i hi => by
        rw [(hcaptured i).1]
        exact hmid.recorded v i hi
      running := fun i hi => by
        rw [(hcaptured i).1, (hcaptured i).2.1, (hcaptured i).2.2]
        exact hmid.running i hi
      waits := fun i hi => by
        rw [(hcaptured i).2.2]
        exact hmid.waits i hi
      loader := fun i j hi => by
        by_cases hio : i = o
        · subst hio
          change (Function.update mid.operations i _ i).loaderOperation = some j at hi
          rw [Function.update_self] at hi
          obtain rfl := Option.some.inj hi
          exact hattaches.lt
        · change (Function.update mid.operations o _ i).loaderOperation = some j at hi
          rw [Function.update_of_ne hio] at hi
          exact hmid.loader i j hi
      handlers := fun i p hp => by
        rw [(hcaptured p).2.1]
        exact hmid.handlers i p hp }
  · rcases hgained with rfl | ⟨hlate, -⟩
    · left
      rw [hwaiting]
      exact Multiset.mem_add.mpr (.inr (Multiset.mem_singleton_self o))
    · exact .inr hlate
  · intro i hi
    rw [hwaiting]
    exact Multiset.mem_add.mpr (.inl hi)

/-! ## What a step can do -/

/-- Whatever has stopped running between `s` and `s'` has come to an end for its view. -/
structure Answers (s s' : Loading Data Image) (gone : Finset Nat) : Prop where
  failed : s.failed ⊆ s'.failed
  blocked : s'.failedURLs ⊆ s.failedURLs ∪ s'.failed
  image : ∀ v, (s.views v).image ≠ none → (s'.views v).image ≠ none
  gone : ∀ o ∈ gone, (s.operations o).isCancelled = false →
    (s'.views (s.operations o).view).image ≠ none ∨ (s.operations o).url ∈ s'.failed

/-! ## Completion blocks answer -/

theorem answers_of_eq (hviews : s'.views = s.views) (hfailed : s'.failed = s.failed)
    (hblocked : s'.failedURLs = s.failedURLs) {gone : Finset Nat}
    (hgone : ∀ o ∈ gone, (s.operations o).isCancelled = true) : Answers s s' gone where
  failed := by rw [hfailed]
  blocked := by
    rw [hblocked]
    exact Finset.subset_union_left
  image v := by
    rw [hviews]
    exact id
  gone o ho hcancelled := by
    rw [hgone o ho] at hcancelled
    cases hcancelled

theorem Answers.trans {mid : Loading Data Image} {gone gone' : Finset Nat}
    (h : Answers s mid gone) (h' : Answers mid s' gone')
    (hoperations : mid.operations = s.operations) : Answers s s' (gone ∪ gone') where
  failed := h.failed.trans h'.failed
  blocked := by
    intro url hurl
    rcases Finset.mem_union.mp (h'.blocked hurl) with hmid | hfailed
    · rcases Finset.mem_union.mp (h.blocked hmid) with hold | hfailed
      · exact Finset.mem_union_left _ hold
      · exact Finset.mem_union_right _ (h'.failed hfailed)
    · exact Finset.mem_union_right _ hfailed
  image v hv := h'.image v (h.image v hv)
  gone o ho hcancelled := by
    rcases Finset.mem_union.mp ho with ho | ho
    · rcases h.gone o ho hcancelled with himage | hfailed
      · exact .inl (h'.image _ himage)
      · exact .inr (h'.failed hfailed)
    · rw [← hoperations] at hcancelled ⊢
      exact h'.gone o ho hcancelled

theorem answers_callCompletionBlock (s : Loading Data Image) (o : Nat)
    (result : Except LoadError Image) :
    Answers s (s.callCompletionBlock o result) {o} := by
  cases result with
  | ok image =>
      refine ⟨subset_rfl, Finset.subset_union_left, ?_, ?_⟩
      · intro v hv
        by_cases hview : v = (s.operations o).view
        · subst hview
          simp [callCompletionBlock, updateView]
        · simpa [callCompletionBlock, updateView, Function.update_of_ne hview] using hv
      · intro i hi _
        obtain rfl := Finset.mem_singleton.mp hi
        left
        simp [callCompletionBlock, updateView]
  | error error =>
      by_cases hcancelled : (s.operations o).isCancelled = true
      · rw [callCompletionBlock, if_pos hcancelled]
        apply answers_of_eq rfl rfl rfl
        intro i hi
        rw [Finset.mem_singleton.mp hi]
        exact hcancelled
      · rw [callCompletionBlock, if_neg hcancelled]
        refine ⟨Finset.subset_insert _ _, Finset.subset_union_left, fun v => id, ?_⟩
        intro i hi _
        obtain rfl := Finset.mem_singleton.mp hi
        exact .inr (Finset.mem_insert_self _ _)

theorem Answers.with_running {gone running : Finset Nat} (h : Answers s s' gone) :
    Answers s { s' with runningOperations := running } gone :=
  ⟨h.failed, h.blocked, h.image, h.gone⟩

theorem answers_loaderCompleted (result : Except LoadError (Image × Data))
    (s : Loading Data Image) (o : Nat) : Answers s (s.loaderCompleted result o) {o} := by
  unfold loaderCompleted
  apply Answers.with_running
  by_cases hcancelled : (s.operations o).isCancelled = true
  · rw [if_pos hcancelled]
    exact answers_callCompletionBlock s o _
  · rw [if_neg hcancelled]
    match result with
    | .ok (image, data) =>
        have hcalled := answers_callCompletionBlock (dispatchIOQueue { s with
          memoryCache := Function.update s.memoryCache (s.operations o).url (some image) }
            (.store (s.operations o).url data)) o (.ok image)
        exact ⟨hcalled.failed, hcalled.blocked, hcalled.image, hcalled.gone⟩
    | .error error =>
        have hcalled : s.callCompletionBlock o (.error error) =
            { s with failed := insert (s.operations o).url s.failed } := if_neg hcancelled
        have hanswers := answers_callCompletionBlock s o (.error error)
        simp only [hcalled] at hanswers ⊢
        split
        · refine ⟨hanswers.failed, ?_, hanswers.image, hanswers.gone⟩
          intro url hurl
          rcases Finset.mem_insert.mp hurl with rfl | hurl
          · exact Finset.mem_union_right _ (Finset.mem_insert_self _ _)
          · exact Finset.mem_union_left _ hurl
        · exact hanswers

theorem answers_foldl_loaderCompleted (result : Except LoadError (Image × Data))
    (callbacks : List Nat) (s : Loading Data Image) :
    Answers s (callbacks.foldl (loaderCompleted result) s) callbacks.toFinset := by
  induction callbacks generalizing s with
  | nil => exact answers_of_eq rfl rfl rfl fun o ho => absurd ho (Finset.notMem_empty o)
  | cons o callbacks ih =>
      rw [List.toFinset_cons, Finset.insert_eq]
      exact (answers_loaderCompleted result s o).trans (ih _)
        (settles_loaderCompleted result s o).operations

/-- Operations stop running when they stop waiting, and not before their view is answered. -/
structure Ends (s s' : Loading Data Image) (gone : Finset Nat) (lost : Multiset Nat) : Prop where
  settles : Settles s s' gone lost
  ended : ∀ o, o ∈ gone ↔ o ∈ lost
  answers : Answers s s' gone

private theorem ends_silent {gone : Finset Nat} {lost : Multiset Nat}
    (hsettles : Settles s s' gone lost) (hover : ∀ o, o ∈ gone ↔ o ∈ lost)
    (hgone : ∀ o ∈ gone, (s.operations o).isCancelled = true)
    (hsilent : s'.views = s.views ∧ s'.failed = s.failed ∧ s'.failedURLs = s.failedURLs) :
    Ends s s' gone lost :=
  ⟨hsettles, hover, answers_of_eq hsilent.1 hsilent.2.1 hsilent.2.2 hgone⟩

/-- What a step does to the operations: some are over, or one goes on from the cache to a
download, or a view asks for an image, or a view forgets an operation that is over. -/
inductive Stepped (s : Loading Data Image) : LoadEvent Data → Loading Data Image → Prop
  | ends {e : LoadEvent Data} {s' : Loading Data Image} (gone : Finset Nat)
      (lost : Multiset Nat) (hends : Ends s s' gone lost) : Stepped s e s'
  | attaches (o : Nat) (rest : List (MainTask Data Image))
      (hqueue : s.mainQueue = .queried o none :: rest)
      (hcancelled : (s.operations o).isCancelled = false) :
      Stepped s .main ({ s with mainQueue := rest }.callDownloadProcess o none)
  | setImage (v : Nat) (url : Option URL) : Stepped s (.setImage v url) (s.setImage v url)
  | release (v o : Nat) (hrecorded : (s.views v).loadOperation = some o)
      (hidle : o ∉ s.runningOperations) :
      Stepped s (.release v) (s.updateView v { s.views v with loadOperation := none })

private theorem ends_popped {task : MainTask Data Image} {rest : List (MainTask Data Image)}
    (hqueue : s.mainQueue = task :: rest) {gone : Finset Nat}
    (hsettles : Settles { s with mainQueue := rest } s' gone 0)
    (hover : ∀ o, o ∈ gone ↔ o ∈ task.waiting)
    (hanswers : Answers { s with mainQueue := rest } s' gone) :
    Ends s s' gone task.waiting := by
  have hpopped := (settles_popMain hqueue).trans hsettles
  rw [Finset.empty_union, zero_add] at hpopped
  exact ⟨hpopped, hover, hanswers.failed, hanswers.blocked, hanswers.image, hanswers.gone⟩

theorem stepped_main (s : Loading Data Image) : Stepped s .main s.runMain := by
  cases hqueue : s.mainQueue with
  | nil =>
      simp only [runMain, hqueue]
      exact .ends ∅ 0 (ends_silent (settles_refl s) (by simp) (by simp) ⟨rfl, rfl, rfl⟩)
  | cons task rest =>
      simp only [runMain, hqueue]
      cases task with
      | completion o result =>
          have hanswers :=
            answers_callCompletionBlock { s with mainQueue := rest } o result
          refine .ends _ _ (ends_popped hqueue (settles_callCompletionBlock _ o result)
            (by simp [MainTask.waiting]) ?_)
          exact ⟨hanswers.failed, hanswers.blocked, hanswers.image,
            fun i hi => absurd hi (Finset.notMem_empty i)⟩
      | queried o image =>
          by_cases hcancelled : (s.operations o).isCancelled = true
          · simp only [perform, cacheCompleted, if_pos hcancelled]
            have hsettles := (settles_callCompletionBlock { s with mainQueue := rest } o
              (.error (.sdWebImage .cancelled))).trans
                (settles_safelyRemoveOperationFromRunning _ o)
            rw [Finset.empty_union, zero_add] at hsettles
            exact .ends _ _ (ends_popped hqueue hsettles (by simp [MainTask.waiting])
              (answers_callCompletionBlock _ o _).with_running)
          · simp only [perform, cacheCompleted, if_neg hcancelled]
            cases image with
            | some image =>
                exact .ends _ _ (ends_popped hqueue (settles_callDownloadProcess_some _ o image)
                  (by simp [MainTask.waiting]) (answers_callCompletionBlock _ o _).with_running)
            | none => exact .attaches o rest hqueue (by simpa using hcancelled)
      | downloaded callbacks result =>
          exact .ends _ _ (ends_popped hqueue (settles_foldl_loaderCompleted result callbacks _)
            (by simp [MainTask.waiting]) (answers_foldl_loaderCompleted result callbacks _))
      | notification | stored =>
          exact .ends _ _ (ends_popped hqueue (settles_refl _) (by simp [MainTask.waiting])
            (answers_of_eq rfl rfl rfl fun o ho => absurd ho (Finset.notMem_empty o)))

theorem stepped_of_step [Append Data] {coders : Coders Data Image} (h : s.Control)
    {e : LoadEvent Data}
    (hstep : (loadingMachine coders).step s e = .ok s') : Stepped s e s' := by
  have hends {e : LoadEvent Data} {s' : Loading Data Image} (hs : Settles s s' ∅ 0)
      (hsilent : s'.views = s.views ∧ s'.failed = s.failed ∧ s'.failedURLs = s.failedURLs) :
      Stepped s e s' := .ends ∅ 0 (ends_silent hs (by simp) (by simp) hsilent)
  cases e with
  | setImage v url =>
      cases hstep
      exact .setImage v url
  | main =>
      cases hstep
      exact stepped_main s
  | beginIOTask =>
      cases hstep
      have hsilent : s.beginIOTask.views = s.views ∧ s.beginIOTask.failed = s.failed ∧
          s.beginIOTask.failedURLs = s.failedURLs := by
        unfold beginIOTask
        split
        · exact ⟨rfl, rfl, rfl⟩
        · simp only
          split <;> exact ⟨rfl, rfl, rfl⟩
        · exact ⟨rfl, rfl, rfl⟩
      rcases settles_beginIOTask s with hs | ⟨o, hcancelled, hs⟩
      · exact hends hs hsilent
      · exact .ends {o} {o} (ends_silent hs (by simp) (by simpa using hcancelled) hsilent)
  | endIOTask =>
      cases hstep
      apply hends (settles_endIOTask coders s)
      unfold endIOTask
      split <;> exact ⟨rfl, rfl, rfl⟩
  | start d =>
      cases hstep
      apply hends (h.settles_start d)
      unfold start
      simp only
      split
      · split <;> exact ⟨rfl, rfl, rfl⟩
      · exact ⟨rfl, rfl, rfl⟩
  | didReceiveResponse d statusCode =>
      cases hstep
      apply hends (h.settles_didReceiveResponse d statusCode)
      unfold didReceiveResponse
      split <;> exact ⟨rfl, rfl, rfl⟩
  | didReceiveData d data =>
      cases hstep
      apply hends (h.settles_didReceiveData d data)
      unfold didReceiveData
      split <;> exact ⟨rfl, rfl, rfl⟩
  | didComplete d error =>
      cases hstep
      apply hends (h.settles_didComplete d error)
      unfold didComplete
      simp only
      split
      · split
        · exact ⟨rfl, rfl, rfl⟩
        · split
          · exact ⟨rfl, rfl, rfl⟩
          · split
            · exact ⟨rfl, rfl, rfl⟩
            · split <;> exact ⟨rfl, rfl, rfl⟩
      · exact ⟨rfl, rfl, rfl⟩
  | didDecode d =>
      cases hstep
      apply hends (h.settles_didDecode coders d)
      unfold didDecode
      simp only
      split <;> exact ⟨rfl, rfl, rfl⟩
  | done d =>
      cases hstep
      apply hends (h.settles_done d)
      unfold done
      simp only
      split <;> exact ⟨rfl, rfl, rfl⟩
  | completionBlock d =>
      cases hstep
      apply hends (settles_completionBlock s d)
      unfold completionBlock
      simp only
      split <;> exact ⟨rfl, rfl, rfl⟩
  | release v =>
      cases hstep
      unfold Loading.release
      cases hv : (s.views v).loadOperation with
      | none => exact hends (settles_refl s) ⟨rfl, rfl, rfl⟩
      | some o =>
          by_cases ho : o ∈ s.runningOperations
          · simp only [if_pos ho]
            exact hends (settles_refl s) ⟨rfl, rfl, rfl⟩
          · simp only [if_neg ho]
            exact .release v o hv ho
  | removeFromMemory url =>
      cases hstep
      exact hends { settles_refl s with } ⟨rfl, rfl, rfl⟩
  | removeFromDisk url =>
      cases hstep
      exact hends { settles_refl s with } ⟨rfl, rfl, rfl⟩

theorem Loading.Control.of_queried (h : s.Control) {o : Nat} {image : Option Image}
    {rest : List (MainTask Data Image)} (hqueue : s.mainQueue = .queried o image :: rest) :
    Loading.Control { s with mainQueue := rest } ∧ o < s.operationCount ∧
      o ∉ ({ s with mainQueue := rest } : Loading Data Image).waiting ∧
      ((s.operations o).isCancelled = false → o ∈ s.runningOperations) := by
  have hpopped := settles_popMain hqueue
  have hwaits := h.waits o (by
    rw [hpopped.waiting]
    exact Multiset.mem_add.mpr (.inr (Multiset.mem_singleton_self o)))
  exact ⟨h.of_settles hpopped, hwaits.1,
    h.not_waiting hpopped (Multiset.mem_singleton_self o), hwaits.2⟩

theorem Stepped.control {e : LoadEvent Data} (hstepped : Stepped s e s') (h : s.Control) :
    s'.Control := by
  cases hstepped with
  | ends gone lost hends =>
      exact h.settles hends.settles fun o ho => h.not_waiting hends.settles ((hends.ended o).mp ho)
  | attaches o rest hqueue hcancelled =>
      obtain ⟨hpopped, hlt, hfresh, hrunning⟩ := h.of_queried hqueue
      exact (hpopped.callDownloadProcess_none hlt hfresh (hrunning hcancelled)).1
  | setImage v url => exact h.setImage v url
  | release v o hrecorded hidle =>
      apply h.updateView
      · intro i hi hview
        have hi' := (h.running i hi).2.1
        rw [hview, hrecorded] at hi'
        obtain rfl := Option.some.inj hi'
        exact hidle hi
      · intro i hi
        cases hi

theorem Stepped.imageURL {e : LoadEvent Data} (hstepped : Stepped s e s') (h : s.Control)
    (he : e.isSetImage = false) (v : Nat) : (s'.views v).imageURL = (s.views v).imageURL := by
  cases hstepped with
  | ends gone lost hends => exact hends.settles.imageURL v
  | attaches o rest hqueue hcancelled =>
      obtain ⟨gained, hattaches, -⟩ := attaches_downloadImage (h.of_queried hqueue).1 o
      change (((({ s with mainQueue := rest } : Loading Data Image).downloadImage
        (s.operations o).url o).1).views v).imageURL = _
      rw [hattaches.rest]
  | setImage w url => cases he
  | release w o hrecorded hidle =>
      by_cases hv : v = w
      · subst hv
        simp [Loading.updateView]
      · simp [Loading.updateView, Function.update_of_ne hv]

theorem imageURL_setImage (h : s.Control) (v : Nat) (url : Option URL) (w : Nat) :
    ((s.setImage v url).views w).imageURL = if w = v then url else (s.views w).imageURL := by
  have hcancelled : ((s.cancelImageLoadOperation v).views w).imageURL =
      (s.views w).imageURL := by
    unfold Loading.cancelImageLoadOperation
    cases hv : (s.views v).loadOperation with
    | none => rfl
    | some o =>
        have hviews : (s.cancel o).views = s.views := by
          rw [(cancels_cancel h (h.loader o)).rest]
        by_cases hw : w = v
        · subst hw
          simp [Loading.updateView, hviews]
        · simp [Loading.updateView, Function.update_of_ne hw, hviews]
  have hemptied : ((s.emptied v url).views w).imageURL =
      if w = v then url else (s.views w).imageURL := by
    by_cases hw : w = v
    · subst hw
      simp [Loading.emptied, Loading.updateView]
    · rw [if_neg hw, ← hcancelled]
      simp [Loading.emptied, Loading.updateView, Function.update_of_ne hw]
  have hrecords (mid : Loading Data Image) (o : Nat) :
      ((mid.records v o).views w).imageURL = (mid.views w).imageURL := by
    by_cases hw : w = v
    · subst hw
      simp [Loading.records, Loading.updateView]
    · simp [Loading.records, Loading.updateView, Function.update_of_ne hw]
  cases url with
  | none => exact hemptied
  | some url =>
      rw [← hemptied]
      by_cases hrefused : url = "" ∨ url ∈ (s.emptied v (some url)).failedURLs
      · obtain ⟨error, hset⟩ := setImage_refused h hrefused
        rw [hset, hrecords, (settles_callCompletionBlock _ _ _).imageURL]
        rfl
      · cases hcached : (s.emptied v (some url)).memoryCache url with
        | some image =>
            rw [setImage_cached h hrefused hcached, hrecords,
              (settles_callCompletionBlock _ _ _).imageURL]
            rfl
        | none =>
            rw [setImage_queried h hrefused hcached, hrecords]
            rfl

theorem Loading.control_initial (diskCache : URL → Option Data) :
    (initial Data Image diskCache).Control where
  recorded v o ho := by cases ho
  running o ho := absurd ho (Finset.notMem_empty _)
  distinct := by simp [waiting, initial]
  waits o ho := by simp [waiting, initial] at ho
  loader o d ho := by cases ho
  known url d hknown := by cases hknown
  unused d _ := rfl
  finished d _ := rfl
  handlers d o ho := by cases ho
  deaf d _ := rfl

end BookShelf.SDWebImage
