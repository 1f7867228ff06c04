import BookShelf.SDWebImage.Steps

/-!
# A view shows the image of its URL

Where an image comes from: each cache, queue and download holds only what the disk held at launch
or a download has brought for that very URL. A view that shows an image shows one of the URL it was
given last, however many loads it has begun and abandoned before.
-/

namespace BookShelf.SDWebImage

open Loading

variable {Data Image : Type} {coders : Coders Data Image} {diskCache : URL → Option Data}
  {s s' : Loading Data Image}

/-- The disk cache had the data for the URL at launch, or a download has brought them since. -/
def Loading.Brought (s : Loading Data Image) (diskCache : URL → Option Data) (url : URL)
    (data : Data) : Prop :=
  diskCache url = some data ∨ (url, data) ∈ s.served

/-- The image is that of some data of the URL. -/
def Loading.Depicts (s : Loading Data Image) (coders : Coders Data Image)
    (diskCache : URL → Option Data) (url : URL) (image : Image) : Prop :=
  ∃ data, s.Brought diskCache url data ∧ coders.decode url data = some image

/-- What a task of the main queue brings is of the URL of each operation that it is for. -/
def Loading.Sourced (s : Loading Data Image) (coders : Coders Data Image)
    (diskCache : URL → Option Data) : MainTask Data Image → Prop
  | .completion _ result => ∃ error, result = .error error
  | .queried o image => ∀ found, image = some found →
      s.Depicts coders diskCache (s.operations o).url found
  | .downloaded callbacks result => ∀ o ∈ callbacks, ∀ image data, result = .ok (image, data) →
      s.Brought diskCache (s.operations o).url data ∧
        coders.decode (s.operations o).url data = some image
  | .notification | .stored => True

/-- Wherever an image or its data may be, they are of the URL they are kept for. -/
structure Loading.Sources (coders : Coders Data Image) (diskCache : URL → Option Data)
    (s : Loading Data Image) : Prop where
  memory : ∀ url image, s.memoryCache url = some image → s.Depicts coders diskCache url image
  disk : ∀ url data, s.diskCache url = some data → s.Brought diskCache url data
  stores : ∀ url data, .store url data ∈ s.ioQueue → s.Brought diskCache url data
  decoding : ∀ d data, (s.downloads d).stage = .decoding data →
    s.Brought diskCache (s.downloads d).url data
  main : ∀ task ∈ s.mainQueue, s.Sourced coders diskCache task
  shown : ∀ v image, (s.views v).image = some image →
    ∃ url, (s.views v).imageURL = some url ∧ s.Depicts coders diskCache url image

theorem Loading.Depicts.of_brought {url : URL} {image : Image}
    (h : s.Depicts coders diskCache url image)
    (hbrought : ∀ url data, s.Brought diskCache url data → s'.Brought diskCache url data) :
    s'.Depicts coders diskCache url image := by
  obtain ⟨data, hdata, hdecode⟩ := h
  exact ⟨data, hbrought url data hdata, hdecode⟩

/-- A task stays good as long as its operations keep their URLs and nothing brought is lost. -/
theorem Loading.Sourced.of_brought {task : MainTask Data Image}
    (h : s.Sourced coders diskCache task)
    (hurl : ∀ o ∈ task.waiting, (s'.operations o).url = (s.operations o).url)
    (hbrought : ∀ url data, s.Brought diskCache url data → s'.Brought diskCache url data) :
    s'.Sourced coders diskCache task := by
  cases task with
  | completion o result => exact h
  | queried o image =>
      intro found hfound
      rw [hurl o (Multiset.mem_singleton_self o)]
      exact (h found hfound).of_brought hbrought
  | downloaded callbacks result =>
      intro o ho image data hok
      obtain ⟨hdata, hdecode⟩ := h o ho image data hok
      rw [hurl o ho]
      exact ⟨hbrought _ _ hdata, hdecode⟩
  | notification => trivial
  | stored => trivial

/-- Unless it has been cancelled, the operation is of the URL that its view was given last. -/
def Loading.Live (s : Loading Data Image) (o : Nat) : Prop :=
  (s.operations o).isCancelled = false →
    (s.views (s.operations o).view).imageURL = some (s.operations o).url

theorem Loading.Control.live (h : s.Control) {o : Nat} (ho : o ∈ s.waiting) : s.Live o :=
  fun hcancelled => (h.running o ((h.waits o ho).2 hcancelled)).2.2

theorem Settles.live {gone : Finset Nat} {lost : Multiset Nat} (h : Settles s s' gone lost)
    {o : Nat} (hlive : s.Live o) : s'.Live o := by
  intro hcancelled
  rw [h.operations] at hcancelled
  rw [h.imageURL, h.operations]
  exact hlive hcancelled

/-! ## The completion blocks -/

theorem served_callCompletionBlock (s : Loading Data Image) (o : Nat)
    (result : Except LoadError Image) : (s.callCompletionBlock o result).served = s.served := by
  cases result with
  | ok image => rfl
  | error error =>
      rw [callCompletionBlock]
      split <;> rfl

theorem Loading.Sources.callCompletionBlock (h : s.Sources coders diskCache) {o : Nat}
    {result : Except LoadError Image} (hlive : ∀ image, result = .ok image →
      (s.views (s.operations o).view).imageURL = some (s.operations o).url ∧
        s.Depicts coders diskCache (s.operations o).url image) :
    (s.callCompletionBlock o result).Sources coders diskCache := by
  cases result with
  | ok image =>
      obtain ⟨hurl, hdepicts⟩ := hlive image rfl
      exact { h with
        shown := fun v shown hv => by
          by_cases hview : v = (s.operations o).view
          · subst hview
            simp only [Loading.callCompletionBlock, updateView, Function.update_self] at hv ⊢
            obtain rfl := Option.some.inj hv
            exact ⟨_, hurl, hdepicts⟩
          · simp only [Loading.callCompletionBlock, updateView, Function.update_of_ne hview] at hv ⊢
            exact h.shown v shown hv }
  | error error =>
      rw [Loading.callCompletionBlock]
      split
      · exact h
      · exact { h with }

theorem Loading.Sources.safelyRemove (h : s.Sources coders diskCache) (o : Nat) :
    (s.safelyRemoveOperationFromRunning o).Sources coders diskCache :=
  { h with }

theorem Loading.Sources.callStoreCacheProcess (h : s.Sources coders diskCache) {o : Nat}
    {image : Image} {data : Data}
    (hurl : (s.views (s.operations o).view).imageURL = some (s.operations o).url)
    (hbrought : s.Brought diskCache (s.operations o).url data)
    (hdecode : coders.decode (s.operations o).url data = some image) :
    (s.callStoreCacheProcess o image data).Sources coders diskCache := by
  have hstored : Loading.Sources coders diskCache (dispatchIOQueue { s with
      memoryCache := Function.update s.memoryCache (s.operations o).url (some image) }
        (.store (s.operations o).url data)) :=
    { h with
      memory := fun url other hmemory => by
        simp only [dispatchIOQueue] at hmemory
        by_cases hself : url = (s.operations o).url
        · subst hself
          rw [Function.update_self] at hmemory
          obtain rfl := Option.some.inj hmemory
          exact ⟨data, hbrought, hdecode⟩
        · rw [Function.update_of_ne hself] at hmemory
          exact h.memory url other hmemory
      stores := fun url other hstore => by
        rcases List.mem_append.mp hstore with hstore | hstore
        · exact h.stores url other hstore
        · cases List.mem_singleton.mp hstore
          exact hbrought }
  unfold Loading.callStoreCacheProcess
  refine hstored.callCompletionBlock ?_
  intro shown hshown
  cases hshown
  exact ⟨hurl, data, hbrought, hdecode⟩

theorem served_loaderCompleted (result : Except LoadError (Image × Data))
    (s : Loading Data Image) (o : Nat) : (s.loaderCompleted result o).served = s.served := by
  unfold loaderCompleted
  by_cases hcancelled : (s.operations o).isCancelled = true
  · rw [if_pos hcancelled]
    exact served_callCompletionBlock s o _
  · rw [if_neg hcancelled]
    match result with
    | .ok (image, data) => exact served_callCompletionBlock _ o _
    | .error error =>
        have hserved := served_callCompletionBlock s o (.error error)
        simp only
        split <;> exact hserved

theorem Loading.Sources.loaderCompleted (h : s.Sources coders diskCache) {o : Nat}
    (hlive : s.Live o) {result : Except LoadError (Image × Data)}
    (hresult : ∀ image data, result = .ok (image, data) →
      s.Brought diskCache (s.operations o).url data ∧
        coders.decode (s.operations o).url data = some image) :
    (s.loaderCompleted result o).Sources coders diskCache := by
  unfold Loading.loaderCompleted
  apply Loading.Sources.safelyRemove
  have hcalled (error : LoadError) :
      (s.callCompletionBlock o (.error error)).Sources coders diskCache :=
    h.callCompletionBlock fun image himage => by cases himage
  by_cases hcancelled : (s.operations o).isCancelled = true
  · rw [if_pos hcancelled]
    exact hcalled _
  · rw [if_neg hcancelled]
    match result with
    | .ok (image, data) =>
        obtain ⟨hbrought, hdecode⟩ := hresult image data rfl
        exact h.callStoreCacheProcess (hlive (by simpa using hcancelled)) hbrought hdecode
    | .error error =>
        simp only
        split
        · exact { hcalled error with }
        · exact hcalled error

theorem Loading.Sources.foldl_loaderCompleted {result : Except LoadError (Image × Data)}
    (callbacks : List Nat) (h : s.Sources coders diskCache)
    (hlive : ∀ o ∈ callbacks, s.Live o)
    (hresult : ∀ o ∈ callbacks, ∀ image data, result = .ok (image, data) →
      s.Brought diskCache (s.operations o).url data ∧
        coders.decode (s.operations o).url data = some image) :
    (callbacks.foldl (Loading.loaderCompleted result) s).Sources coders diskCache := by
  induction callbacks generalizing s with
  | nil => exact h
  | cons o callbacks ih =>
      have hsettles := settles_loaderCompleted result s o
      apply ih (h.loaderCompleted (hlive o List.mem_cons_self) (hresult o List.mem_cons_self))
      · exact fun i hi => hsettles.live (hlive i (List.mem_cons_of_mem o hi))
      · intro i hi image data hok
        rw [Loading.Brought, served_loaderCompleted, hsettles.operations]
        exact hresult i (List.mem_cons_of_mem o hi) image data hok

/-! ## The queues -/

theorem Loading.Sources.popMain (h : s.Sources coders diskCache) {task : MainTask Data Image}
    {rest : List (MainTask Data Image)} (hqueue : s.mainQueue = task :: rest) :
    Loading.Sources coders diskCache { s with mainQueue := rest } ∧
      s.Sourced coders diskCache task := by
  refine ⟨{ h with main := ?_ }, h.main task (by rw [hqueue]; exact List.mem_cons_self)⟩
  intro other hother
  exact h.main other (by rw [hqueue]; exact List.mem_cons_of_mem task hother)

theorem Loading.Sources.dispatchMain (h : s.Sources coders diskCache)
    (task : MainTask Data Image) (htask : s.Sourced coders diskCache task) :
    (s.dispatchMain task).Sources coders diskCache :=
  { h with
    main := fun other hother => by
      rcases List.mem_append.mp hother with hother | hother
      · exact h.main other hother
      · rw [List.mem_singleton.mp hother]
        exact htask }

theorem Loading.Sources.beginIOTask (h : s.Sources coders diskCache) :
    s.beginIOTask.Sources coders diskCache := by
  match hquerying : s.querying, hqueue : s.ioQueue with
  | none, .store url data :: rest =>
      simp only [Loading.beginIOTask, hquerying, hqueue]
      have hstored : Loading.Sources coders diskCache { s with
          ioQueue := rest
          querying := none
          diskCache := Function.update s.diskCache url (some data) } :=
        { h with
          disk := fun other held hdisk => by
            by_cases hself : other = url
            · subst hself
              simp only [Function.update_self] at hdisk
              obtain rfl := Option.some.inj hdisk
              exact h.stores other data (by rw [hqueue]; exact List.mem_cons_self)
            · simp only [Function.update_of_ne hself] at hdisk
              exact h.disk other held hdisk
          stores := fun other held hstore =>
            h.stores other held (by rw [hqueue]; exact List.mem_cons_of_mem _ hstore) }
      exact hstored.dispatchMain .stored trivial
  | none, .query o :: rest =>
      have hpopped : Loading.Sources coders diskCache
          { s with ioQueue := rest, querying := none } :=
        { h with
          stores := fun other held hstore =>
            h.stores other held (by rw [hqueue]; exact List.mem_cons_of_mem _ hstore) }
      simp only [Loading.beginIOTask, hquerying, hqueue]
      split
      · exact (hpopped.dispatchMain (.completion o _) ⟨_, rfl⟩).safelyRemove o
      · exact { hpopped with }
  | some o, _ => simpa only [Loading.beginIOTask, hquerying] using h
  | none, [] => simpa only [Loading.beginIOTask, hquerying, hqueue] using h

theorem Loading.Sources.endIOTask (h : s.Sources coders diskCache) :
    (s.endIOTask coders).Sources coders diskCache := by
  cases hquerying : s.querying with
  | none => simpa only [Loading.endIOTask, hquerying] using h
  | some o =>
      have hfound (image : Image)
          (himage : (s.diskCache (s.operations o).url).bind
            (coders.decode (s.operations o).url) = some image) :
          s.Depicts coders diskCache (s.operations o).url image := by
        obtain ⟨data, hdata, hdecode⟩ := Option.bind_eq_some_iff.mp himage
        exact ⟨data, h.disk _ _ hdata, hdecode⟩
      simp only [Loading.endIOTask, hquerying]
      cases himage : (s.diskCache (s.operations o).url).bind
          (coders.decode (s.operations o).url) with
      | none =>
          have hread : Loading.Sources coders diskCache { s with querying := none } := { h with }
          exact hread.dispatchMain (.queried o none) fun found hsome => by cases hsome
      | some image =>
          have hread : Loading.Sources coders diskCache { s with
              querying := none
              memoryCache := Function.update s.memoryCache (s.operations o).url (some image) } :=
            { h with
              memory := fun url other hmemory => by
                by_cases hself : url = (s.operations o).url
                · subst hself
                  simp only [Function.update_self] at hmemory
                  obtain rfl := Option.some.inj hmemory
                  exact hfound image himage
                · simp only [Function.update_of_ne hself] at hmemory
                  exact h.memory url other hmemory }
          refine hread.dispatchMain (.queried o (some image)) ?_
          intro found hsome
          obtain rfl := Option.some.inj hsome
          exact hfound image himage

/-! ## The downloads -/

theorem Loading.Sources.updateDownload (h : s.Sources coders diskCache) (d : Nat)
    {download : Download Data} (hdecoding : ∀ data, download.stage = .decoding data →
      s.Brought diskCache download.url data) :
    (s.updateDownload d download).Sources coders diskCache :=
  { h with
    decoding := fun i data hstage => by
      by_cases hi : i = d
      · subst hi
        simp only [Loading.updateDownload, Function.update_self] at hstage ⊢
        exact hdecoding data hstage
      · simp only [Loading.updateDownload, Function.update_of_ne hi] at hstage ⊢
        exact h.decoding i data hstage }

theorem Loading.Sources.callCompletionBlocks (h : s.Sources coders diskCache)
    (hcontrol : s.Control) (d : Nat) {result : Except LoadError (Image × Data)}
    (hresult : ∀ image data, result = .ok (image, data) →
      s.Brought diskCache (s.downloads d).url data ∧
        coders.decode (s.downloads d).url data = some image) :
    (s.callCompletionBlocks d result).Sources coders diskCache := by
  refine h.dispatchMain (.downloaded _ result) ?_
  intro o ho image data hok
  rw [(hcontrol.handlers d o ho).2]
  exact hresult image data hok

theorem Loading.Sources.start (h : s.Sources coders diskCache) (hcontrol : s.Control) (d : Nat) :
    (s.start d).Sources coders diskCache := by
  cases hstage : (s.downloads d).stage
  case queued =>
    simp only [Loading.start, hstage]
    split
    · apply (h.callCompletionBlocks hcontrol d ?_).updateDownload
      · intro data hover
        cases hover
      · intro image data hok
        cases hok
    · suffices hloading : (s.updateDownload d
          { s.downloads d with stage := .loading }).Sources coders diskCache from
        hloading.dispatchMain .notification trivial
      apply h.updateDownload
      intro data hloading
      cases hloading
  all_goals simpa only [Loading.start, hstage] using h

theorem Loading.Sources.serve (h : s.Sources coders diskCache) (url : URL) (data : Data) :
    Loading.Sources coders diskCache { s with served := s.served ++ [(url, data)] } := by
  have hbrought (other : URL) (held : Data) (hheld : s.Brought diskCache other held) :
      Loading.Brought { s with served := s.served ++ [(url, data)] } diskCache other held :=
    hheld.imp_right fun hmem => List.mem_append_left _ hmem
  exact {
    memory := fun other image himage => (h.memory other image himage).of_brought hbrought
    disk := fun other held hheld => hbrought other held (h.disk other held hheld)
    stores := fun other held hheld => hbrought other held (h.stores other held hheld)
    decoding := fun d held hheld => hbrought _ held (h.decoding d held hheld)
    main := fun task htask => (h.main task htask).of_brought (fun _ _ => rfl) hbrought
    shown := fun v image hv => by
      obtain ⟨other, hurl, himage⟩ := h.shown v image hv
      exact ⟨other, hurl, himage.of_brought hbrought⟩ }

theorem Loading.Sources.didReceiveResponse (h : s.Sources coders diskCache) (d statusCode : Nat) :
    (s.didReceiveResponse d statusCode).Sources coders diskCache := by
  unfold Loading.didReceiveResponse
  split
  · apply Loading.Sources.dispatchMain
    · exact h.updateDownload d (h.decoding d)
    · trivial
  · exact h

theorem Loading.Sources.didReceiveData [Append Data] (h : s.Sources coders diskCache) (d : Nat)
    (data : Data) : (s.didReceiveData d data).Sources coders diskCache := by
  unfold Loading.didReceiveData
  split
  · exact h.updateDownload d (h.decoding d)
  · exact h

theorem Loading.Sources.didComplete (h : s.Sources coders diskCache) (hcontrol : s.Control)
    (d : Nat) (error : Option LoadError) :
    (s.didComplete d error).Sources coders diskCache := by
  cases hstage : (s.downloads d).stage
  case loading =>
    set mid := s.dispatchMain .notification with hmid
    have hnotified : mid.Sources coders diskCache := h.dispatchMain .notification trivial
    have hcontrol' : mid.Control :=
      hcontrol.of_settles ((settles_refl s).dispatchMain rfl)
    have hreport (error : LoadError) (imageData : Option Data) :
        ((mid.callCompletionBlocks d (.error error)).updateDownload d { s.downloads d with
          stage := .reporting, imageData := imageData }).Sources coders diskCache := by
      apply (hnotified.callCompletionBlocks hcontrol' d ?_).updateDownload
      · intro data hreporting
        cases hreporting
      · intro image data hok
        cases hok
    simp only [Loading.didComplete, hstage, ← hmid]
    split
    · apply h.updateDownload
      intro data hover
      cases hover
    · cases error with
      | some error => exact hreport _ _
      | none =>
          simp only
          split
          · apply hnotified.updateDownload
            intro data hreporting
            cases hreporting
          · cases (s.downloads d).imageData with
            | none => exact hreport _ _
            | some data =>
                apply (hnotified.serve (s.downloads d).url data).updateDownload
                intro held hdecoding
                cases hdecoding
                exact .inr (List.mem_append_right _ (List.mem_singleton_self _))
  all_goals simpa only [Loading.didComplete, hstage] using h

theorem Loading.Sources.didDecode (h : s.Sources coders diskCache) (hcontrol : s.Control)
    (d : Nat) : (s.didDecode coders d).Sources coders diskCache := by
  cases hstage : (s.downloads d).stage
  case decoding data =>
    simp only [Loading.didDecode, hstage]
    apply (h.callCompletionBlocks hcontrol d ?_).updateDownload
    · intro held hreporting
      cases hreporting
    · intro image held hok
      cases hdecode : coders.decode (s.downloads d).url data with
      | none => simp [hdecode] at hok
      | some found =>
          by_cases hempty : coders.isEmpty found = true
          · simp [hdecode, hempty] at hok
          · simp only [hdecode, if_neg hempty] at hok
            cases hok
            exact ⟨h.decoding d data hstage, hdecode⟩
  all_goals simpa only [Loading.didDecode, hstage] using h

theorem Loading.Sources.done (h : s.Sources coders diskCache) (d : Nat) :
    (s.done d).Sources coders diskCache := by
  cases hstage : (s.downloads d).stage
  case reporting =>
    simp only [Loading.done, hstage]
    apply h.updateDownload
    intro data hover
    cases hover
  all_goals simpa only [Loading.done, hstage] using h

theorem Loading.Sources.completionBlock (h : s.Sources coders diskCache) (d : Nat) :
    (s.completionBlock d).Sources coders diskCache := by
  unfold Loading.completionBlock
  simp only
  split
  · have hforgotten : Loading.Sources coders diskCache { s with
        urlOperations := Function.update s.urlOperations (s.downloads d).url none } := { h with }
    exact hforgotten.updateDownload d (h.decoding d)
  · exact h

/-! ## The main thread -/

theorem Loading.Sources.callDownloadProcess_none (h : s.Sources coders diskCache)
    (hcontrol : s.Control) (o : Nat) :
    (s.callDownloadProcess o none).Sources coders diskCache := by
  obtain ⟨gained, hattaches, -⟩ := attaches_downloadImage hcontrol o
  set mid := (s.downloadImage (s.operations o).url o).1
  have hmid : mid.Sources coders diskCache := by
    have hdecoding := hattaches.decoding
    rw [hattaches.rest]
    exact { h with
      decoding := fun d data hstage => by
        obtain ⟨hold, hurl⟩ := hdecoding d data hstage
        simp only at hurl ⊢
        rw [hurl]
        exact h.decoding d data hold }
  have hurl (i : Nat) : ((s.callDownloadProcess o none).operations i).url =
      (mid.operations i).url := (captured_callDownloadProcess_none s o i).2.1
  exact { hmid with
    main := fun task htask =>
      (hmid.main task htask).of_brought (fun i _ => hurl i) (fun _ _ => id) }

theorem Loading.Sources.runMain (h : s.Sources coders diskCache) (hcontrol : s.Control) :
    s.runMain.Sources coders diskCache := by
  cases hqueue : s.mainQueue with
  | nil => simpa only [Loading.runMain, hqueue] using h
  | cons task rest =>
      obtain ⟨hpopped, hsourced⟩ := h.popMain hqueue
      have hsettles := settles_popMain hqueue
      have hlive {o : Nat} (ho : o ∈ task.waiting) :
          Loading.Live { s with mainQueue := rest } o :=
        hcontrol.live (by rw [hsettles.waiting]; exact Multiset.mem_add.mpr (.inr ho))
      simp only [Loading.runMain, hqueue]
      cases task with
      | completion o result =>
          obtain ⟨error, rfl⟩ := hsourced
          simp only [perform]
          refine hpopped.callCompletionBlock ?_
          intro image hok
          cases hok
      | queried o image =>
          simp only [perform, cacheCompleted]
          split
          · apply Loading.Sources.safelyRemove
            refine hpopped.callCompletionBlock ?_
            intro image hok
            cases hok
          · rename_i hcancelled
            cases image with
            | none => exact hpopped.callDownloadProcess_none (hcontrol.of_settles hsettles) o
            | some image =>
                apply Loading.Sources.safelyRemove
                apply hpopped.callCompletionBlock
                intro found hok
                cases hok
                exact ⟨hlive (Multiset.mem_singleton_self o) (by simpa using hcancelled),
                  hsourced image rfl⟩
      | downloaded callbacks result =>
          exact hpopped.foldl_loaderCompleted callbacks (fun o ho => hlive ho) hsourced
      | notification => exact hpopped
      | stored => exact hpopped

/-! ## The views -/

theorem Loading.Sources.updateView (h : s.Sources coders diskCache) {v : Nat}
    {view : ImageView Image} (hview : ∀ image, view.image = some image →
      ∃ url, view.imageURL = some url ∧ s.Depicts coders diskCache url image) :
    (s.updateView v view).Sources coders diskCache :=
  { h with
    shown := fun w image hw => by
      by_cases hwv : w = v
      · subst hwv
        simp only [Loading.updateView, Function.update_self] at hw ⊢
        exact hview image hw
      · simp only [Loading.updateView, Function.update_of_ne hwv] at hw ⊢
        exact h.shown w image hw }

theorem Loading.Sources.cancels (h : s.Sources coders diskCache) {o : Nat}
    (hcancels : Cancels s s' o) : s'.Sources coders diskCache := by
  have hurl (i : Nat) := (hcancels.captured i).2
  have hdownloads := hcancels.downloads
  have hnotifies := hcancels.mainQueue
  rw [hcancels.rest] at hurl hdownloads ⊢
  exact { h with
    decoding := fun d data hstage => by
      rw [(hdownloads d).2.2] at hstage
      rw [(hdownloads d).1]
      exact h.decoding d data hstage
    main := fun task htask => by
      rcases hnotifies.mem htask with hmem | rfl
      · exact (h.main task hmem).of_brought (fun i _ => hurl i) (fun _ _ => id)
      · trivial }

theorem Loading.Sources.emptied (h : s.Sources coders diskCache) (hcontrol : s.Control) (v : Nat)
    (url : Option URL) : (s.emptied v url).Sources coders diskCache := by
  have hcancelled : (s.cancelImageLoadOperation v).Sources coders diskCache := by
    unfold Loading.cancelImageLoadOperation
    cases hv : (s.views v).loadOperation with
    | none => exact h
    | some o =>
        have hsources := h.cancels (cancels_cancel hcontrol (hcontrol.loader o))
        exact hsources.updateView (hsources.shown v)
  apply hcancelled.updateView
  intro image himage
  cases himage

theorem Loading.Sources.begun (h : s.Sources coders diskCache) (hcontrol : s.Control) (v : Nat)
    (url : URL) : (s.begun v url).Sources coders diskCache := by
  have hold {task : MainTask Data Image} (htask : task ∈ s.mainQueue) {o : Nat}
      (ho : o ∈ task.waiting) : (s.begun v url).operations o = s.operations o := by
    exact begun_operation_of_lt (hcontrol.waits o (Loading.mem_waiting_of_main htask ho)).1
  exact { h with
    main := fun task htask => (h.main task htask).of_brought
      (fun o ho => congrArg CombinedOperation.url (hold htask ho)) (fun _ _ => id) }

theorem Loading.Sources.setImage (h : s.Sources coders diskCache) (hcontrol : s.Control) (v : Nat)
    (url : Option URL) : (s.setImage v url).Sources coders diskCache := by
  cases url with
  | none => exact h.emptied hcontrol v none
  | some url =>
      have hemptied := h.emptied hcontrol v (some url)
      have hbegun := hemptied.begun (hcontrol.emptied v (some url)).1 v url
      have hurl : ((s.emptied v (some url)).views v).imageURL = some url := by
        simp [Loading.emptied, Loading.updateView]
      by_cases hrefused : url = "" ∨ url ∈ (s.emptied v (some url)).failedURLs
      · obtain ⟨error, hset⟩ := setImage_refused hcontrol hrefused
        rw [hset]
        have hcalled : (((s.emptied v (some url)).begun v url).callCompletionBlock
            (s.emptied v (some url)).operationCount (.error error)).Sources coders diskCache := by
          refine hbegun.callCompletionBlock ?_
          intro image hok
          cases hok
        exact hcalled.updateView (hcalled.shown v)
      · cases hcached : (s.emptied v (some url)).memoryCache url with
        | some image =>
            rw [setImage_cached hcontrol hrefused hcached]
            have hcalled : (((s.emptied v (some url)).begun v url).callCompletionBlock
                (s.emptied v (some url)).operationCount (.ok image)).Sources coders diskCache := by
              refine hbegun.callCompletionBlock ?_
              intro found hok
              cases hok
              rw [begun_operation]
              exact ⟨hurl, hemptied.memory url image hcached⟩
            exact hcalled.updateView (hcalled.shown v)
        | none =>
            rw [setImage_queried hcontrol hrefused hcached]
            have hqueried : Loading.Sources coders diskCache
                (dispatchIOQueue { (s.emptied v (some url)).begun v url with
                  runningOperations := insert (s.emptied v (some url)).operationCount
                    (s.emptied v (some url)).runningOperations }
                  (.query (s.emptied v (some url)).operationCount)) :=
              { hbegun with
                stores := fun other data hstore => by
                  rcases List.mem_append.mp hstore with hstore | hstore
                  · exact hbegun.stores other data hstore
                  · cases List.mem_singleton.mp hstore }
            exact hqueried.updateView (hqueried.shown v)

/-! ## Every run -/

theorem Loading.Sources.step [Append Data] (h : s.Sources coders diskCache) (hcontrol : s.Control)
    {e : LoadEvent Data} (hstep : (loadingMachine coders).step s e = .ok s') :
    s'.Sources coders diskCache := by
  cases e with
  | setImage v url =>
      cases hstep
      exact h.setImage hcontrol v url
  | main =>
      cases hstep
      exact h.runMain hcontrol
  | beginIOTask =>
      cases hstep
      exact h.beginIOTask
  | endIOTask =>
      cases hstep
      exact h.endIOTask
  | start d =>
      cases hstep
      exact h.start hcontrol d
  | didReceiveResponse d statusCode =>
      cases hstep
      exact h.didReceiveResponse d statusCode
  | didReceiveData d data =>
      cases hstep
      exact h.didReceiveData d data
  | didComplete d error =>
      cases hstep
      exact h.didComplete hcontrol d error
  | didDecode d =>
      cases hstep
      exact h.didDecode hcontrol d
  | done d =>
      cases hstep
      exact h.done d
  | completionBlock d =>
      cases hstep
      exact h.completionBlock d
  | release v =>
      cases hstep
      unfold Loading.release
      split
      · exact h
      · split
        · exact h
        · exact h.updateView (h.shown v)
  | removeFromMemory url =>
      cases hstep
      exact { h with
        memory := fun other image hmemory => by
          by_cases hself : other = url
          · subst hself
            simp at hmemory
          · simp only [Function.update_of_ne hself] at hmemory
            exact h.memory other image hmemory }
  | removeFromDisk url =>
      cases hstep
      exact { h with
        disk := fun other data hdisk => by
          by_cases hself : other = url
          · subst hself
            simp at hdisk
          · simp only [Function.update_of_ne hself] at hdisk
            exact h.disk other data hdisk }

theorem Loading.sources_initial (coders : Coders Data Image) (diskCache : URL → Option Data) :
    (initial Data Image diskCache).Sources coders diskCache where
  memory url image himage := by cases himage
  disk url data hdata := .inl hdata
  stores url data hstore := absurd hstore List.not_mem_nil
  decoding d data hstage := by cases hstage
  main task htask := absurd htask List.not_mem_nil
  shown v image himage := by cases himage

theorem sources_of_run [Append Data] {es : List (LoadEvent Data)}
    (hrun : (loadingMachine coders).run (initial Data Image diskCache) es = .ok s) :
    s.Control ∧ s.Sources coders diskCache := by
  refine Machine.run_induction
    (P := fun s => s.Control ∧ Loading.Sources coders diskCache s) ?_
    ⟨control_initial diskCache, sources_initial coders diskCache⟩ hrun
  intro s e s' ⟨hcontrol, hsources⟩ hstep
  exact ⟨(stepped_of_step hcontrol hstep).control hcontrol, hsources.step hcontrol hstep⟩

/-- A view never shows an image of a URL that it was given before its last one. -/
theorem views_show_their_own_image [Append Data] {es : List (LoadEvent Data)}
    (hrun : (loadingMachine coders).run (initial Data Image diskCache) es = .ok s) (v : Nat)
    (image : Image) (hshown : (s.views v).image = some image) :
    ∃ url data, (s.views v).imageURL = some url ∧
      (diskCache url = some data ∨ (url, data) ∈ s.served) ∧
      coders.decode url data = some image := by
  obtain ⟨url, hurl, data, hbrought, hdecode⟩ := (sources_of_run hrun).2.shown v image hshown
  exact ⟨url, data, hurl, hbrought, hdecode⟩

/-- An image is the sum of its data. -/
def plainCoders : Coders (List Nat) Nat where
  decode := fun _ data => some data.sum
  isEmpty := fun image => image == 0

/-- A recycled view: the first download ends when the view has been given the next URL, which is
on the disk. -/
def recycledView : List (LoadEvent (List Nat)) :=
  [.setImage 0 (some "a"), .beginIOTask, .endIOTask, .main, .start 0, .main,
    .didReceiveResponse 0 200, .didReceiveData 0 [3], .didReceiveData 0 [4], .didComplete 0 none,
    .didDecode 0, .setImage 0 (some "b"), .beginIOTask, .main, .main, .done 0, .endIOTask, .main,
    .main, .main]

theorem views_show_their_own_image_recycled :
    ∃ s, (loadingMachine plainCoders).run (initial (List Nat) Nat
        (fun url => if url = "b" then some [8] else none)) recycledView = .ok s ∧
      (s.views 0).image = some 8 ∧ ∃ url data, (s.views 0).imageURL = some url ∧
        ((if url = "b" then some [8] else none) = some data ∨ (url, data) ∈ s.served) ∧
        plainCoders.decode url data = some 8 := by
  obtain ⟨s, hrun, hp⟩ := Machine.exists_of_any (loadingMachine plainCoders)
    (initial (List Nat) Nat (fun url => if url = "b" then some [8] else none)) recycledView
    (fun s => decide ((s.views 0).image = some 8)) (by decide)
  have hshown : (s.views 0).image = some 8 := of_decide_eq_true hp
  exact ⟨s, hrun, hshown, views_show_their_own_image hrun 0 8 hshown⟩

end BookShelf.SDWebImage
