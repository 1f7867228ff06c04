import BookShelf.Publish.Images

/-!
# Objects without a document

A stored object is never deleted. Once no upload is pending, the object of an attempt is referred
to by one document, or by none if a stage after the upload has failed.
-/

namespace BookShelf

/-- The server refuses the download URL or the document of an attempt whose object is stored. -/
def FailsAfterUpload (attempt : Attempt) (s : App) (e : Event) : Prop :=
  ∃ k r, e = .fail k ∧ s.requests[k]? = some ⟨r, none⟩ ∧
    (r = .downloadURL attempt ∨ ∃ data, r = .addDocument attempt data)

def FailedIn (P : Platform) (persisted : Option String) (events : List Event)
    (attempt : Attempt) : Prop :=
  (appMachine P).Passes (FailsAfterUpload attempt) (.launch persisted) events

/-- The number of documents whose image field holds the URL of the object. -/
def App.references (P : Platform) (s : App) (reference : StorageReference) : Nat :=
  if reference.folder = "media" then
    (s.collection "Post").countP fun added =>
      added.document.get "imageUrl" = some (.string (P.downloadURL reference))
  else
    (s.collection "Users").countP fun added =>
      added.document.get "profileImageURL" = some (.string (P.downloadURL reference))

/-- The object of the attempt is stored, and its document may still be added. -/
def Pursued (s : App) (attempt : Attempt) : Prop :=
  ∃ x ∈ s.requests, Uploaded x attempt ∧ owes x = some attempt

def Documented (s : App) (attempt : Attempt) : Prop :=
  ∃ added ∈ s.documents, added.attempt = attempt

/-- Nothing of the attempt is left but its failure. -/
structure Dead (s : App) (attempt : Attempt) : Prop where
  drawn : attempt.imageReference.uuid ∈ s.uuids
  documents : ∀ added ∈ s.documents,
    added.attempt.imageReference.uuid ≠ attempt.imageReference.uuid
  requests : ∀ x ∈ s.requests, x.request.uuid = some attempt.imageReference.uuid →
    x.answer = some false

variable {P : Platform} {s s' : App} {e : Event}

private theorem documented_of_step (hstep : PublishStep P s e s') {attempt : Attempt}
    (h : Documented s attempt) : Documented s' attempt := by
  obtain ⟨added, hadded, hattempt⟩ := h
  rcases hstep.documents_cases with hdocuments | ⟨new, -, hdocuments, -, -⟩
  · exact ⟨added, hdocuments ▸ hadded, hattempt⟩
  · refine ⟨added, ?_, hattempt⟩
    rw [hdocuments]
    exact List.mem_append_left _ hadded

private theorem pursued_of_mem {x : Pending Request} {attempt : Attempt} (hx : x ∈ s.requests)
    (h : (x.request = .putData attempt ∧ x.answer = some true) ∨
      (x.request = .downloadURL attempt ∧ x.answer ≠ some false) ∨
      (∃ data, x.request = .addDocument attempt data) ∧ x.answer = none) : Pursued s attempt := by
  obtain ⟨r, answer⟩ := x
  refine ⟨_, hx, ?_⟩
  rcases h with ⟨rfl, rfl⟩ | ⟨rfl, hanswer⟩ | ⟨⟨data, rfl⟩, rfl⟩
  · exact ⟨.inl rfl, by simp [owes]⟩
  · exact ⟨.inr (.inl rfl), by simpa [owes] using hanswer⟩
  · exact ⟨.inr (.inr ⟨data, rfl⟩), by simp [owes]⟩

private theorem mem_of_delivery {r : Request} {ok : Bool} (h : Delivery P s r ok s')
    {x : Pending Request} (hx : x ∈ s.requests) : x ∈ s'.requests := by
  cases h with
  | created tap => exact Pending.mem_post.mpr (.inl hx)
  | uploaded attempt => exact Pending.mem_post.mpr (.inl hx)
  | gotURL attempt email huser => exact Pending.mem_post.mpr (.inl hx)
  | _ => exact hx

private theorem unanswered_of_uploaded {r : Request} {attempt : Attempt}
    (h : Uploaded ⟨r, none⟩ attempt) :
    r = .downloadURL attempt ∨ ∃ data, r = .addDocument attempt data := by
  rcases h with heq | hr | hr
  · cases heq
  · exact .inl hr
  · exact .inr hr

private theorem pursued_of_accept {k : Nat} {r : Request} {stamp : Stamp} {attempt : Attempt}
    (hk : s.requests[k]? = some ⟨r, none⟩) (h : Pursued s attempt) :
    Pursued (s.accept k r stamp) attempt ∨ Documented (s.accept k r stamp) attempt := by
  obtain ⟨x, hx, huploaded, howes⟩ := h
  have hsettled (hrequests : (s.accept k r stamp).requests = Pending.settle s.requests k r true)
      (hother : x ≠ ⟨r, none⟩) : Pursued (s.accept k r stamp) attempt := by
    refine ⟨x, ?_, huploaded, howes⟩
    rw [hrequests]
    exact (Pending.mem_settle_or hk hx r true).resolve_left hother
  by_cases hanswered : x = ⟨r, none⟩
  · subst hanswered
    rcases unanswered_of_uploaded huploaded with rfl | ⟨data, rfl⟩
    · refine .inl (pursued_of_mem (x := ⟨.downloadURL attempt, some true⟩) ?_
        (.inr (.inl ⟨rfl, by simp⟩)))
      exact List.mem_of_getElem? (Pending.getElem?_settle hk _ true)
    · rcases s.accept_addDocument_cases k attempt data stamp with h | ⟨-, h⟩ <;> rw [h]
      · exact .inl ⟨_, hx, huploaded, howes⟩
      · exact .inr ⟨_, List.mem_append_right _ (List.mem_singleton_self _), rfl⟩
  · left
    cases r with
    | addDocument other data =>
        rcases s.accept_addDocument_cases k other data stamp with h | ⟨-, h⟩
        · rw [h]
          exact ⟨x, hx, huploaded, howes⟩
        · exact hsettled (by rw [h]) hanswered
    | _ => exact hsettled rfl hanswered

private theorem pursued_of_delivery {r : Request} {ok : Bool} {attempt : Attempt}
    (howes : owes ⟨r, some ok⟩ = some attempt) (h : Delivery P s r ok s') : Pursued s' attempt := by
  rcases owes_eq_some.mp howes with ⟨hok, hr⟩ | ⟨hnone, -⟩
  · obtain rfl : ok = true := by simpa using hok
    have hnew (next : Request) : ⟨next, none⟩ ∈ Pending.post s.requests next :=
      Pending.mem_post.mpr (.inr rfl)
    rcases hr with hr | hr
    · obtain rfl : r = .putData attempt := hr
      cases h
      exact pursued_of_mem (hnew (.downloadURL attempt)) (.inr (.inl ⟨rfl, by simp⟩))
    · obtain rfl : r = .downloadURL attempt := hr
      cases h
      exact pursued_of_mem (hnew (.addDocument attempt _)) (.inr (.inr ⟨⟨_, rfl⟩, rfl⟩))
  · cases hnone

theorem pursued_of_effect {attempt : Attempt} (h : Pursued s attempt)
    (heffect : Effect P s e s') :
    Pursued s' attempt ∨ Documented s' attempt ∨ FailsAfterUpload attempt s e := by
  obtain ⟨x, hx, huploaded, howes⟩ := h
  have hkept (hx : x ∈ s'.requests) : Pursued s' attempt := ⟨x, hx, huploaded, howes⟩
  cases heffect with
  | login self htop hkind => exact .inl (hkept (Pending.mem_post.mpr (.inl hx)))
  | signUp self htop hkind => exact .inl (hkept (Pending.mem_post.mpr (.inl hx)))
  | upload e attempt hstarts => exact .inl (hkept (Pending.mem_post.mpr (.inl hx)))
  | accept k r stamp hk =>
      have hpursued : Pursued s attempt := ⟨x, hx, huploaded, howes⟩
      exact (pursued_of_accept hk hpursued).imp_right .inl
  | reject k r hk =>
      rcases Pending.mem_settle_or hk hx r false with rfl | hx
      · exact .inr (.inr ⟨k, r, rfl, hk, unanswered_of_uploaded huploaded⟩)
      · exact .inl (hkept hx)
  | deliver k r ok s' hk hdelivery =>
      rcases Pending.mem_erase_or hk hx with rfl | hx
      · exact .inl (pursued_of_delivery howes hdelivery)
      · exact .inl (hkept (mem_of_delivery hdelivery hx))
  | _ => exact .inl (hkept hx)

private theorem dead_of_fails (hdrawn : Drawn s) {attempt : Attempt}
    (hfails : FailsAfterUpload attempt s e) (hstep : (appMachine P).step s e = .ok s') :
    Dead s' attempt := by
  obtain ⟨k, r, rfl, hk, hr⟩ := hfails
  have huuid : r.uuid = some attempt.imageReference.uuid := by
    rcases hr with rfl | ⟨data, rfl⟩ <;> rfl
  have hmem := List.mem_of_getElem? hk
  obtain rfl := Except.ok.inj ((step_fail hk).symm.trans hstep)
  have hdrawn' := drawn_step hdrawn (PublishStep.of_step hstep)
  refine ⟨hdrawn.keys_drawn _ hmem _ huuid, ?_, ?_⟩
  · intro added hadded heq
    exact absurd (hdrawn.finished added hadded _ hmem (by rw [heq]; exact huuid)).1 (by simp)
  · intro x hx hxuuid
    have hsettled := List.mem_of_getElem? (Pending.getElem?_settle hk r false)
    rw [Pending.eq_of_key hdrawn'.keys_nodup hx hsettled hxuuid huuid]

private theorem dead_of_step {attempt : Attempt} (h : Dead s attempt)
    (hstep : PublishStep P s e s') : Dead s' attempt := by
  have hnothing {x : Pending Request} (hx : x ∈ s.requests)
      (hxuuid : x.request.uuid = some attempt.imageReference.uuid)
      (hanswer : x.answer ≠ some false) : False := hanswer (h.requests x hx hxuuid)
  constructor
  · rcases hstep.keys_cases with ⟨huuids, -⟩ | ⟨new, -, huuids, -⟩ <;> rw [huuids]
    · exact h.drawn
    · exact List.mem_cons_of_mem _ h.drawn
  · intro added hadded heq
    rcases hstep.document_cases hadded with hadded | hadds
    · exact h.documents added hadded heq
    · obtain ⟨data, stamp, hrequested, -⟩ := hadds.requested
      exact hnothing hrequested (by rw [← heq]; rfl) (by simp)
  · intro x hx hxuuid
    cases hstep.arises hx (Request.attempt_of_uuid hxuuid) with
    | kept hx => exact h.requests x hx hxuuid
    | answered hr hstored => exact (hnothing hr hxuuid (by simp)).elim
    | started hstarts =>
        have hdrawn := h.drawn
        rw [← Option.some.inj hxuuid] at hdrawn
        exact absurd hdrawn hstarts.fresh
    | asked hstored => exact (hnothing hstored hxuuid (by simp)).elim
    | written hlocated huser =>
        obtain ⟨k, -, hk⟩ := App.mem_locating.mp hlocated
        exact (hnothing (List.mem_of_getElem? hk) hxuuid (by simp)).elim

private theorem stored_cases (hstep : PublishStep P s e s') {reference : StorageReference}
    {data : Data} (h : s'.storage reference = some data) :
    s.storage reference = some data ∨ ∃ attempt, attempt.imageReference = reference ∧
      attempt.data = data ∧ ⟨.putData attempt, none⟩ ∈ s.requests ∧
      ⟨.putData attempt, some true⟩ ∈ s'.requests := by
  cases hstep with
  | stored k attempt hk hrequests hstorage hdocuments huuids =>
      rw [hstorage] at h
      by_cases hreference : attempt.imageReference = reference
      · rw [← hreference, Function.update_self] at h
        refine .inr ⟨attempt, hreference, Option.some.inj h, List.mem_of_getElem? hk, ?_⟩
        rw [hrequests]
        exact List.mem_of_getElem? (Pending.getElem?_settle hk _ true)
      · rw [Function.update_of_ne (Ne.symm hreference)] at h
        exact .inl h
  | idle huploads hstores => exact .inl (hstores.1 ▸ h)
  | start attempt hstarts hrequests hstorage hdocuments huuids => exact .inl (hstorage ▸ h)
  | answered k r ok hk hr hrequests hstores => exact .inl (hstores.1 ▸ h)
  | added k attempt data stamp hevent hk hid hrequests hstorage hdocuments huuids =>
      exact .inl (hstorage ▸ h)
  | asked k attempt hk hrequests hstores => exact .inl (hstores.1 ▸ h)
  | written k attempt email hevent hk huser hrequests hstores => exact .inl (hstores.1 ▸ h)

/-- Every stored object belongs to an attempt of the run that goes on, has its document or has
failed; a failed attempt is dead. -/
structure Accounted (P : Platform) (persisted : Option String) (events : List Event)
    (s : App) : Prop where
  objects : ∀ reference data, s.storage reference = some data →
    ∃ attempt, StartedIn P persisted events attempt ∧ attempt.imageReference = reference ∧
      attempt.data = data ∧
      (Pursued s attempt ∨ Documented s attempt ∨ FailedIn P persisted events attempt)
  failed : ∀ attempt, FailedIn P persisted events attempt → Dead s attempt

theorem accounted_of_run {persisted : Option String} {events : List Event}
    (hrun : (appMachine P).run (.launch persisted) events = .ok s) :
    Accounted P persisted events s := by
  refine Machine.history_induction (M := appMachine P) (H := Accounted P persisted) ?_ ?_ hrun
  · constructor
    · intro reference data h
      cases h
    · rintro attempt ⟨before, e, after, -, heq, -⟩
      simp at heq
  · intro events e s s' hrun h hstep
    have hpublish := PublishStep.of_step hstep
    have hdrawn := (objects_of_run hrun).1
    constructor
    · intro reference data hstored
      rcases stored_cases hpublish hstored with hstored | ⟨attempt, hreference, hdata, hput, hput'⟩
      · obtain ⟨attempt, hstarted, hreference, hdata, hstate⟩ := h.objects reference data hstored
        refine ⟨attempt, hstarted.concat e, hreference, hdata, ?_⟩
        rcases hstate with hpursued | hdocumented | hfailed
        · rcases effect_of_step hstep with rfl | heffect
          · exact .inl hpursued
          · rcases pursued_of_effect hpursued heffect with h | h | h
            · exact .inl h
            · exact .inr (.inl h)
            · exact .inr (.inr (Machine.passes_last hrun h))
        · exact .inr (.inl (documented_of_step hpublish hdocumented))
        · exact .inr (.inr (hfailed.concat e))
      · have hstarted := (started_of_run hrun).1 _ hput attempt rfl
        exact ⟨attempt, hstarted.concat e, hreference, hdata,
          .inl (pursued_of_mem hput' (.inl ⟨rfl, rfl⟩))⟩
    · intro attempt hfailed
      rcases (Machine.passes_concat hrun).mp hfailed with hfailed | hfails
      · exact dead_of_step (h.failed attempt hfailed) hpublish
      · exact dead_of_fails hdrawn hfails hstep

private theorem RefersToImage.iff_reference {added : Added} (h : RefersToImage P added)
    (reference : StorageReference) :
    (reference.folder = "media" →
      ((added.document.get "imageUrl" = some (.string (P.downloadURL reference)) ∧
        added.collection = "Post") ↔ added.attempt.imageReference = reference)) ∧
    (reference.folder = "User Profile Images" →
      ((added.document.get "profileImageURL" = some (.string (P.downloadURL reference)) ∧
        added.collection = "Users") ↔ added.attempt.imageReference = reference)) := by
  have hurl : P.downloadURL added.attempt.imageReference = P.downloadURL reference ↔
      added.attempt.imageReference = reference := P.downloadURL_injective.eq_iff
  have hne (hfolders : added.attempt.imageReference.folder ≠ reference.folder) :
      added.attempt.imageReference ≠ reference :=
    mt (congrArg StorageReference.folder) hfolders
  unfold RefersToImage at h
  split at h
  · obtain ⟨hcollection, hown, hget⟩ := h
    constructor <;> intro hfolder
    · simp [hget, hcollection, hurl]
    · have hfolders : added.attempt.imageReference.folder ≠ reference.folder := by
        rw [hown, hfolder]
        decide
      simp [hcollection, hne hfolders]
  · obtain ⟨hcollection, hown, hget⟩ := h
    constructor <;> intro hfolder
    · have hfolders : added.attempt.imageReference.folder ≠ reference.folder := by
        rw [hown, hfolder]
        decide
      simp [hcollection, hne hfolders]
    · simp [hget, hcollection, hurl]

private theorem references_eq_count {persisted : Option String} {events : List Event}
    (hrun : (appMachine P).run (.launch persisted) events = .ok s) {reference : StorageReference}
    (hfolder : reference.folder = "media" ∨ reference.folder = "User Profile Images") :
    s.references P reference =
      (s.documents.map fun added => added.attempt.imageReference).count reference := by
  have hiff {added : Added} (hadded : added ∈ s.documents) :=
    (refersToImage_of_run hrun hadded).iff_reference reference
  rw [List.count_eq_countP, List.countP_map]
  unfold App.references App.collection
  by_cases hmedia : reference.folder = "media"
  · rw [if_pos hmedia, List.countP_filter]
    apply List.countP_congr
    intro added hadded
    simpa using (hiff hadded).1 hmedia
  · rw [if_neg hmedia, List.countP_filter]
    apply List.countP_congr
    intro added hadded
    simpa using (hiff hadded).2 (hfolder.resolve_left hmedia)

private theorem references_of_documented {persisted : Option String} {events : List Event}
    (hrun : (appMachine P).run (.launch persisted) events = .ok s) {attempt : Attempt}
    (hstarted : StartedIn P persisted events attempt) :
    (Documented s attempt → s.references P attempt.imageReference = 1) ∧
    (Dead s attempt → s.references P attempt.imageReference = 0) := by
  obtain ⟨-, e, -, s₀, -, -, hstarts⟩ := id hstarted
  have hfolder : attempt.imageReference.folder = "media" ∨
      attempt.imageReference.folder = "User Profile Images" := by
    rw [hstarts.folder]
    cases attempt.form
    · exact .inl rfl
    · exact .inr rfl
  rw [references_eq_count hrun hfolder]
  constructor
  · rintro ⟨added, hadded, rfl⟩
    have hnodup := (objects_of_run hrun).1.references_nodup
    exact List.count_eq_one_of_mem hnodup (List.mem_map.mpr ⟨added, hadded, rfl⟩)
  · intro hdead
    rw [List.count_eq_zero]
    intro hmem
    obtain ⟨added, hadded, heq⟩ := List.mem_map.mp hmem
    exact hdead.documents added hadded (congrArg StorageReference.uuid heq)

/-- In a state without pending completions of uploads, each object is referred to by exactly one
document, unless its download URL or its document was refused: then none refers to it. -/
theorem stored_objects_referenced (P : Platform) (persisted : Option String)
    (events : List Event) (s : App)
    (hrun : (appMachine P).run (.launch persisted) events = .ok s)
    (hidle : ∀ x ∈ s.requests, x.request.attempt = none) (reference : StorageReference)
    (data : Data) (hstored : s.storage reference = some data) :
    ∃ attempt, StartedIn P persisted events attempt ∧ attempt.imageReference = reference ∧
      attempt.data = data ∧
      ((¬ FailedIn P persisted events attempt ∧ s.references P reference = 1) ∨
        (FailedIn P persisted events attempt ∧ s.references P reference = 0)) := by
  have haccounted := accounted_of_run hrun
  obtain ⟨attempt, hstarted, rfl, hdata, hstate⟩ := haccounted.objects reference data hstored
  obtain ⟨hone, hzero⟩ := references_of_documented hrun hstarted
  refine ⟨attempt, hstarted, rfl, hdata, ?_⟩
  by_cases hfailed : FailedIn P persisted events attempt
  · exact .inr ⟨hfailed, hzero (haccounted.failed attempt hfailed)⟩
  · left
    refine ⟨hfailed, hone ?_⟩
    rcases hstate with ⟨x, hx, huploaded, -⟩ | hdocumented | hfails
    · have hnone := hidle x hx
      rw [huploaded.attempt_eq] at hnone
      cases hnone
    · exact hdocumented
    · exact absurd hfails hfailed

/-- Two shares overlap: the document of the second one is refused, the first one goes through. -/
private def halfFailedShares : List Event :=
  [.ui .addBtnPressed, .shareBtnPressed "A1", .shareBtnPressed "A2", .succeed 0 ⟨"", 0⟩,
    .deliver 0, .succeed 0 ⟨"", 0⟩, .deliver 0, .succeed 1 ⟨"", 0⟩, .deliver 1, .fail 1,
    .deliver 1, .succeed 0 ⟨"", 0⟩, .deliver 0, .succeed 0 ⟨"p1", 1⟩, .deliver 0]

theorem stored_objects_referenced_half_failed :
    ∃ s, (appMachine .firebase).run (.launch (some "a@x")) halfFailedShares = .ok s ∧
      s.requests = [] ∧
      ∀ uuid ∈ ["A1", "A2"], ∃ attempt, attempt.imageReference = ⟨"media", uuid⟩ ∧
        s.storage ⟨"media", uuid⟩ = some attempt.data ∧
        ((¬ FailedIn .firebase (some "a@x") halfFailedShares attempt ∧
            s.references .firebase ⟨"media", uuid⟩ = 1) ∨
          (FailedIn .firebase (some "a@x") halfFailedShares attempt ∧
            s.references .firebase ⟨"media", uuid⟩ = 0)) := by
  obtain ⟨s, hrun, hidle, hstored⟩ : ∃ s,
      (appMachine .firebase).run (.launch (some "a@x")) halfFailedShares = .ok s ∧
      s.requests = [] ∧ ∀ uuid ∈ ["A1", "A2"], ∃ data, s.storage ⟨"media", uuid⟩ = some data := by
    refine ⟨_, rfl, rfl, ?_⟩
    exact List.forall_mem_cons.mpr ⟨⟨_, rfl⟩, List.forall_mem_singleton.mpr ⟨_, rfl⟩⟩
  refine ⟨s, hrun, hidle, ?_⟩
  intro uuid huuid
  obtain ⟨data, hdata⟩ := hstored uuid huuid
  obtain ⟨attempt, -, hreference, rfl, hstate⟩ := stored_objects_referenced .firebase (some "a@x")
    halfFailedShares s hrun (by simp [hidle]) ⟨"media", uuid⟩ data hdata
  exact ⟨attempt, hreference, hdata, hstate⟩

/-- Nothing takes the object back when its URL cannot be had. -/
theorem stored_object_unreferenced :
    ∃ s data, (appMachine .firebase).run (.launch (some "a@x"))
        [.ui .addBtnPressed, .shareBtnPressed "A1", .succeed 0 ⟨"", 0⟩, .deliver 0, .fail 0,
          .deliver 0] = .ok s ∧
      s.requests = [] ∧ s.storage ⟨"media", "A1"⟩ = some data ∧
      s.references .firebase ⟨"media", "A1"⟩ = 0 := by
  exact ⟨_, _, rfl, rfl, rfl, rfl⟩

end BookShelf
