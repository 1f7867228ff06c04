import BookShelf.Publish.Steps

/-!
# Pending requests, objects and documents

Two invariants of the upload pipeline: UUIDs tell attempts apart, and whatever asks for a URL or
adds a document has its object stored.
-/

namespace BookShelf

/-- UUIDs name attempts: no two live attempts and no two documents share one, and a document's
attempt has nothing left to do but to deliver its last answer. -/
structure Drawn (s : App) : Prop where
  keys_nodup : (Pending.keys Request.uuid s.requests).Nodup
  keys_drawn : ∀ x ∈ s.requests, ∀ uuid, x.request.uuid = some uuid → uuid ∈ s.uuids
  documents_nodup : (s.documents.map fun added => added.attempt.imageReference.uuid).Nodup
  documents_drawn : ∀ added ∈ s.documents, added.attempt.imageReference.uuid ∈ s.uuids
  finished : ∀ added ∈ s.documents, ∀ x ∈ s.requests,
    x.request.uuid = some added.attempt.imageReference.uuid →
      x.answer = some true ∧ ∃ attempt data, x.request = .addDocument attempt data

/-- The upload of the attempt has succeeded. -/
def Uploaded (x : Pending Request) (attempt : Attempt) : Prop :=
  x = ⟨.putData attempt, some true⟩ ∨ x.request = .downloadURL attempt ∨
    ∃ data, x.request = .addDocument attempt data

structure Stored (P : Platform) (s : App) : Prop where
  objects : ∀ x ∈ s.requests, ∀ attempt, Uploaded x attempt →
    s.storage attempt.imageReference = some attempt.data
  documents : ∀ added ∈ s.documents,
    s.storage added.attempt.imageReference = some added.attempt.data
  requested : ∀ x ∈ s.requests, ∀ attempt data, x.request = .addDocument attempt data →
    ∃ ui email, data = attempt.fields P ui email
  written : ∀ added ∈ s.documents, added.collection = added.attempt.form.collection ∧
    ∃ ui email stamp, added.document = .accepted (added.attempt.fields P ui email) stamp

theorem Drawn.references_nodup {s : App} (h : Drawn s) :
    (s.documents.map fun added => added.attempt.imageReference).Nodup := by
  apply List.Nodup.of_map StorageReference.uuid
  rw [List.map_map]
  exact h.documents_nodup

theorem Request.uuid_of_attempt {r : Request} {attempt : Attempt} (h : r.attempt = some attempt) :
    r.uuid = some attempt.imageReference.uuid := by
  simp [Request.uuid, h]

theorem Request.attempt_of_uuid {r : Request} {uuid : String} (h : r.uuid = some uuid) :
    r.attempt ≠ none := by
  intro hnone
  simp [Request.uuid, hnone] at h

theorem Uploaded.attempt_eq {x : Pending Request} {attempt : Attempt} (h : Uploaded x attempt) :
    x.request.attempt = some attempt := by
  rcases h with h | h | ⟨data, h⟩ <;> rw [h] <;> rfl

theorem keys_uploads (s : App) :
    Pending.keys Request.uuid s.uploads = Pending.keys Request.uuid s.requests := by
  apply Pending.keys_filter
  intro r hr
  have hnone : r.attempt = none := by simpa [Request.isUpload] using hr
  simp [Request.uuid, hnone]

/-- The UUIDs of the attempts in flight: none is new but the one that the step draws. -/
theorem PublishStep.keys_cases {P : Platform} {s s' : App} {e : Event}
    (h : PublishStep P s e s') :
    (s'.uuids = s.uuids ∧ (Pending.keys Request.uuid s'.requests).Subperm
        (Pending.keys Request.uuid s.requests)) ∨
      ∃ attempt, s.Starts P e attempt ∧ s'.uuids = attempt.imageReference.uuid :: s.uuids ∧
        Pending.keys Request.uuid s'.requests =
          Pending.keys Request.uuid s.requests ++ [attempt.imageReference.uuid] := by
  have hadvanced {k : Nat} {x : Pending Request} {r : Request} (hk : s.requests[k]? = some x)
      (hrequests : s'.requests = Pending.post (s.requests.eraseIdx k) r)
      (huuid : r.uuid = x.request.uuid) :
      (Pending.keys Request.uuid s'.requests).Subperm (Pending.keys Request.uuid s.requests) := by
    rw [hrequests, Pending.keys_post, huuid]
    exact (List.perm_append_comm.trans (Pending.keys_erase_perm hk)).subperm
  have hsettled {k : Nat} {r : Request} {ok : Bool} (hk : s.requests[k]? = some ⟨r, none⟩)
      (hrequests : s'.requests = Pending.settle s.requests k r ok) :
      (Pending.keys Request.uuid s'.requests).Subperm (Pending.keys Request.uuid s.requests) := by
    rw [hrequests, Pending.keys_settle hk]
  cases h with
  | idle huploads hstores =>
      refine .inl ⟨hstores.2.2, ?_⟩
      rw [← keys_uploads s', ← keys_uploads s]
      exact (huploads.filterMap _).subperm
  | start attempt hstarts hrequests hstorage hdocuments huuids =>
      refine .inr ⟨attempt, hstarts, huuids, ?_⟩
      rw [hrequests, Pending.keys_post]
      rfl
  | stored k attempt hk hrequests hstorage hdocuments huuids =>
      exact .inl ⟨huuids, hsettled hk hrequests⟩
  | answered k r ok hk hr hrequests hstores => exact .inl ⟨hstores.2.2, hsettled hk hrequests⟩
  | added k attempt data stamp hevent hk hid hrequests hstorage hdocuments huuids =>
      exact .inl ⟨huuids, hsettled hk hrequests⟩
  | asked k attempt hk hrequests hstores => exact .inl ⟨hstores.2.2, hadvanced hk hrequests rfl⟩
  | written k attempt email hevent hk huser hrequests hstores =>
      exact .inl ⟨hstores.2.2, hadvanced hk hrequests rfl⟩

section

variable {P : Platform} {s s' : App} {e : Event}

private theorem Drawn.keys (h : Drawn s) (hstep : PublishStep P s e s') :
    (Pending.keys Request.uuid s'.requests).Nodup ∧
      (∀ uuid ∈ Pending.keys Request.uuid s'.requests, uuid ∈ s'.uuids) ∧ s.uuids ⊆ s'.uuids := by
  have hdrawn : ∀ uuid ∈ Pending.keys Request.uuid s.requests, uuid ∈ s.uuids := by
    intro uuid huuid
    obtain ⟨x, hx, hxuuid⟩ := List.mem_filterMap.mp huuid
    exact h.keys_drawn x hx uuid hxuuid
  rcases hstep.keys_cases with ⟨huuids, hkeys⟩ | ⟨attempt, hstarts, huuids, hkeys⟩
  · refine ⟨?_, ?_, huuids ▸ List.Subset.refl _⟩
    · obtain ⟨kept, hperm, hsublist⟩ := hkeys
      exact hperm.nodup_iff.mp (h.keys_nodup.sublist hsublist)
    · intro uuid huuid
      rw [huuids]
      exact hdrawn uuid (hkeys.subset huuid)
  · refine ⟨?_, ?_, huuids ▸ List.subset_cons_self _ _⟩
    · have hnew : attempt.imageReference.uuid ∉ Pending.keys Request.uuid s.requests :=
        fun hmem => hstarts.fresh (hdrawn _ hmem)
      rw [hkeys, ← List.concat_eq_append]
      exact h.keys_nodup.concat hnew
    · intro uuid huuid
      rw [hkeys] at huuid
      rw [huuids]
      rcases List.mem_append.mp huuid with huuid | huuid
      · exact List.mem_cons_of_mem _ (hdrawn uuid huuid)
      · exact List.mem_cons.mpr (.inl (List.mem_singleton.mp huuid))

private theorem Drawn.finished_step (h : Drawn s) (hstep : PublishStep P s e s') {added : Added}
    (hadded : added ∈ s.documents) {x : Pending Request} (hx : x ∈ s'.requests)
    (huuid : x.request.uuid = some added.attempt.imageReference.uuid) :
    x.answer = some true ∧ ∃ attempt data, x.request = .addDocument attempt data := by
  cases hstep.arises hx (Request.attempt_of_uuid huuid) with
  | kept hx => exact h.finished added hadded x hx huuid
  | answered hr hstored => exact absurd (h.finished added hadded _ hr huuid).1 (by simp)
  | started hstarts =>
      have hdrawn := h.documents_drawn added hadded
      rw [← Option.some.inj huuid] at hdrawn
      exact absurd hdrawn hstarts.fresh
  | asked hstored =>
      obtain ⟨-, attempt, data, hrequest⟩ := h.finished added hadded _ hstored huuid
      cases hrequest
  | written hlocated huser =>
      obtain ⟨k, -, hk⟩ := App.mem_locating.mp hlocated
      obtain ⟨-, attempt, data, hrequest⟩ :=
        h.finished added hadded _ (List.mem_of_getElem? hk) huuid
      cases hrequest

theorem drawn_step (h : Drawn s) (hstep : PublishStep P s e s') : Drawn s' := by
  obtain ⟨hnodup, hdrawn, huuids⟩ := h.keys hstep
  have hkeys : ∀ x ∈ s'.requests, ∀ uuid, x.request.uuid = some uuid → uuid ∈ s'.uuids :=
    fun x hx uuid huuid => hdrawn uuid (Pending.mem_keys_of_mem hx huuid)
  rcases hstep.documents_cases with hdocuments | ⟨added, hadds, hdocuments, ⟨data, hsettled⟩, -⟩
  · refine ⟨hnodup, hkeys, hdocuments ▸ h.documents_nodup, ?_, ?_⟩
    · rw [hdocuments]
      exact fun added hadded => huuids (h.documents_drawn added hadded)
    · rw [hdocuments]
      exact fun added hadded x hx huuid => h.finished_step hstep hadded hx huuid
  · obtain ⟨requested, stamp, hrequested, -⟩ := hadds.requested
    refine ⟨hnodup, hkeys, ?_, ?_, ?_⟩
    · rw [hdocuments, List.map_append, List.map_singleton, ← List.concat_eq_append]
      refine List.Nodup.concat ?_ h.documents_nodup
      intro hold
      obtain ⟨other, hother, heq⟩ := List.mem_map.mp hold
      exact absurd (h.finished other hother _ hrequested (by rw [heq]; rfl)).1 (by simp)
    · intro other hother
      rw [hdocuments] at hother
      rcases List.mem_append.mp hother with hother | hother
      · exact huuids (h.documents_drawn other hother)
      · rw [List.mem_singleton.mp hother]
        exact hkeys _ hsettled _ rfl
    · intro other hother x hx huuid
      rw [hdocuments] at hother
      rcases List.mem_append.mp hother with hother | hother
      · exact h.finished_step hstep hother hx huuid
      · rw [List.mem_singleton.mp hother] at huuid
        obtain rfl := Pending.eq_of_key hnodup hx hsettled huuid rfl
        exact ⟨rfl, _, _, rfl⟩

end

theorem drawn_launch (persisted : Option String) : Drawn (.launch persisted) := by
  constructor <;> simp [App.launch, Pending.keys]

section

variable {P : Platform} {s s' : App} {e : Event}

private theorem Stored.kept (h : Stored P s) (hdrawn : Drawn s) (hstep : PublishStep P s e s')
    {x : Pending Request} {attempt : Attempt} (hx : x ∈ s.requests) (hxa : Uploaded x attempt) :
    s'.storage attempt.imageReference = some attempt.data := by
  rcases hstep.storage_cases attempt.imageReference with hsame | ⟨other, hother, hreference⟩
  · rw [hsame]
    exact h.objects x hx attempt hxa
  · have hxuuid := Request.uuid_of_attempt hxa.attempt_eq
    obtain rfl := Pending.eq_of_key hdrawn.keys_nodup hx hother hxuuid (by rw [← hreference]; rfl)
    rcases hxa with hxa | hxa | ⟨data, hxa⟩ <;> cases hxa

private theorem Stored.objects_step (h : Stored P s) (hdrawn : Drawn s)
    (hstep : PublishStep P s e s') {x : Pending Request} {attempt : Attempt}
    (hx : x ∈ s'.requests) (hxa : Uploaded x attempt) :
    s'.storage attempt.imageReference = some attempt.data := by
  cases hstep.arises hx (by simp [hxa.attempt_eq]) with
  | kept hx => exact h.kept hdrawn hstep hx hxa
  | answered hr hstored =>
      rcases hxa with hxa | hxa
      · cases hxa
        exact hstored attempt rfl rfl
      · exact h.kept hdrawn hstep hr (.inr hxa)
  | started hstarts => rcases hxa with hxa | hxa | ⟨data, hxa⟩ <;> cases hxa
  | asked hstored =>
      cases hxa.attempt_eq
      exact h.kept hdrawn hstep hstored (.inl rfl)
  | written hlocated huser =>
      cases hxa.attempt_eq
      obtain ⟨k, -, hk⟩ := App.mem_locating.mp hlocated
      exact h.kept hdrawn hstep (List.mem_of_getElem? hk) (.inr (.inl rfl))

theorem stored_step (h : Stored P s) (hdrawn : Drawn s) (hstep : PublishStep P s e s') :
    Stored P s' := by
  constructor
  · exact fun x hx attempt hxa => h.objects_step hdrawn hstep hx hxa
  · intro added hadded
    rcases hstep.document_cases hadded with hadded | hadds
    · rcases hstep.storage_cases added.attempt.imageReference with
        hsame | ⟨other, hother, hreference⟩
      · rw [hsame]
        exact h.documents added hadded
      · exact absurd (hdrawn.finished added hadded _ hother (by rw [← hreference]; rfl)).1 (by simp)
    · obtain ⟨data, stamp, hrequested, -⟩ := hadds.requested
      exact h.kept hdrawn hstep hrequested (.inr (.inr ⟨data, rfl⟩))
  · intro x hx attempt data hxd
    rcases hstep.requested_cases hx hxd with ⟨y, hy, hyd⟩ | ⟨-, email, -, hdata⟩
    · exact h.requested y hy attempt data hyd
    · exact ⟨s.ui, email, hdata⟩
  · intro added hadded
    rcases hstep.document_cases hadded with hadded | ⟨k, data, stamp, -, hk, hcollection, hdocument⟩
    · exact h.written added hadded
    · obtain ⟨ui, email, hfields⟩ := h.requested _ (List.mem_of_getElem? hk) _ data rfl
      exact ⟨hcollection, ui, email, stamp, by rw [hdocument, hfields]⟩

end

theorem stored_launch (P : Platform) (persisted : Option String) :
    Stored P (.launch persisted) := by
  constructor <;> simp [App.launch]

theorem objects_of_run {P : Platform} {persisted : Option String} {events : List Event} {s : App}
    (hrun : (appMachine P).run (.launch persisted) events = .ok s) : Drawn s ∧ Stored P s := by
  refine Machine.run_induction (P := fun s => Drawn s ∧ Stored P s) ?_
    ⟨drawn_launch persisted, stored_launch P persisted⟩ hrun
  intro s e s' h hstep
  have hpublish := PublishStep.of_step hstep
  exact ⟨drawn_step h.1 hpublish, stored_step h.2 h.1 hpublish⟩

/-- Documents of one collection have different ids. -/
def IdsDistinct (s : App) : Prop :=
  ∀ name, ((s.collection name).map fun added => added.document.documentID).Nodup

theorem idsDistinct_step {P : Platform} {s s' : App} {e : Event} (h : IdsDistinct s)
    (hstep : PublishStep P s e s') : IdsDistinct s' := by
  intro name
  rcases hstep.documents_cases with hdocuments | ⟨added, -, hdocuments, -, hid⟩
  · rw [App.collection, hdocuments]
    exact h name
  · rw [App.collection, hdocuments, List.filter_append, List.filter_singleton, List.map_append]
    by_cases hname : added.collection = name
    · subst hname
      simp only [decide_true, cond_true, List.map_singleton]
      rw [← List.concat_eq_append]
      refine List.Nodup.concat ?_ (h _)
      intro hmem
      obtain ⟨other, hother, heq⟩ := List.mem_map.mp hmem
      exact hid other hother heq
    · simp only [decide_eq_false hname, cond_false, List.map_nil, List.append_nil]
      exact h name

theorem idsDistinct_of_run {P : Platform} {persisted : Option String} {events : List Event}
    {s : App} (hrun : (appMachine P).run (.launch persisted) events = .ok s) : IdsDistinct s := by
  refine Machine.run_induction
    (fun s e s' h hstep => idsDistinct_step h (PublishStep.of_step (P := P) hstep)) ?_ hrun
  intro name
  simp [App.launch, App.collection]

end BookShelf
