import BookShelf.App.Effects
import Mathlib.Data.Fintype.EquivFin

/-!
# What a step does to the publishing attempts

Seen from the uploads and the stores, an effect either does nothing new, or moves one attempt
one stage further.
-/

namespace BookShelf

/-- The pending requests of publishing attempts. -/
def App.uploads (s : App) : List (Pending Request) :=
  s.requests.filter fun x => x.request.isUpload

theorem App.mem_uploads {s : App} {x : Pending Request} :
    x ∈ s.uploads ↔ x ∈ s.requests ∧ x.request.attempt ≠ none := by
  rw [uploads, List.mem_filter, Request.isUpload, Option.isSome_iff_ne_none]

/-- The attempt whose download URL the event brings. -/
def App.locating (s : App) (e : Event) : Option Attempt :=
  match s.completing e with
  | some ⟨.downloadURL attempt, some true⟩ => some attempt
  | _ => none

theorem App.mem_locating {s : App} {e : Event} {attempt : Attempt} :
    attempt ∈ s.locating e ↔
      ∃ k, e = .deliver k ∧ s.requests[k]? = some ⟨.downloadURL attempt, some true⟩ := by
  rw [← mem_completing]
  unfold locating
  constructor
  · intro h
    split at h
    · next located hcompleting =>
      cases h
      exact hcompleting
    · cases h
  · intro h
    rw [Option.mem_def.mp h]
    rfl

def SameStores (s s' : App) : Prop :=
  s'.storage = s.storage ∧ s'.documents = s.documents ∧ s'.uuids = s.uuids

/-- `idle` covers the steps that are not about uploads and the end of an attempt, `answered`
the answers that change no store. -/
inductive PublishStep (P : Platform) (s : App) (e : Event) (s' : App) : Prop
  | idle (huploads : s'.uploads.Sublist s.uploads) (hstores : SameStores s s')
  | start (attempt : Attempt) (hstarts : s.Starts P e attempt)
      (hrequests : s'.requests = Pending.post s.requests (.putData attempt))
      (hstorage : s'.storage = s.storage) (hdocuments : s'.documents = s.documents)
      (huuids : s'.uuids = attempt.imageReference.uuid :: s.uuids)
  | stored (k : Nat) (attempt : Attempt) (hk : s.requests[k]? = some ⟨.putData attempt, none⟩)
      (hrequests : s'.requests = Pending.settle s.requests k (.putData attempt) true)
      (hstorage : s'.storage =
        Function.update s.storage attempt.imageReference (some attempt.data))
      (hdocuments : s'.documents = s.documents) (huuids : s'.uuids = s.uuids)
  | answered (k : Nat) (r : Request) (ok : Bool) (hk : s.requests[k]? = some ⟨r, none⟩)
      (hr : (∃ attempt, r = .downloadURL attempt) ∨ ok = false)
      (hrequests : s'.requests = Pending.settle s.requests k r ok) (hstores : SameStores s s')
  | added (k : Nat) (attempt : Attempt) (data : Fields) (stamp : Stamp)
      (hevent : e = .succeed k stamp)
      (hk : s.requests[k]? = some ⟨.addDocument attempt data, none⟩)
      (hid : ∀ other ∈ s.collection attempt.form.collection,
        other.document.documentID ≠ stamp.documentID)
      (hrequests : s'.requests = Pending.settle s.requests k (.addDocument attempt data) true)
      (hstorage : s'.storage = s.storage)
      (hdocuments : s'.documents = s.documents ++
        [⟨attempt.form.collection, .accepted data stamp, attempt⟩])
      (huuids : s'.uuids = s.uuids)
  | asked (k : Nat) (attempt : Attempt)
      (hk : s.requests[k]? = some ⟨.putData attempt, some true⟩)
      (hrequests : s'.requests =
        Pending.post (s.requests.eraseIdx k) (.downloadURL attempt))
      (hstores : SameStores s s')
  | written (k : Nat) (attempt : Attempt) (email : String) (hevent : e = .deliver k)
      (hk : s.requests[k]? = some ⟨.downloadURL attempt, some true⟩)
      (huser : s.currentUser = some email)
      (hrequests : s'.requests = Pending.post (s.requests.eraseIdx k)
        (.addDocument attempt (attempt.fields P s.ui email)))
      (hstores : SameStores s s')

namespace PublishStep

variable {P : Platform} {s s' : App} {e : Event}

private theorem of_same (hrequests : s'.requests = s.requests) (hstores : SameStores s s') :
    PublishStep P s e s' := by
  refine .idle ?_ hstores
  rw [App.uploads, hrequests]
  exact List.Sublist.refl _

private theorem of_post {r : Request} (hr : r.attempt = none)
    (hrequests : s'.requests = Pending.post s.requests r) (hstores : SameStores s s') :
    PublishStep P s e s' := by
  refine .idle ?_ hstores
  rw [App.uploads, hrequests,
    Pending.filter_post (p := Request.isUpload) (by simp [Request.isUpload, hr])]
  exact List.Sublist.refl _

private theorem of_settle {k : Nat} {r : Request} {ok : Bool} (hr : r.attempt = none)
    (hk : s.requests[k]? = some ⟨r, none⟩)
    (hrequests : s'.requests = Pending.settle s.requests k r ok) (hstores : SameStores s s') :
    PublishStep P s e s' := by
  refine .idle ?_ hstores
  rw [App.uploads, hrequests,
    Pending.filter_settle (p := Request.isUpload) hk (by simp [Request.isUpload, hr])]
  exact List.Sublist.refl _

private theorem of_erase {k : Nat} (hrequests : s'.requests = s.requests.eraseIdx k)
    (hstores : SameStores s s') : PublishStep P s e s' := by
  refine .idle ?_ hstores
  rw [App.uploads, hrequests]
  exact (List.eraseIdx_sublist s.requests k).filter _

private theorem of_accept {k : Nat} {r : Request} {stamp : Stamp}
    (hk : s.requests[k]? = some ⟨r, none⟩) :
    PublishStep P s (.succeed k stamp) (s.accept k r stamp) := by
  cases r with
  | signIn self credentials => exact of_settle rfl hk rfl ⟨rfl, rfl, rfl⟩
  | createUser tap => exact of_settle rfl hk rfl ⟨rfl, rfl, rfl⟩
  | signInAfterSignUp tap credentials => exact of_settle rfl hk rfl ⟨rfl, rfl, rfl⟩
  | putData attempt => exact .stored k attempt hk rfl rfl rfl rfl
  | downloadURL attempt => exact .answered k _ true hk (.inl ⟨attempt, rfl⟩) rfl ⟨rfl, rfl, rfl⟩
  | addDocument attempt data =>
      rcases s.accept_addDocument_cases k attempt data stamp with h | ⟨hid, h⟩ <;> rw [h]
      · exact of_same rfl ⟨rfl, rfl, rfl⟩
      · exact .added k attempt data stamp rfl hk hid rfl rfl rfl rfl

private theorem of_delivery {k : Nat} {r : Request} {ok : Bool}
    (hk : s.requests[k]? = some ⟨r, some ok⟩)
    (h : Delivery P { s with requests := s.requests.eraseIdx k } r ok s') :
    PublishStep P s (.deliver k) s' := by
  cases h with
  | created tap =>
      refine .idle ?_ ⟨rfl, rfl, rfl⟩
      have hpost := Pending.filter_post (p := Request.isUpload) (r :=
        .signInAfterSignUp tap (s.ui.credentials tap.self.id)) rfl (s.requests.eraseIdx k)
      change (List.filter _ (Pending.post (s.requests.eraseIdx k) _)).Sublist _
      rw [hpost]
      exact (List.eraseIdx_sublist s.requests k).filter _
  | uploaded attempt => exact .asked k attempt hk rfl ⟨rfl, rfl, rfl⟩
  | gotURL attempt email huser => exact .written k attempt email rfl hk huser rfl ⟨rfl, rfl, rfl⟩
  | _ => exact of_erase (k := k) rfl ⟨rfl, rfl, rfl⟩

theorem of_effect (h : Effect P s e s') : PublishStep P s e s' := by
  cases h with
  | login self htop hkind => exact of_post rfl rfl ⟨rfl, rfl, rfl⟩
  | signUp self htop hkind => exact of_post rfl rfl ⟨rfl, rfl, rfl⟩
  | upload e attempt hstarts => exact .start attempt hstarts rfl rfl rfl rfl
  | accept k r stamp hk => exact of_accept hk
  | reject k r hk => exact .answered k r false hk (.inr rfl) rfl ⟨rfl, rfl, rfl⟩
  | deliver k r ok s' hk hdelivery => exact of_delivery hk hdelivery
  | _ => exact of_same rfl ⟨rfl, rfl, rfl⟩

theorem of_step (hstep : (appMachine P).step s e = .ok s') : PublishStep P s e s' := by
  rcases effect_of_step hstep with rfl | heffect
  · exact of_same rfl ⟨rfl, rfl, rfl⟩
  · exact of_effect heffect

theorem idle_mem (huploads : s'.uploads.Sublist s.uploads) {x : Pending Request}
    (hx : x ∈ s'.requests) (hattempt : x.request.attempt ≠ none) : x ∈ s.requests :=
  (App.mem_uploads.mp (huploads.subset (App.mem_uploads.mpr ⟨hx, hattempt⟩))).1

/-- Where an upload request that is pending after a step comes from. -/
inductive Arises (P : Platform) (s : App) (e : Event) (s' : App) : Pending Request → Prop
  | kept {x : Pending Request} (hx : x ∈ s.requests) : Arises P s e s' x
  | answered {r : Request} {ok : Bool} (hr : ⟨r, none⟩ ∈ s.requests)
      (hstored : ∀ attempt, r = .putData attempt → ok = true →
        s'.storage attempt.imageReference = some attempt.data) :
      Arises P s e s' ⟨r, some ok⟩
  | started {attempt : Attempt} (hstarts : s.Starts P e attempt) :
      Arises P s e s' ⟨.putData attempt, none⟩
  | asked {attempt : Attempt} (hstored : ⟨.putData attempt, some true⟩ ∈ s.requests) :
      Arises P s e s' ⟨.downloadURL attempt, none⟩
  | written {attempt : Attempt} {email : String} (hlocated : attempt ∈ s.locating e)
      (huser : s.currentUser = some email) :
      Arises P s e s' ⟨.addDocument attempt (attempt.fields P s.ui email), none⟩

theorem arises (h : PublishStep P s e s') {x : Pending Request} (hx : x ∈ s'.requests)
    (hattempt : x.request.attempt ≠ none) : Arises P s e s' x := by
  have hsettled {k : Nat} {r : Request} {ok : Bool} (hk : s.requests[k]? = some ⟨r, none⟩)
      (hrequests : s'.requests = Pending.settle s.requests k r ok)
      (hstored : ∀ attempt, r = .putData attempt → ok = true →
        s'.storage attempt.imageReference = some attempt.data) : Arises P s e s' x := by
    rw [hrequests] at hx
    rcases Pending.mem_settle hx with hx | rfl
    · exact .kept hx
    · exact .answered (List.mem_of_getElem? hk) hstored
  cases h with
  | idle huploads hstores => exact .kept (idle_mem huploads hx hattempt)
  | start attempt hstarts hrequests hstorage hdocuments huuids =>
      rw [hrequests] at hx
      rcases Pending.mem_post.mp hx with hx | rfl
      · exact .kept hx
      · exact .started hstarts
  | stored k attempt hk hrequests hstorage hdocuments huuids =>
      apply hsettled hk hrequests
      intro other hother _
      cases hother
      rw [hstorage, Function.update_self]
  | answered k r ok hk hr hrequests hstores =>
      apply hsettled hk hrequests
      intro attempt hput hok
      rcases hr with ⟨other, hr⟩ | hr
      · cases hput.symm.trans hr
      · cases hok.symm.trans hr
  | added k attempt data stamp hevent hk hid hrequests hstorage hdocuments huuids =>
      apply hsettled hk hrequests
      intro other hother
      cases hother
  | asked k attempt hk hrequests hstores =>
      rw [hrequests] at hx
      rcases Pending.mem_post.mp hx with hx | rfl
      · exact .kept (List.mem_of_mem_eraseIdx hx)
      · exact .asked (List.mem_of_getElem? hk)
  | written k attempt email hevent hk huser hrequests hstores =>
      rw [hrequests] at hx
      rcases Pending.mem_post.mp hx with hx | rfl
      · exact .kept (List.mem_of_mem_eraseIdx hx)
      · exact .written (App.mem_locating.mpr ⟨k, hevent, hk⟩) huser

theorem requested_cases (h : PublishStep P s e s') {x : Pending Request} {attempt : Attempt}
    {data : Fields} (hx : x ∈ s'.requests) (hxd : x.request = .addDocument attempt data) :
    (∃ y ∈ s.requests, y.request = .addDocument attempt data) ∨
      (attempt ∈ s.locating e ∧ ∃ email, s.currentUser = some email ∧
        data = attempt.fields P s.ui email) := by
  cases h.arises hx (by simp [hxd, Request.attempt]) with
  | kept hx => exact .inl ⟨x, hx, hxd⟩
  | answered hr hstored => exact .inl ⟨_, hr, hxd⟩
  | started hstarts => cases hxd
  | asked hstored => cases hxd
  | written hlocated huser =>
      cases hxd
      exact .inr ⟨hlocated, _, huser, rfl⟩

theorem attempt_cases (h : PublishStep P s e s') {x : Pending Request} {attempt : Attempt}
    (hx : x ∈ s'.requests) (hattempt : x.request.attempt = some attempt) :
    (∃ y ∈ s.requests, y.request.attempt = some attempt) ∨ s.Starts P e attempt := by
  cases h.arises hx (by simp [hattempt]) with
  | kept hx => exact .inl ⟨x, hx, hattempt⟩
  | answered hr hstored => exact .inl ⟨_, hr, hattempt⟩
  | started hstarts =>
      cases hattempt
      exact .inr hstarts
  | asked hstored => exact .inl ⟨_, hstored, hattempt⟩
  | written hlocated huser =>
      obtain ⟨k, -, hk⟩ := App.mem_locating.mp hlocated
      exact .inl ⟨_, List.mem_of_getElem? hk, hattempt⟩

theorem storage_cases (h : PublishStep P s e s') (reference : StorageReference) :
    s'.storage reference = s.storage reference ∨
      ∃ attempt, ⟨.putData attempt, none⟩ ∈ s.requests ∧ attempt.imageReference = reference := by
  cases h with
  | idle huploads hstores => exact .inl (congrFun hstores.1 reference)
  | start attempt hstarts hrequests hstorage hdocuments huuids =>
      exact .inl (congrFun hstorage reference)
  | stored k attempt hk hrequests hstorage hdocuments huuids =>
      by_cases hreference : attempt.imageReference = reference
      · exact .inr ⟨attempt, List.mem_of_getElem? hk, hreference⟩
      · rw [hstorage, Function.update_of_ne (Ne.symm hreference)]
        exact .inl rfl
  | answered k r ok hk hr hrequests hstores => exact .inl (congrFun hstores.1 reference)
  | added k attempt data stamp hevent hk hid hrequests hstorage hdocuments huuids =>
      exact .inl (congrFun hstorage reference)
  | asked k attempt hk hrequests hstores => exact .inl (congrFun hstores.1 reference)
  | written k attempt email hevent hk huser hrequests hstores =>
      exact .inl (congrFun hstores.1 reference)

/-- The event accepts the request that adds this document. -/
def Adds (added : Added) (s : App) (e : Event) : Prop :=
  ∃ k data stamp, e = .succeed k stamp ∧
    s.requests[k]? = some ⟨.addDocument added.attempt data, none⟩ ∧
    added.collection = added.attempt.form.collection ∧ added.document = .accepted data stamp

theorem Adds.requested {added : Added} (h : Adds added s e) :
    ∃ data stamp, ⟨.addDocument added.attempt data, none⟩ ∈ s.requests ∧
      added.document = .accepted data stamp := by
  obtain ⟨k, data, stamp, -, hk, -, hdocument⟩ := h
  exact ⟨data, stamp, List.mem_of_getElem? hk, hdocument⟩

theorem documents_cases (h : PublishStep P s e s') :
    s'.documents = s.documents ∨ ∃ added, Adds added s e ∧
      s'.documents = s.documents ++ [added] ∧
      (∃ data, ⟨.addDocument added.attempt data, some true⟩ ∈ s'.requests) ∧
      ∀ other ∈ s.collection added.collection,
        other.document.documentID ≠ added.document.documentID := by
  cases h with
  | idle huploads hstores => exact .inl hstores.2.1
  | start attempt hstarts hrequests hstorage hdocuments huuids => exact .inl hdocuments
  | stored k attempt hk hrequests hstorage hdocuments huuids => exact .inl hdocuments
  | answered k r ok hk hr hrequests hstores => exact .inl hstores.2.1
  | added k attempt data stamp hevent hk hid hrequests hstorage hdocuments huuids =>
      refine .inr ⟨_, ⟨k, data, stamp, hevent, hk, rfl, rfl⟩, hdocuments, ⟨data, ?_⟩, hid⟩
      rw [hrequests]
      exact List.mem_of_getElem? (Pending.getElem?_settle hk _ true)
  | asked k attempt hk hrequests hstores => exact .inl hstores.2.1
  | written k attempt email hevent hk huser hrequests hstores => exact .inl hstores.2.1

theorem documents_subset (h : PublishStep P s e s') : s.documents ⊆ s'.documents := by
  rcases h.documents_cases with heq | ⟨added, -, heq, -, -⟩ <;> rw [heq]
  · exact List.Subset.refl _
  · exact List.subset_append_left _ _

theorem document_cases (h : PublishStep P s e s') {added : Added} (hadded : added ∈ s'.documents) :
    added ∈ s.documents ∨ Adds added s e := by
  rcases h.documents_cases with hdocuments | ⟨new, hnew, hdocuments, -, -⟩
  · exact .inl (hdocuments ▸ hadded)
  · rw [hdocuments] at hadded
    rcases List.mem_append.mp hadded with hadded | hadded
    · exact .inl hadded
    · rw [List.mem_singleton.mp hadded]
      exact .inr hnew

end PublishStep

/-- The attempt whose document the request may still lead to. -/
def owes : Pending Request → Option Attempt
  | ⟨.putData attempt, answer⟩ => if answer = some false then none else some attempt
  | ⟨.downloadURL attempt, answer⟩ => if answer = some false then none else some attempt
  | ⟨.addDocument attempt _, answer⟩ => if answer = none then some attempt else none
  | _ => none

theorem owes_eq_some {x : Pending Request} {attempt : Attempt} :
    owes x = some attempt ↔
      (x.answer ≠ some false ∧ (x.request = .putData attempt ∨ x.request = .downloadURL attempt)) ∨
        (x.answer = none ∧ ∃ data, x.request = .addDocument attempt data) := by
  obtain ⟨r, answer⟩ := x
  cases r <;> simp [owes]

theorem exists_fresh_stamp (s : App) :
    ∃ stamp : Stamp, ∀ other ∈ s.documents, other.document.documentID ≠ stamp.documentID := by
  have hinjective : Function.Injective fun n : Nat => String.ofList (List.replicate n 'x') := by
    intro m n h
    simpa using congrArg String.length h
  have : Infinite String := .of_injective _ hinjective
  obtain ⟨id, hid⟩ := Infinite.exists_notMem_finset
    (s.documents.map fun other => other.document.documentID).toFinset
  refine ⟨⟨id, 0⟩, fun other hother heq => hid ?_⟩
  exact List.mem_toFinset.mpr (List.mem_map.mpr ⟨other, hother, heq⟩)

section

variable {P : Platform} {s : App} {k : Nat} {attempt : Attempt}

theorem step_succeed_putData (hk : s.requests[k]? = some ⟨.putData attempt, none⟩)
    (stamp : Stamp) :
    (appMachine P).step s (.succeed k stamp) = .ok
      { s with
        requests := Pending.settle s.requests k (.putData attempt) true
        storage := Function.update s.storage attempt.imageReference (some attempt.data) } :=
  step_succeed hk stamp

theorem step_deliver_putData (hk : s.requests[k]? = some ⟨.putData attempt, some true⟩) :
    (appMachine P).step s (.deliver k) = .ok
      ({ s with requests := s.requests.eraseIdx k }.request (.downloadURL attempt)) := by
  rw [step_deliver hk, App.complete, Attempt.uploaded_true]

theorem step_succeed_downloadURL (hk : s.requests[k]? = some ⟨.downloadURL attempt, none⟩)
    (stamp : Stamp) :
    (appMachine P).step s (.succeed k stamp) = .ok
      { s with requests := Pending.settle s.requests k (.downloadURL attempt) true } :=
  step_succeed hk stamp

theorem step_deliver_downloadURL {email : String}
    (hk : s.requests[k]? = some ⟨.downloadURL attempt, some true⟩)
    (huser : s.currentUser = some email) :
    (appMachine P).step s (.deliver k) = .ok
      ({ s with
        ui := attempt.clearedUI s.ui
        requests := s.requests.eraseIdx k }.request
          (.addDocument attempt (attempt.fields P s.ui email))) := by
  change s.deliver P k = _
  rw [deliver_downloadURL hk]
  split
  · next hnone => simp [huser] at hnone
  · next other hother =>
    obtain rfl : email = other := Option.some.inj (huser.symm.trans hother)
    rfl

theorem step_succeed_addDocument {data : Fields} {stamp : Stamp}
    (hk : s.requests[k]? = some ⟨.addDocument attempt data, none⟩)
    (hid : ∀ other ∈ s.documents, other.document.documentID ≠ stamp.documentID) :
    (appMachine P).step s (.succeed k stamp) = .ok
      { s with
        requests := Pending.settle s.requests k (.addDocument attempt data) true
        documents := s.documents ++
          [⟨attempt.form.collection, .accepted data stamp, attempt⟩] } := by
  rw [step_succeed hk, App.accept_addDocument hid]

end

/-- Once the URL has arrived, nothing but the server stands between an attempt and its
document. -/
theorem run_deliver_add {P : Platform} {s : App} {k : Nat} {attempt : Attempt} {email : String}
    {stamp : Stamp} (hk : s.requests[k]? = some ⟨.downloadURL attempt, some true⟩)
    (huser : s.currentUser = some email)
    (hid : ∀ other ∈ s.documents, other.document.documentID ≠ stamp.documentID) :
    ∃ s', (appMachine P).run s [.deliver k, .succeed (s.requests.length - 1) stamp] = .ok s' ∧
      s'.documents = s.documents ++ [⟨attempt.form.collection,
        .accepted (attempt.fields P s.ui email) stamp, attempt⟩] := by
  have hlength : (s.requests.eraseIdx k).length = s.requests.length - 1 :=
    List.length_eraseIdx_of_lt (List.getElem?_eq_some_iff.mp hk).1
  rw [Machine.run_cons_of_step (step_deliver_downloadURL hk huser)]
  refine ⟨_, Machine.run_cons_of_step rfl [], ?_⟩
  rw [← hlength]
  simp only [App.succeed, App.request, Pending.getElem?_post]
  rw [App.accept_addDocument]
  exact hid

end BookShelf
