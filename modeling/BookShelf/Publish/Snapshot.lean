import BookShelf.Publish.Images

/-!
# What a published document combines

The picture of a document is the one of the tap, but its texts and its account are read when the
URL arrives. The document is a snapshot of the form when these have not changed in between.
-/

namespace BookShelf

namespace Attempt

/-- The document with the texts that the form held at the tap. -/
def submitted (P : Platform) (attempt : Attempt) (email : String) : Fields :=
  match attempt.form with
  | .create form =>
      firestorePost (P.downloadURL attempt.imageReference)
        (CreateVC.clearPlaceholder form).captionTextView email
  | .update form =>
      userInfo (P.downloadURL attempt.imageReference) form.bioTextField form.usernameTextField email

/-- The texts of the form read as they did at the tap. -/
def TextHeld (attempt : Attempt) (ui : UI) : Prop :=
  match attempt.form with
  | .create form =>
      (CreateVC.clearPlaceholder (ui.createForms attempt.self.id)).captionTextView =
        (CreateVC.clearPlaceholder form).captionTextView
  | .update form =>
      (ui.updateForms attempt.self.id).usernameTextField = form.usernameTextField ∧
        (ui.updateForms attempt.self.id).bioTextField = form.bioTextField

instance (attempt : Attempt) (ui : UI) : Decidable (attempt.TextHeld ui) := by
  unfold TextHeld
  split <;> infer_instance

end Attempt

/-- When the URL arrives, texts and account are those of the tap. -/
def FormHeld (s : App) (e : Event) : Prop :=
  ∀ attempt ∈ s.locating e, s.currentUser = attempt.session ∧ attempt.TextHeld s.ui

instance (s : App) (e : Event) : Decidable (FormHeld s e) :=
  inferInstanceAs (Decidable (∀ attempt ∈ s.locating e, _ ∧ _))

/-- Everything in the document held at the tap. -/
def IsSnapshot (P : Platform) (added : Added) : Prop :=
  ∃ email stamp, added.attempt.session = some email ∧
    added.document = .accepted (added.attempt.submitted P email) stamp

structure Snapshots (P : Platform) (s : App) : Prop where
  requested : ∀ x ∈ s.requests, ∀ attempt data, x.request = .addDocument attempt data →
    ∃ email, attempt.session = some email ∧ data = attempt.submitted P email
  documents : ∀ added ∈ s.documents, IsSnapshot P added

theorem Attempt.fields_of_textHeld {attempt : Attempt} {ui : UI} (h : attempt.TextHeld ui)
    (P : Platform) (email : String) : attempt.fields P ui email = attempt.submitted P email := by
  unfold TextHeld at h
  unfold fields submitted
  cases hform : attempt.form with
  | create form =>
      simp only [hform] at h
      simp only [h]
  | update form =>
      simp only [hform] at h
      simp only [h.1, h.2]

theorem Attempt.textHeld_of_accepted {P : Platform} {attempt : Attempt} {ui : UI}
    {email email' : String} {stamp stamp' : Stamp}
    (h : Document.accepted (attempt.fields P ui email) stamp =
      .accepted (attempt.submitted P email') stamp') : email = email' ∧ attempt.TextHeld ui := by
  have hget (field : String) := congrArg (Document.get · field) h
  simp only [Document.get_accepted] at hget
  unfold TextHeld
  unfold fields submitted at hget
  cases hform : attempt.form with
  | create form =>
      simp only [hform] at hget
      have hcaption := hget "caption"
      have hemail := hget "email"
      simp [firestorePost, List.lookup_cons] at hcaption hemail
      exact ⟨hemail, hcaption⟩
  | update form =>
      simp only [hform] at hget
      have husername := hget "username"
      have hbio := hget "bio"
      have hemail := hget "email"
      simp [userInfo, List.lookup_cons] at husername hbio hemail
      exact ⟨hemail, husername, hbio⟩

theorem snapshots_step {P : Platform} {s s' : App} {e : Event} (h : Snapshots P s)
    (hheld : FormHeld s e) (hstep : PublishStep P s e s') : Snapshots P s' := by
  constructor
  · intro x hx attempt data hxd
    rcases hstep.requested_cases hx hxd with ⟨y, hy, hyd⟩ | ⟨hlocated, email, huser, hdata⟩
    · exact h.requested y hy attempt data hyd
    · obtain ⟨hsession, htext⟩ := hheld attempt hlocated
      rw [hdata]
      exact ⟨email, hsession ▸ huser, attempt.fields_of_textHeld htext P email⟩
  · intro added hadded
    rcases hstep.document_cases hadded with hadded | hadds
    · exact h.documents added hadded
    · obtain ⟨data, stamp, hrequested, hdocument⟩ := hadds.requested
      obtain ⟨email, hsession, hdata⟩ := h.requested _ hrequested added.attempt data rfl
      exact ⟨email, stamp, hsession, by rw [hdocument, hdata]⟩

theorem snapshots_of_run {P : Platform} {persisted : Option String} {events : List Event} {s : App}
    (hheld : (appMachine P).Meets FormHeld (.launch persisted) events)
    (hrun : (appMachine P).run (.launch persisted) events = .ok s) : Snapshots P s := by
  refine Machine.run_induction_of_meets
    (fun _ _ _ h hc hstep => snapshots_step h hc (PublishStep.of_step hstep)) ?_ hheld hrun
  constructor <;> simp [App.launch]

private theorem not_snapshot_of_not_held {P : Platform} {s : App} {k : Nat} {stamp : Stamp}
    (hheld : ¬ FormHeld s (.deliver k)) (huser : s.currentUser ≠ none)
    (hid : ∀ other ∈ s.documents, other.document.documentID ≠ stamp.documentID) :
    ∃ s', (appMachine P).run s [.deliver k, .succeed (s.requests.length - 1) stamp] = .ok s' ∧
      ∃ added ∈ s'.documents, ¬ IsSnapshot P added := by
  unfold FormHeld at hheld
  push Not at hheld
  obtain ⟨attempt, hattempt, hheld⟩ := hheld
  obtain ⟨_, ⟨⟩, hk⟩ := App.mem_locating.mp hattempt
  obtain ⟨email, huser⟩ := Option.ne_none_iff_exists'.mp huser
  obtain ⟨s', hrun, hdocuments⟩ := run_deliver_add (P := P) hk huser hid
  refine ⟨s', hrun, _, hdocuments ▸ List.mem_append_right _ (List.mem_singleton_self _), ?_⟩
  rintro ⟨other, stamp', hsession, hdocument⟩
  obtain ⟨rfl, htext⟩ := Attempt.textHeld_of_accepted hdocument
  exact hheld (huser.trans hsession.symm) htext

/-- In a run in which texts and account are, at each arrival of a URL, those of the tap, every
document is a snapshot of the form it was submitted from. Any other arrival while somebody is
signed in is one answer of the server away from a document that is not. -/
theorem documents_are_snapshots (P : Platform) (persisted : Option String) (events : List Event)
    (s : App) (hheld : (appMachine P).Meets FormHeld (.launch persisted) events)
    (hrun : (appMachine P).run (.launch persisted) events = .ok s) :
    (∀ added ∈ s.documents, StartedIn P persisted events added.attempt ∧ IsSnapshot P added ∧
      s.storage added.attempt.imageReference = some added.attempt.data ∧
      added.attempt.form.image.bind P.jpegData = some added.attempt.data ∧
      ∀ form, added.attempt.form = .update form →
        form.usernameTextField ≠ "" ∧ form.bioTextField ≠ "") ∧
    ∀ k stamp, ¬ FormHeld s (.deliver k) → s.currentUser ≠ none →
      (∀ other ∈ s.documents, other.document.documentID ≠ stamp.documentID) →
      ∃ s', (appMachine P).run s [.deliver k, .succeed (s.requests.length - 1) stamp] = .ok s' ∧
        ∃ added ∈ s'.documents, ¬ IsSnapshot P added := by
  refine ⟨?_, fun k stamp hnot huser hid => not_snapshot_of_not_held hnot huser hid⟩
  intro added hadded
  have hstarted := (started_of_run hrun).2 added hadded
  obtain ⟨-, e, -, s₀, -, -, hstarts⟩ := id hstarted
  refine ⟨hstarted, (snapshots_of_run hheld hrun).documents added hadded,
    (objects_of_run hrun).2.documents added hadded, hstarts.jpeg, ?_⟩
  intro form hform
  have hsubmits := hstarts.submits
  rw [hform] at hsubmits
  cases hsubmits with
  | update hkind husername hbio => exact ⟨husername, hbio⟩

/-- The caption is typed, shared and left alone until the post is there. -/
private def shareAndWait : List Event :=
  [.ui .addBtnPressed, .ui .textViewDidBeginEditing, .ui (.changeCaption "first"),
    .ui .textViewDidEndEditing, .shareBtnPressed "A1", .succeed 0 ⟨"", 0⟩, .deliver 0,
    .succeed 0 ⟨"", 0⟩, .deliver 0, .succeed 0 ⟨"p1", 1⟩]

theorem documents_are_snapshots_share_and_wait :
    ∃ s added, (appMachine .firebase).run (.launch (some "a@x")) shareAndWait = .ok s ∧
      s.documents = [added] ∧ added.document.string? "caption" = some "first" ∧
      IsSnapshot .firebase added := by
  refine ⟨_, _, rfl, rfl, rfl, ?_⟩
  have h := documents_are_snapshots .firebase (some "a@x") shareAndWait _ (by decide) rfl
  exact (h.1 _ List.mem_cons_self).2.1

private theorem IsSnapshot.caption {P : Platform} {added : Added} {form : CreateForm}
    (h : IsSnapshot P added) (hform : added.attempt.form = .create form) :
    added.document.string? "caption" = some (CreateVC.clearPlaceholder form).captionTextView := by
  obtain ⟨email, stamp, -, hdocument⟩ := h
  simp [hdocument, Document.string?, Document.get_accepted, Attempt.submitted, hform,
    firestorePost, List.lookup_cons, FieldValue.asString]

/-- The caption is edited while the picture is on its way. -/
theorem caption_edited_during_upload :
    ∃ s added form, (appMachine .firebase).run (.launch (some "a@x"))
        [.ui .addBtnPressed, .ui .textViewDidBeginEditing, .ui (.changeCaption "first"),
          .shareBtnPressed "A1", .ui (.changeCaption "second"), .succeed 0 ⟨"", 0⟩, .deliver 0,
          .succeed 0 ⟨"", 0⟩, .deliver 0, .succeed 0 ⟨"p1", 1⟩] = .ok s ∧
      s.documents = [added] ∧ added.attempt.form = .create form ∧
      form.captionTextView = "first" ∧ added.document.string? "caption" = some "second" ∧
      ¬ IsSnapshot .firebase added := by
  refine ⟨_, _, _, rfl, rfl, rfl, rfl, rfl, ?_⟩
  intro h
  exact absurd (h.caption rfl) (by decide)

end BookShelf
