import BookShelf.App.Firebase
import BookShelf.Publish.Objects

/-!
# Documents and their images

Every document refers to an object of its own: the JPEG of the picture that the form showed at
the tap, stored before the document was added.
-/

namespace BookShelf

/-- Some tap of the run started the attempt. -/
def StartedIn (P : Platform) (persisted : Option String) (events : List Event)
    (attempt : Attempt) : Prop :=
  (appMachine P).Passes (fun s e => s.Starts P e attempt) (.launch persisted) events

/-- The document was added at a moment of the run when its object was stored. -/
def AddedOverObject (P : Platform) (persisted : Option String) (events : List Event)
    (added : Added) : Prop :=
  (appMachine P).Passes
    (fun s e => PublishStep.Adds added s e ∧
      s.storage added.attempt.imageReference = some added.attempt.data)
    (.launch persisted) events

/-- The document belongs to its collection and holds the URL of an object of its folder. -/
def RefersToImage (P : Platform) (added : Added) : Prop :=
  match added.attempt.form with
  | .create _ => added.collection = "Post" ∧ added.attempt.imageReference.folder = "media" ∧
      added.document.get "imageUrl" = some (.string (P.downloadURL added.attempt.imageReference))
  | .update _ => added.collection = "Users" ∧
      added.attempt.imageReference.folder = "User Profile Images" ∧
      added.document.get "profileImageURL" =
        some (.string (P.downloadURL added.attempt.imageReference))

/-- History variables tell the truth: every attempt goes back to a tap of the run. -/
theorem started_of_run {P : Platform} {persisted : Option String} {events : List Event} {s : App}
    (hrun : (appMachine P).run (.launch persisted) events = .ok s) :
    (∀ x ∈ s.requests, ∀ attempt, x.request.attempt = some attempt →
      StartedIn P persisted events attempt) ∧
    ∀ added ∈ s.documents, StartedIn P persisted events added.attempt := by
  refine Machine.history_induction (M := appMachine P)
    (H := fun events s => (∀ x ∈ s.requests, ∀ attempt, x.request.attempt = some attempt →
      StartedIn P persisted events attempt) ∧
      ∀ added ∈ s.documents, StartedIn P persisted events added.attempt) ?_ ?_ hrun
  · constructor <;> simp [App.launch]
  · intro events e s s' hrun h hstep
    have hpublish := PublishStep.of_step hstep
    constructor
    · intro x hx attempt hattempt
      rcases hpublish.attempt_cases hx hattempt with ⟨y, hy, hyattempt⟩ | hstarts
      · exact (h.1 y hy attempt hyattempt).concat e
      · exact Machine.passes_last hrun hstarts
    · intro added hadded
      rcases hpublish.document_cases hadded with hadded | ⟨k, data, stamp, -, hk, -, -⟩
      · exact (h.2 added hadded).concat e
      · exact (h.1 _ (List.mem_of_getElem? hk) added.attempt rfl).concat e

theorem addedOverObject_of_run {P : Platform} {persisted : Option String} {events : List Event}
    {s : App} (hrun : (appMachine P).run (.launch persisted) events = .ok s) :
    ∀ added ∈ s.documents, AddedOverObject P persisted events added := by
  refine Machine.history_induction (M := appMachine P)
    (H := fun events s => ∀ added ∈ s.documents, AddedOverObject P persisted events added)
    ?_ ?_ hrun
  · simp [App.launch]
  · intro events e s s' hrun h hstep added hadded
    rcases (PublishStep.of_step hstep).document_cases hadded with hadded | hadds
    · exact (h added hadded).concat e
    · refine Machine.passes_last hrun ⟨hadds, ?_⟩
      obtain ⟨k, data, stamp, -, hk, -, -⟩ := hadds
      exact (objects_of_run hrun).2.objects _ (List.mem_of_getElem? hk) added.attempt
        (.inr (.inr ⟨data, rfl⟩))

theorem Attempt.fields_imageField (P : Platform) (attempt : Attempt) (ui : UI) (email : String) :
    (attempt.fields P ui email).lookup attempt.form.imageField =
      some (.string (P.downloadURL attempt.imageReference)) := by
  cases hform : attempt.form <;>
    simp [fields, Form.imageField, hform, firestorePost, userInfo]

theorem refersToImage_of_run {P : Platform} {persisted : Option String} {events : List Event}
    {s : App} (hrun : (appMachine P).run (.launch persisted) events = .ok s) {added : Added}
    (hadded : added ∈ s.documents) : RefersToImage P added := by
  obtain ⟨hcollection, ui, email, stamp, hdocument⟩ := (objects_of_run hrun).2.written added hadded
  obtain ⟨-, e, -, s₀, -, -, hstarts⟩ := (started_of_run hrun).2 added hadded
  have hget : added.document.get added.attempt.form.imageField =
      some (.string (P.downloadURL added.attempt.imageReference)) := by
    rw [hdocument, Document.get_accepted, Attempt.fields_imageField]
    rfl
  have hfolder := hstarts.folder
  unfold RefersToImage
  split
  · next form hform =>
    rw [hform] at hcollection hfolder hget
    exact ⟨hcollection, hfolder, hget⟩
  · next form hform =>
    rw [hform] at hcollection hfolder hget
    exact ⟨hcollection, hfolder, hget⟩

/-- In every run each document refers to a stored object of its own, uploaded before the
document was added, with the JPEG of the picture that the form showed at the tap. -/
theorem documents_have_their_images (P : Platform) (persisted : Option String)
    (events : List Event) (s : App)
    (hrun : (appMachine P).run (.launch persisted) events = .ok s) :
    (∀ added ∈ s.documents, RefersToImage P added ∧
      s.storage added.attempt.imageReference = some added.attempt.data ∧
      added.attempt.form.image.bind P.jpegData = some added.attempt.data ∧
      StartedIn P persisted events added.attempt ∧ AddedOverObject P persisted events added) ∧
    (s.documents.map fun added => P.downloadURL added.attempt.imageReference).Nodup := by
  have hobjects := objects_of_run hrun
  refine ⟨?_, ?_⟩
  · intro added hadded
    have hstarted := (started_of_run hrun).2 added hadded
    obtain ⟨-, e, -, s₀, -, -, hstarts⟩ := id hstarted
    exact ⟨refersToImage_of_run hrun hadded, hobjects.2.documents added hadded, hstarts.jpeg,
      hstarted, addedOverObject_of_run hrun added hadded⟩
  · have hurls := hobjects.1.references_nodup.map P.downloadURL_injective
    rwa [List.map_map] at hurls

/-- Two attempts of one form whose stages overlap, the second one overtaking the first. -/
private def overlappingShares : List Event :=
  [.ui .addBtnPressed, .shareBtnPressed "A1", .shareBtnPressed "A2", .succeed 1 ⟨"", 0⟩,
    .deliver 1, .succeed 1 ⟨"", 0⟩, .succeed 0 ⟨"", 0⟩, .deliver 1, .succeed 1 ⟨"p2", 1⟩,
    .deliver 0, .succeed 1 ⟨"", 0⟩, .deliver 1, .succeed 1 ⟨"p1", 2⟩]

theorem documents_have_their_images_overlapping :
    ∃ s, (appMachine .firebase).run (.launch (some "a@x")) overlappingShares = .ok s ∧
      s.documents.length = 2 ∧
      (s.documents.map fun added =>
        Platform.firebase.downloadURL added.attempt.imageReference).Nodup := by
  refine ⟨_, rfl, rfl, ?_⟩
  exact (documents_have_their_images .firebase (some "a@x") overlappingShares _ rfl).2

end BookShelf
