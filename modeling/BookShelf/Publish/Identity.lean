import BookShelf.Listeners.Users
import BookShelf.Publish.Objects
import BookShelf.Publish.OneProfile

/-!
# The identity that feed and profile show

A feed cell asks a `Users` document for two fields, the profile tab for one more.
`updateProfile` writes all of them, so both readers accept the same documents and end with the
same one.
-/

namespace BookShelf

/-- The document that `updateProfile` adds for the account, as the server stores it. -/
def WrittenFor (email : String) (document : Document) : Prop :=
  ∃ imageURL bio username stamp,
    document = .accepted (userInfo imageURL bio username email) stamp

/-- The cell and the header show the same username and picture. -/
def SameIdentity (cell : FeedCell) (header : ProfileHeader) : Prop :=
  cell.userNameLabel = header.profileName ∧ cell.userProfileImage = header.profileImage

/-- What a feed cell shows of a profile. -/
def ProfileVC.UserInfo.identity (user : UserInfo) : String × String :=
  (user.username, user.profileImageURL)

theorem WrittenFor.decodeUser_eq {email : String} {document : Document}
    (h : WrittenFor email document) : ∃ user, ProfileVC.decodeUser document = some user ∧
      FeedVC.decodeUser document = some user.identity := by
  obtain ⟨imageURL, bio, username, stamp, rfl⟩ := h
  refine ⟨⟨imageURL, bio, username⟩, ?_, ?_⟩
  · simp [ProfileVC.decodeUser, Document.string?_accepted, userInfo, List.lookup_cons,
      FieldValue.asString]
  · simp [FeedVC.decodeUser, Document.string?_accepted, userInfo, List.lookup_cons,
      FieldValue.asString, ProfileVC.UserInfo.identity]

section

variable {email : String} {documents : List Document}

theorem shownUser_of_written (hwritten : ∀ d ∈ documents, WrittenFor email d) :
    FeedVC.shownUser documents =
      (ProfileVC.shownUser documents).map ProfileVC.UserInfo.identity := by
  have hdecode : documents.filterMap FeedVC.decodeUser =
      (documents.filterMap ProfileVC.decodeUser).map ProfileVC.UserInfo.identity := by
    rw [List.map_filterMap]
    apply List.filterMap_congr
    intro d hd
    obtain ⟨user, hprofile, hfeed⟩ := (hwritten d hd).decodeUser_eq
    rw [hprofile, hfeed]
    rfl
  rw [FeedVC.shownUser, hdecode, List.getLast?_map]
  rfl

/-- One call of both listeners: it writes neither view, or the same user into both. -/
theorem getUserInfo_cases {e : SnapshotEvent}
    (hwritten : ∀ documents, e = .snapshot documents → ∀ d ∈ documents, WrittenFor email d)
    (cell : FeedCell) (header : ProfileHeader) :
    (FeedVC.getUserInfo cell e = cell ∧ ProfileVC.getUserInfo header e = header) ∨
      SameIdentity (FeedVC.getUserInfo cell e) (ProfileVC.getUserInfo header e) := by
  cases e with
  | error => exact .inl ⟨rfl, rfl⟩
  | nilSnapshot => exact .inl ⟨rfl, rfl⟩
  | snapshot documents =>
      rw [FeedVC.getUserInfo_snapshot, ProfileVC.getUserInfo_snapshot,
        shownUser_of_written (hwritten documents rfl)]
      cases ProfileVC.shownUser documents with
      | none => exact .inl ⟨rfl, rfl⟩
      | some user => exact .inr ⟨rfl, rfl⟩

end

/-- The `Users` documents that a listener for an account receives are all written by
`updateProfile`, in every run of the app. -/
theorem profiles_written {P : Platform} {persisted : Option String} {events : List Event} {s : App}
    (hrun : (appMachine P).run (.launch persisted) events = .ok s) (email : String) :
    ∀ d ∈ s.profiles email, WrittenFor email d := by
  intro d hd
  obtain ⟨hd, hemail⟩ := mem_whereField.mp hd
  obtain ⟨added, hadded, rfl⟩ := List.mem_map.mp hd
  obtain ⟨hadded, husers⟩ := List.mem_filter.mp hadded
  obtain ⟨hcollection, ui, owner, stamp, hdocument⟩ :=
    (objects_of_run hrun).2.written added hadded
  rw [of_decide_eq_true husers] at hcollection
  cases hform : added.attempt.form with
  | create form => simp [hform, Form.collection] at hcollection
  | update form =>
      have howner : owner = email := by
        rw [hdocument, Document.get_accepted, Attempt.fields_email] at hemail
        simpa using hemail
      refine ⟨P.downloadURL added.attempt.imageReference,
        (ui.updateForms added.attempt.self.id).bioTextField,
        (ui.updateForms added.attempt.self.id).usernameTextField, stamp, ?_⟩
      simp only [hdocument, howner, Attempt.fields, hform]

/-- A feed cell and the profile header that receive the same calls for an account, with documents
that `updateProfile` has written, show the same username and picture after every call, or have
not been written at all. -/
theorem feed_and_profile_show_same_identity (email : String) (events : List SnapshotEvent)
    (hwritten : ∀ documents, .snapshot documents ∈ events → ∀ d ∈ documents, WrittenFor email d)
    (cell : FeedCell) (header : ProfileHeader) (seen : List SnapshotEvent)
    (hseen : seen <+: events) :
    (seen.foldl FeedVC.getUserInfo cell = cell ∧
        seen.foldl ProfileVC.getUserInfo header = header) ∨
      SameIdentity (seen.foldl FeedVC.getUserInfo cell)
        (seen.foldl ProfileVC.getUserInfo header) := by
  induction seen using List.reverseRecOn with
  | nil => exact .inl ⟨rfl, rfl⟩
  | append_singleton seen e ih =>
      have hbefore := ih ((List.prefix_append seen [e]).trans hseen)
      have hmem : e ∈ events := hseen.subset (by simp)
      rw [List.foldl_concat, List.foldl_concat]
      rcases getUserInfo_cases (fun documents he => hwritten documents (he ▸ hmem))
        (seen.foldl FeedVC.getUserInfo cell) (seen.foldl ProfileVC.getUserInfo header) with
        ⟨hcell, hheader⟩ | hsame
      · rw [hcell, hheader]
        exact hbefore
      · exact .inr hsame

/-- A profile and a later edit of it, delivered with an error in between. -/
private def editedProfile : List SnapshotEvent :=
  [.nilSnapshot, .snapshot [], .snapshot [.accepted (userInfo "u1" "reader" "ann" "a@x") ⟨"d1", 0⟩],
    .error, .snapshot [.accepted (userInfo "u1" "reader" "ann" "a@x") ⟨"d1", 0⟩,
      .accepted (userInfo "u2" "writer" "anna" "a@x") ⟨"d2", 0⟩]]

theorem feed_and_profile_show_same_identity_edited :
    (editedProfile.foldl FeedVC.getUserInfo .storyboard).userNameLabel = "anna" ∧
      SameIdentity (editedProfile.foldl FeedVC.getUserInfo .storyboard)
        (editedProfile.foldl ProfileVC.getUserInfo .storyboard) := by
  refine ⟨by decide, ?_⟩
  have hboth := feed_and_profile_show_same_identity "a@x" editedProfile ?_ .storyboard .storyboard
    editedProfile (List.prefix_refl _)
  · exact hboth.resolve_left (by decide)
  · intro documents hdocuments d hd
    simp only [editedProfile, List.mem_cons, SnapshotEvent.snapshot.injEq, reduceCtorEq, false_or,
      List.not_mem_nil, or_false] at hdocuments
    rcases hdocuments with rfl | rfl | rfl
    · cases hd
    · exact ⟨"u1", "reader", "ann", ⟨"d1", 0⟩, List.mem_singleton.mp hd⟩
    · rcases List.mem_pair.mp hd with rfl | rfl
      · exact ⟨"u1", "reader", "ann", ⟨"d1", 0⟩, rfl⟩
      · exact ⟨"u2", "writer", "anna", ⟨"d2", 0⟩, rfl⟩

end BookShelf
