import BookShelf.Listeners.Users
import BookShelf.Publish.OneProfile
import BookShelf.Publish.Snapshot

/-!
# Which profile its readers show

The readers of `Users` keep the last decodable document in the order of the ids, and ids say
nothing about time.
-/

namespace BookShelf

/-- The successful `updateProfile` calls of an account, in the order of their documents. -/
def App.calls (s : App) (email : String) : List Added :=
  s.documents.filter fun added =>
    added.collection = "Users" ∧ added.attempt.session = some email

/-- The successful call whose tap came last; `uuids` has the taps, newest first. -/
def App.lastCall (s : App) (email : String) : Option Added :=
  s.uuids.findSome? fun uuid =>
    (s.calls email).find? fun added => added.attempt.imageReference.uuid = uuid

/-- The header of the profile tab shows what this call submitted. -/
def ShownInProfile (P : Platform) (added : Added) (header : ProfileHeader) : Prop :=
  ∃ form, added.attempt.form = .update form ∧
    header = ⟨.url (P.downloadURL added.attempt.imageReference), form.usernameTextField,
      form.bioTextField⟩

/-- The feed cell shows the username and the picture that this call submitted. -/
def ShownInFeed (P : Platform) (added : Added) (cell : FeedCell) : Prop :=
  ∃ form, added.attempt.form = .update form ∧ cell.userNameLabel = form.usernameTextField ∧
    cell.userProfileImage = .url (P.downloadURL added.attempt.imageReference)

/-- Both readers have received the current `Users` documents of the account, whatever they
showed before. -/
def ShownAfterSnapshot (P : Platform) (s : App) (email : String) (added : Added)
    (header : ProfileHeader) (cell : FeedCell) : Prop :=
  ShownInProfile P added (ProfileVC.getUserInfo header (.snapshot (s.profiles email))) ∧
    ShownInFeed P added (FeedVC.getUserInfo cell (.snapshot (s.profiles email)))

private theorem call_values {P : Platform} {added : Added} {form : UpdateForm}
    (hsnapshot : IsSnapshot P added) (hform : added.attempt.form = .update form) :
    added.document.string? "profileImageURL" =
        some (P.downloadURL added.attempt.imageReference) ∧
      added.document.string? "bio" = some form.bioTextField ∧
      added.document.string? "username" = some form.usernameTextField := by
  obtain ⟨email, stamp, -, hdocument⟩ := hsnapshot
  simp [hdocument, Document.string?_accepted, Attempt.submitted, hform, userInfo,
    List.lookup_cons, FieldValue.asString]

private theorem call_email {P : Platform} {added : Added} (hsnapshot : IsSnapshot P added)
    (email : String) :
    added.document.get "email" = some (.string email) ↔ added.attempt.session = some email := by
  obtain ⟨owner, stamp, hsession, hdocument⟩ := hsnapshot
  rw [hdocument, Document.get_accepted_string, hsession]
  cases hform : added.attempt.form <;>
    simp [Attempt.submitted, hform, firestorePost, userInfo, List.lookup_cons]

private theorem mem_profiles {P : Platform} {s : App} (hsnapshots : Snapshots P s)
    {email : String} {document : Document} :
    document ∈ s.profiles email ↔ ∃ added ∈ s.calls email, added.document = document := by
  unfold App.profiles App.users App.calls App.collection
  rw [mem_whereField]
  constructor
  · rintro ⟨hmem, hemail⟩
    obtain ⟨added, hadded, rfl⟩ := List.mem_map.mp hmem
    obtain ⟨hadded, hcollection⟩ := List.mem_filter.mp hadded
    have hsession := (call_email (hsnapshots.documents added hadded) email).mp hemail
    exact ⟨added, List.mem_filter.mpr ⟨hadded, by simpa [hsession] using hcollection⟩, rfl⟩
  · rintro ⟨added, hadded, rfl⟩
    obtain ⟨hadded, hcall⟩ := List.mem_filter.mp hadded
    simp only [decide_eq_true_eq] at hcall
    refine ⟨List.mem_map.mpr ⟨added, List.mem_filter.mpr ⟨hadded, by simp [hcall.1]⟩, rfl⟩, ?_⟩
    exact (call_email (hsnapshots.documents added hadded) email).mpr hcall.2

private theorem form_of_call {P : Platform} {s : App} (hstored : Stored P s) {email : String}
    {added : Added} (hadded : added ∈ s.calls email) :
    ∃ form, added.attempt.form = .update form := by
  obtain ⟨hmem, hcall⟩ := List.mem_filter.mp hadded
  simp only [decide_eq_true_eq] at hcall
  have hcollection := (hstored.written added hmem).1
  cases hform : added.attempt.form with
  | create form =>
      rw [hcall.1, hform] at hcollection
      simp [Form.collection] at hcollection
  | update form => exact ⟨form, rfl⟩

private theorem exists_shown {P : Platform} {s : App} (hsnapshots : Snapshots P s)
    (hstored : Stored P s) {email : String} {call : Added} (hcall : call ∈ s.calls email)
    (header : ProfileHeader) (cell : FeedCell) :
    ∃ shown ∈ s.calls email, ShownAfterSnapshot P s email shown header cell ∧
      ∀ other ∈ s.calls email, other.document.documentID ≤ shown.document.documentID := by
  have hne : s.profiles email ≠ [] :=
    List.ne_nil_of_mem ((mem_profiles hsnapshots).mpr ⟨call, hcall, rfl⟩)
  obtain ⟨shown, hshown, hlast⟩ := (mem_profiles hsnapshots).mp (List.getLast_mem hne)
  have hsplit := List.dropLast_concat_getLast hne
  rw [← hlast] at hsplit
  obtain ⟨form, hform⟩ := form_of_call hstored hshown
  obtain ⟨hurl, hbio, husername⟩ :=
    call_values (hsnapshots.documents shown (List.mem_of_mem_filter hshown)) hform
  have hprofile : ProfileVC.shownUser (s.profiles email) =
      some ⟨P.downloadURL shown.attempt.imageReference, form.bioTextField,
        form.usernameTextField⟩ := by
    rw [← hsplit, ProfileVC.shownUser, List.filterMap_append]
    simp [ProfileVC.decodeUser, hurl, hbio, husername]
  have hfeed : FeedVC.shownUser (s.profiles email) =
      some (form.usernameTextField, P.downloadURL shown.attempt.imageReference) := by
    rw [← hsplit, FeedVC.shownUser, List.filterMap_append]
    simp [FeedVC.decodeUser, hurl, husername]
  refine ⟨shown, hshown, ⟨⟨form, hform, ?_⟩, ⟨form, hform, ?_⟩⟩, ?_⟩
  · rw [ProfileVC.getUserInfo_snapshot, hprofile]
    rfl
  · rw [FeedVC.getUserInfo_snapshot, hfeed]
    exact ⟨rfl, rfl⟩
  · intro other hother
    have hmem := (mem_profiles hsnapshots).mpr ⟨other, hother, rfl⟩
    have hsorted := pairwise_whereField "email" email s.users
    change (s.profiles email).Pairwise Document.idOrder at hsorted
    rw [← hsplit] at hmem hsorted
    rcases List.mem_append.mp hmem with hmem | hmem
    · exact (List.pairwise_append.mp hsorted).2.2 _ hmem _ (List.mem_singleton_self _)
    · rw [List.mem_singleton.mp hmem]

private theorem call_eq_of_image {P : Platform} {s : App} (hdrawn : Drawn s) {email : String}
    {call other : Added} (hcall : call ∈ s.calls email) (hother : other ∈ s.calls email)
    (h : Picture.url (P.downloadURL call.attempt.imageReference) =
      .url (P.downloadURL other.attempt.imageReference)) : call = other := by
  have hreference := P.downloadURL_injective (Picture.url.inj h)
  exact List.inj_on_of_nodup_map hdrawn.documents_nodup (List.mem_of_mem_filter hcall)
    (List.mem_of_mem_filter hother) (by rw [hreference])

private theorem call_eq_of_id {s : App} (hids : IdsDistinct s) {email : String}
    {call other : Added} (hcall : call ∈ s.calls email) (hother : other ∈ s.calls email)
    (h : call.document.documentID = other.document.documentID) : call = other := by
  have husers {added : Added} (hadded : added ∈ s.calls email) : added ∈ s.collection "Users" := by
    obtain ⟨hmem, hcall⟩ := List.mem_filter.mp hadded
    simp only [decide_eq_true_eq] at hcall
    exact List.mem_filter.mpr ⟨hmem, by simp [hcall.1]⟩
  exact List.inj_on_of_nodup_map (hids "Users") (husers hcall) (husers hother) h

private theorem shown_iff_greatest {P : Platform} {s : App} (hsnapshots : Snapshots P s)
    (hstored : Stored P s) (hdrawn : Drawn s) (hids : IdsDistinct s) {email : String}
    {call : Added} (hcall : call ∈ s.calls email) (header : ProfileHeader) (cell : FeedCell) :
    ShownAfterSnapshot P s email call header cell ↔
      ∀ other ∈ s.calls email, other.document.documentID ≤ call.document.documentID := by
  obtain ⟨shown, hshown, hboth, hgreatest⟩ := exists_shown hsnapshots hstored hcall header cell
  constructor
  · intro h
    obtain ⟨-, form, -, -, hpicture⟩ := h
    obtain ⟨-, form', -, -, hpicture'⟩ := hboth
    obtain rfl := call_eq_of_image hdrawn hcall hshown (hpicture.symm.trans hpicture')
    exact hgreatest
  · intro h
    have hid := le_antisymm (hgreatest call hcall) (h shown hshown)
    obtain rfl := call_eq_of_id hids hcall hshown hid
    exact hboth

/-- In a run in which forms and accounts hold still during uploads, a snapshot taken after the
last call of an account makes both readers show that call if and only if Firestore gave its
document the greatest id of all documents of the account. -/
theorem last_call_shown_iff (P : Platform) (persisted : Option String) (events : List Event)
    (s : App) (hheld : (appMachine P).Meets FormHeld (.launch persisted) events)
    (hrun : (appMachine P).run (.launch persisted) events = .ok s)
    (email : String) (last : Added) (hlast : s.lastCall email = some last)
    (header : ProfileHeader) (cell : FeedCell) :
    ShownAfterSnapshot P s email last header cell ↔
      ∀ other ∈ s.calls email, other.document.documentID ≤ last.document.documentID := by
  obtain ⟨hdrawn, hstored⟩ := objects_of_run hrun
  obtain ⟨uuid, -, hfind⟩ := List.exists_of_findSome?_eq_some hlast
  exact shown_iff_greatest (snapshots_of_run hheld hrun) hstored hdrawn (idsDistinct_of_run hrun)
    (List.mem_of_find?_eq_some hfind) header cell

theorem last_call_shown_iff_in_order :
    ∃ s last, (appMachine .firebase).run (.launch none)
        (createProfile "A1" "d1" ++ editProfile "A2" "d2") = .ok s ∧
      s.lastCall "a@x" = some last ∧
      ShownAfterSnapshot .firebase s "a@x" last .storyboard .storyboard := by
  refine ⟨_, _, rfl, rfl, ?_⟩
  refine (last_call_shown_iff .firebase none (createProfile "A1" "d1" ++ editProfile "A2" "d2") _
    (by decide) rfl "a@x" _ rfl _ _).mpr ?_
  decide

/-- The second document gets the smaller id, and the profile goes on showing the first bio. -/
theorem edit_not_shown :
    (appMachine .firebase).Meets FormHeld (.launch none)
        (createProfile "A1" "d2" ++ editProfile "A2" "d1") ∧
      ∃ s last form, (appMachine .firebase).run (.launch none)
          (createProfile "A1" "d2" ++ editProfile "A2" "d1") = .ok s ∧
        s.lastCall "a@x" = some last ∧ last.attempt.form = .update form ∧
        form.bioTextField = "writer" ∧
        (ProfileVC.getUserInfo .storyboard (.snapshot (s.profiles "a@x"))).profileBioLabel =
          "reader" :=
  ⟨by decide, _, _, _, rfl, rfl, rfl, rfl, rfl⟩

end BookShelf
