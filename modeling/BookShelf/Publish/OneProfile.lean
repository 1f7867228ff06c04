import BookShelf.App.Firebase
import BookShelf.Publish.Steps

/-!
# How many profiles an account has

`updateProfile` always adds a document, whether the account has one or not. The documents of an
account and the additions that wait for an answer are counted together.
-/

namespace BookShelf

/-- The `Users` documents of an account, as its readers query them. -/
def App.profiles (s : App) (email : String) : List Document :=
  whereField "email" email s.users

/-- The request adds a `Users` document for this account. -/
def addsProfile (email : String) : Request → Bool
  | .addDocument attempt data =>
      attempt.form.collection = "Users" ∧ data.lookup "email" = some (.string email)
  | _ => false

/-- When the URL for a profile arrives, the account of the session has no profile and none
waiting for an answer. -/
def FirstProfile (s : App) (e : Event) : Prop :=
  ∀ attempt ∈ s.locating e, attempt.form.collection = "Users" → ∀ email ∈ s.currentUser,
    s.profiles email = [] ∧ Pending.unanswered (addsProfile email) s.requests = 0

instance (s : App) (e : Event) : Decidable (FirstProfile s e) :=
  inferInstanceAs (Decidable (∀ attempt ∈ s.locating e, _ → ∀ email ∈ s.currentUser, _ ∧ _))

def AtMostOneProfile (s : App) : Prop :=
  ∀ email, (s.profiles email).length + Pending.unanswered (addsProfile email) s.requests ≤ 1

theorem Document.get_accepted_string {data : Fields} {stamp : Stamp} {field value : String} :
    (Document.accepted data stamp).get field = some (.string value) ↔
      data.lookup field = some (.string value) := by
  rw [Document.get_accepted]
  cases data.lookup field with
  | none => simp
  | some v => cases v <;> simp

theorem App.profiles_length (s : App) (email : String) :
    (s.profiles email).length = s.documents.countP fun added =>
      added.document.get "email" = some (.string email) ∧ added.collection = "Users" := by
  unfold profiles users collection
  rw [(whereField_perm _ _ _).length_eq, ← List.countP_eq_length_filter, List.countP_map,
    List.countP_filter]
  simp

private theorem unanswered_uploads (s : App) (email : String) :
    Pending.unanswered (addsProfile email) s.uploads =
      Pending.unanswered (addsProfile email) s.requests := by
  apply Pending.unanswered_filter
  intro r hr
  cases r <;> simp [addsProfile, Request.isUpload, Request.attempt] at hr ⊢

private theorem addsProfile_fields {P : Platform} {attempt : Attempt} {ui : UI}
    {email owner : String}
    (h : addsProfile email (.addDocument attempt (attempt.fields P ui owner)) = true) :
    attempt.form.collection = "Users" ∧ owner = email := by
  simp only [addsProfile, decide_eq_true_eq] at h
  refine ⟨h.1, ?_⟩
  have hemail := h.2
  unfold Attempt.fields at hemail
  cases hform : attempt.form with
  | create form => simp [hform, Form.collection] at h
  | update form =>
      simp only [hform] at hemail
      simpa [userInfo, List.lookup_cons] using hemail

theorem atMostOneProfile_step {P : Platform} {s s' : App} {e : Event} (h : AtMostOneProfile s)
    (hfirst : FirstProfile s e) (hstep : PublishStep P s e s') : AtMostOneProfile s' := by
  intro email
  have hs := h email
  rw [App.profiles_length] at hs ⊢
  cases hstep with
  | idle huploads hstores =>
      have hle := Pending.unanswered_sublist (p := addsProfile email) huploads
      rw [unanswered_uploads, unanswered_uploads] at hle
      rw [hstores.2.1]
      omega
  | start attempt hstarts hrequests hstorage hdocuments huuids =>
      rw [hdocuments, hrequests, Pending.unanswered_post]
      simpa [addsProfile] using hs
  | stored k attempt hk hrequests hstorage hdocuments huuids =>
      have hsettle := Pending.unanswered_settle (p := addsProfile email) hk true
      rw [hdocuments, hrequests]
      omega
  | answered k r ok hk hr hrequests hstores =>
      have hsettle := Pending.unanswered_settle (p := addsProfile email) hk ok
      rw [hstores.2.1, hrequests]
      omega
  | added k attempt data stamp hevent hk hid hrequests hstorage hdocuments huuids =>
      have hsettle := Pending.unanswered_settle (p := addsProfile email) hk true
      rw [hdocuments, hrequests, List.countP_append, List.countP_singleton]
      simp only [Document.get_accepted_string, addsProfile] at hsettle ⊢
      grind
  | asked k attempt hk hrequests hstores =>
      have hle := Pending.unanswered_sublist (p := addsProfile email)
        (List.eraseIdx_sublist s.requests k)
      rw [hstores.2.1, hrequests, Pending.unanswered_post]
      simp only [addsProfile, Bool.false_eq_true, if_false]
      omega
  | written k attempt owner hevent hk huser hrequests hstores =>
      have hle := Pending.unanswered_sublist (p := addsProfile email)
        (List.eraseIdx_sublist s.requests k)
      rw [hstores.2.1, hrequests, Pending.unanswered_post]
      by_cases hadds : addsProfile email (.addDocument attempt (attempt.fields P s.ui owner)) = true
      · obtain ⟨hcollection, rfl⟩ := addsProfile_fields hadds
        subst hevent
        obtain ⟨hprofiles, hunanswered⟩ :=
          hfirst attempt (App.mem_locating.mpr ⟨k, rfl, hk⟩) hcollection owner huser
        have hzero := congrArg List.length hprofiles
        rw [App.profiles_length, List.length_nil] at hzero
        rw [hzero, if_pos hadds]
        omega
      · rw [if_neg hadds]
        omega

theorem atMostOneProfile_launch (persisted : Option String) :
    AtMostOneProfile (.launch persisted) := by
  intro email
  rw [App.profiles_length]
  simp [App.launch, Pending.unanswered]

/-- Answers and completions alone lead to a second profile. -/
def DoublesLater (P : Platform) (s : App) : Prop :=
  (appMachine P).CanEnd (fun e => e.fromService = true)
    (fun outcome => ∃ s' email, outcome = .ok s' ∧ 2 ≤ (s'.profiles email).length) s

private theorem doublesLater_of_profile {P : Platform} {s : App} {k : Nat} {attempt : Attempt}
    {email : String} (hk : s.requests[k]? = some ⟨.downloadURL attempt, some true⟩)
    (hcollection : attempt.form.collection = "Users") (huser : s.currentUser = some email)
    (hprofile : s.profiles email ≠ []) : DoublesLater P s := by
  obtain ⟨stamp, hid⟩ := exists_fresh_stamp s
  obtain ⟨s', hrun, hdocuments⟩ := run_deliver_add (P := P) hk huser hid
  refine ⟨_, by simp [Event.fromService], s', email, hrun, ?_⟩
  have hemail := attempt.fields_email P s.ui email
  have hone := List.length_pos_iff.mpr hprofile
  rw [App.profiles_length] at hone ⊢
  rw [hdocuments, List.countP_append, List.countP_singleton,
    if_pos (by simp [Document.get_accepted_string, hemail, hcollection])]
  omega

private theorem doublesLater_of_addition {P : Platform} {s : App} {j k : Nat} {r : Request}
    {attempt : Attempt} {email : String}
    (hk : s.requests[k]? = some ⟨.downloadURL attempt, some true⟩)
    (hcollection : attempt.form.collection = "Users") (huser : s.currentUser = some email)
    (hj : s.requests[j]? = some ⟨r, none⟩) (hadds : addsProfile email r = true) :
    DoublesLater P s := by
  cases r with
  | addDocument earlier data =>
      obtain ⟨stamp, hid⟩ := exists_fresh_stamp s
      simp only [addsProfile, decide_eq_true_eq] at hadds
      have hne : j ≠ k := by
        rintro rfl
        simp [hk] at hj
      have hstep := step_succeed_addDocument (P := P) hj hid
      refine .of_step hstep rfl (doublesLater_of_profile (k := k) ?_ hcollection huser ?_)
      · exact (List.getElem?_set_ne hne).trans hk
      · rw [← List.length_pos_iff, App.profiles_length, List.countP_append, List.countP_singleton,
          if_pos (by simp [Document.get_accepted_string, hadds.1, hadds.2])]
        omega
  | _ => cases hadds

private theorem doublesLater_of_not_first {P : Platform} {s : App} {k : Nat}
    (hnot : ¬ FirstProfile s (.deliver k)) : DoublesLater P s := by
  unfold FirstProfile at hnot
  push Not at hnot
  obtain ⟨attempt, hattempt, hcollection, email, huser, hnot⟩ := hnot
  obtain ⟨_, ⟨⟩, hk⟩ := App.mem_locating.mp hattempt
  by_cases hprofile : s.profiles email = []
  · obtain ⟨j, r, hj, hadds⟩ := Pending.exists_of_unanswered (hnot hprofile)
    exact doublesLater_of_addition hk hcollection huser hj hadds
  · exact doublesLater_of_profile hk hcollection huser hprofile

/-- In a run in which each URL for a profile arrives while the account of the session has
neither a profile nor one on its way, no account ever has two. Any other arrival leaves it to
the services to make a second one. -/
theorem one_profile_per_account (P : Platform) (persisted : Option String) (events : List Event)
    (s : App) (hfirst : (appMachine P).Meets FirstProfile (.launch persisted) events)
    (hrun : (appMachine P).run (.launch persisted) events = .ok s) :
    (∀ email, (s.profiles email).length ≤ 1) ∧
      ∀ k, ¬ FirstProfile s (.deliver k) → DoublesLater P s := by
  refine ⟨?_, fun k hnot => doublesLater_of_not_first hnot⟩
  intro email
  have hinv := Machine.run_induction_of_meets
    (fun _ _ _ h hc hstep => atMostOneProfile_step (P := P) h hc (PublishStep.of_step hstep))
    (atMostOneProfile_launch persisted) hfirst hrun
  exact (Nat.le_add_right _ _).trans (hinv email)

/-- Tap Done and wait for the document. -/
def publishProfile (uuid id : String) (date : Nat) : List Event :=
  [.doneBtnPressed uuid, .succeed 0 ⟨"", 0⟩, .deliver 0, .succeed 0 ⟨"", 0⟩, .deliver 0,
    .succeed 0 ⟨id, date⟩, .deliver 0]

/-- A new account signs up and creates its profile. -/
def createProfile (uuid id : String) : List Event :=
  [.ui (.segue .signUp), .ui (.editCredentials "a@x" "pw"), .signUpBtn, .succeed 0 ⟨"", 0⟩,
    .deliver 0, .succeed 0 ⟨"", 0⟩, .deliver 0, .ui (.editProfileFields "ann" "reader")] ++
    publishProfile uuid id 1

/-- The bio is edited later on. -/
def editProfile (uuid id : String) : List Event :=
  [.openTab .profile, .ui .editBtnPressed, .ui (.editProfileFields "ann" "writer")] ++
    publishProfile uuid id 2

theorem one_profile_per_account_first :
    ∃ s, (appMachine .firebase).run (.launch none) (createProfile "A1" "d1") = .ok s ∧
      (s.profiles "a@x").length = 1 ∧ ∀ email, (s.profiles email).length ≤ 1 :=
  ⟨_, rfl, rfl,
    (one_profile_per_account .firebase none (createProfile "A1" "d1") _ (by decide) rfl).1⟩

theorem edited_profile_is_doubled :
    ∃ s, (appMachine .firebase).run (.launch none)
        (createProfile "A1" "d1" ++ editProfile "A2" "d2") = .ok s ∧
      (s.profiles "a@x").length = 2 :=
  ⟨_, rfl, rfl⟩

end BookShelf
