import BookShelf.App.Firebase
import BookShelf.Publish.Steps

/-!
# How often a composer publishes

Share and the done item start an attempt at every tap. The posts of a composer and its attempts
that may still add one are counted together.
-/

namespace BookShelf

/-- The attempt is one of this composer to share its form. -/
def Attempt.shares (attempt : Attempt) (self : Screen) : Bool :=
  attempt.form.collection = "Post" && attempt.self = self

/-- The request may still lead to a post of this composer. -/
def owesPost (self : Screen) (x : Pending Request) : Bool :=
  (owes x).any fun attempt => attempt.shares self

namespace App

/-- The number of posts that a composer has added. -/
def composed (s : App) (self : Screen) : Nat :=
  s.documents.countP fun added => added.collection = "Post" && added.attempt.self = self

/-- The composer whose attempt to share the event starts. -/
def sharing (P : Platform) (s : App) : Event → Option Screen
  | .shareBtnPressed uuid =>
      (s.ui.topOf .create).filter fun self =>
        ((s.ui.createForms self.id).imageView.bind P.jpegData).isSome && !s.uuids.contains uuid
  | _ => none

end App

/-- A composer starts an attempt only when none of its attempts has added a post or may still
add one. -/
def SharesOnce (P : Platform) (s : App) (e : Event) : Prop :=
  ∀ self ∈ s.sharing P e, s.composed self = 0 ∧ s.requests.countP (owesPost self) = 0

instance (P : Platform) (s : App) (e : Event) : Decidable (SharesOnce P s e) :=
  inferInstanceAs (Decidable (∀ self ∈ s.sharing P e, _ ∧ _))

def AtMostOnePost (s : App) : Prop :=
  ∀ self, s.composed self + s.requests.countP (owesPost self) ≤ 1

theorem Attempt.shares_iff {attempt : Attempt} {self : Screen} :
    attempt.shares self = true ↔ attempt.form.collection = "Post" ∧ attempt.self = self := by
  simp [shares]

theorem owesPost_iff {self : Screen} {x : Pending Request} :
    owesPost self x = true ↔ ∃ attempt, owes x = some attempt ∧ attempt.shares self = true := by
  unfold owesPost
  cases owes x <;> simp

section

variable (self : Screen) (attempt : Attempt) (data : Fields)

theorem owesPost_putData {answer : Option Bool} (h : answer ≠ some false) :
    owesPost self ⟨.putData attempt, answer⟩ = attempt.shares self := by
  simp [owesPost, owes, h]

theorem owesPost_downloadURL {answer : Option Bool} (h : answer ≠ some false) :
    owesPost self ⟨.downloadURL attempt, answer⟩ = attempt.shares self := by
  simp [owesPost, owes, h]

theorem owesPost_addDocument :
    owesPost self ⟨.addDocument attempt data, none⟩ = attempt.shares self := by
  simp [owesPost, owes]

theorem owesPost_added : owesPost self ⟨.addDocument attempt data, some true⟩ = false := by
  simp [owesPost, owes]

theorem owesPost_failed (r : Request) : owesPost self ⟨r, some false⟩ = false := by
  cases r <;> simp [owesPost, owes]

end

theorem App.mem_sharing {P : Platform} {s : App} {e : Event} {self : Screen} :
    self ∈ s.sharing P e ↔ ∃ attempt, s.Starts P e attempt ∧ attempt.shares self := by
  constructor
  · intro h
    cases e with
    | shareBtnPressed uuid =>
        obtain ⟨htop, hstarts⟩ := Option.filter_eq_some_iff.mp h
        obtain ⟨htop, hkind⟩ := UI.topOf_eq_some.mp htop
        rw [Bool.and_eq_true, Option.isSome_iff_exists] at hstarts
        obtain ⟨⟨data, hdata⟩, huuid⟩ := hstarts
        refine ⟨⟨self, .create (s.ui.createForms self.id), s.currentUser, data, ⟨"media", uuid⟩⟩,
          ⟨rfl, htop, .create hkind, rfl, hdata, rfl, by simpa using huuid⟩, ?_⟩
        simp [Attempt.shares, Form.collection]
    | _ => cases h
  · rintro ⟨attempt, hstarts, hshares⟩
    obtain ⟨hcollection, rfl⟩ := Attempt.shares_iff.mp hshares
    have htapped := hstarts.tapped
    have hjpeg := hstarts.jpeg
    have hfresh := hstarts.fresh
    have hsubmits := hstarts.submits
    cases hform : attempt.form with
    | update form => simp [hform, Form.collection] at hcollection
    | create form =>
        rw [hform] at hjpeg hsubmits
        cases hsubmits with
        | create hkind =>
            rw [Attempt.tap, hform] at htapped
            rw [htapped]
            apply Option.filter_eq_some_iff.mpr
            refine ⟨UI.topOf_eq_some.mpr ⟨hstarts.top, hkind⟩, ?_⟩
            have hdata : (s.ui.createForms attempt.self.id).imageView.bind P.jpegData =
                some attempt.data := hjpeg
            simp [hdata, hfresh]

variable {P : Platform} {s s' : App} {e : Event}

private theorem countP_uploads (s : App) (self : Screen) :
    s.uploads.countP (owesPost self) = s.requests.countP (owesPost self) := by
  unfold App.uploads
  rw [List.countP_filter]
  apply List.countP_congr
  intro x _
  obtain ⟨r, answer⟩ := x
  cases r <;> simp [owesPost, owes, Request.isUpload, Request.attempt]

theorem atMostOnePost_step (h : AtMostOnePost s) (honce : SharesOnce P s e)
    (hstep : PublishStep P s e s') : AtMostOnePost s' := by
  intro self
  have hs := h self
  unfold App.composed at hs ⊢
  cases hstep with
  | idle huploads hstores =>
      have hle := huploads.countP_le (p := owesPost self)
      rw [countP_uploads, countP_uploads] at hle
      rw [hstores.2.1]
      omega
  | start attempt hstarts hrequests hstorage hdocuments huuids =>
      rw [hdocuments, hrequests, Pending.countP_post, owesPost_putData self attempt (by simp)]
      by_cases hshares : attempt.shares self = true
      · have hnone := honce self (App.mem_sharing.mpr ⟨attempt, hstarts, hshares⟩)
        unfold App.composed at hnone
        rw [if_pos hshares]
        omega
      · rw [if_neg hshares]
        omega
  | stored k attempt hk hrequests hstorage hdocuments huuids =>
      have hsettle := Pending.countP_settle (p := owesPost self) hk (.putData attempt) true
      rw [owesPost_putData self attempt (by simp), owesPost_putData self attempt (by simp)]
        at hsettle
      rw [hdocuments, hrequests]
      omega
  | answered k r ok hk hr hrequests hstores =>
      have hsettle := Pending.countP_settle (p := owesPost self) hk r ok
      rw [hstores.2.1, hrequests]
      cases ok with
      | false =>
          rw [owesPost_failed] at hsettle
          simp only [Bool.false_eq_true, if_false] at hsettle
          omega
      | true =>
          obtain ⟨attempt, rfl⟩ := hr.resolve_right (by simp)
          rw [owesPost_downloadURL self attempt (by simp),
            owesPost_downloadURL self attempt (by simp)] at hsettle
          omega
  | added k attempt data stamp hevent hk hid hrequests hstorage hdocuments huuids =>
      have hsettle := Pending.countP_settle (p := owesPost self) hk (.addDocument attempt data) true
      rw [owesPost_addDocument, owesPost_added] at hsettle
      rw [hdocuments, hrequests, List.countP_append, List.countP_singleton]
      simp only [Attempt.shares] at hsettle ⊢
      grind
  | asked k attempt hk hrequests hstores =>
      have herase := Pending.countP_erase (p := owesPost self) hk
      rw [owesPost_putData self attempt (by simp)] at herase
      rw [hstores.2.1, hrequests, Pending.countP_post, owesPost_downloadURL self attempt (by simp)]
      omega
  | written k attempt owner hevent hk huser hrequests hstores =>
      have herase := Pending.countP_erase (p := owesPost self) hk
      rw [owesPost_downloadURL self attempt (by simp)] at herase
      rw [hstores.2.1, hrequests, Pending.countP_post, owesPost_addDocument]
      omega

theorem atMostOnePost_launch (persisted : Option String) : AtMostOnePost (.launch persisted) := by
  intro self
  simp [App.launch, App.composed]

/-- What driving one attempt to its document leaves: the document, the session and the other
requests. -/
def Publishes (attempt : Attempt) (documents : List Added) (user : Option String)
    (others : List (Pending Request)) (outcome : Except Trap App) : Prop :=
  ∃ s' added, outcome = .ok s' ∧ s'.documents = documents ++ [added] ∧ added.attempt = attempt ∧
    added.collection = attempt.form.collection ∧ s'.currentUser = user ∧ others ⊆ s'.requests

section

variable {k : Nat} {attempt : Attempt} {email : String}

private theorem canPublish_addDocument {data : Fields}
    (hk : s.requests[k]? = some ⟨.addDocument attempt data, none⟩) :
    (appMachine P).CanEnd (fun e => e.fromService = true)
      (Publishes attempt s.documents s.currentUser (s.requests.eraseIdx k)) s := by
  obtain ⟨stamp, hid⟩ := exists_fresh_stamp s
  have hstep := step_succeed_addDocument (P := P) hk hid
  refine ⟨[.succeed k stamp], by simp [Event.fromService], ?_⟩
  rw [Machine.run_cons_of_step hstep]
  refine ⟨_, _, rfl, rfl, rfl, rfl, rfl, ?_⟩
  have herase := Pending.eraseIdx_settle s.requests k (.addDocument attempt data) true
  rw [← herase]
  exact List.eraseIdx_subset

private theorem canPublish_located (huser : s.currentUser = some email)
    (hk : s.requests[k]? = some ⟨.downloadURL attempt, some true⟩) :
    (appMachine P).CanEnd (fun e => e.fromService = true)
      (Publishes attempt s.documents s.currentUser (s.requests.eraseIdx k)) s := by
  have hposted := Pending.getElem?_post (s.requests.eraseIdx k)
    (.addDocument attempt (attempt.fields P s.ui email))
  have hpublish := canPublish_addDocument (P := P) (s := { s with
    ui := attempt.clearedUI s.ui
    requests := Pending.post (s.requests.eraseIdx k)
      (.addDocument attempt (attempt.fields P s.ui email)) }) hposted
  rw [Pending.eraseIdx_post] at hpublish
  exact .of_step (step_deliver_downloadURL hk huser) rfl hpublish

private theorem canPublish_downloadURL (huser : s.currentUser = some email)
    {answer : Option Bool} (hanswer : answer ≠ some false)
    (hk : s.requests[k]? = some ⟨.downloadURL attempt, answer⟩) :
    (appMachine P).CanEnd (fun e => e.fromService = true)
      (Publishes attempt s.documents s.currentUser (s.requests.eraseIdx k)) s := by
  match answer with
  | some true => exact canPublish_located huser hk
  | none =>
      have hpublish := canPublish_located (P := P) (s := { s with
        requests := Pending.settle s.requests k (.downloadURL attempt) true }) huser
        (Pending.getElem?_settle hk _ true)
      rw [Pending.eraseIdx_settle] at hpublish
      exact .of_step (step_succeed_downloadURL hk ⟨"", 0⟩) rfl hpublish

private theorem canPublish_stored (huser : s.currentUser = some email)
    (hk : s.requests[k]? = some ⟨.putData attempt, some true⟩) :
    (appMachine P).CanEnd (fun e => e.fromService = true)
      (Publishes attempt s.documents s.currentUser (s.requests.eraseIdx k)) s := by
  have hposted := Pending.getElem?_post (s.requests.eraseIdx k) (.downloadURL attempt)
  have hpublish := canPublish_downloadURL (P := P) (s := { s with
    requests := Pending.post (s.requests.eraseIdx k) (.downloadURL attempt) }) huser (by simp)
    hposted
  rw [Pending.eraseIdx_post] at hpublish
  exact .of_step (step_deliver_putData hk) rfl hpublish

private theorem canPublish_putData (huser : s.currentUser = some email)
    {answer : Option Bool} (hanswer : answer ≠ some false)
    (hk : s.requests[k]? = some ⟨.putData attempt, answer⟩) :
    (appMachine P).CanEnd (fun e => e.fromService = true)
      (Publishes attempt s.documents s.currentUser (s.requests.eraseIdx k)) s := by
  match answer with
  | some true => exact canPublish_stored huser hk
  | none =>
      have hpublish := canPublish_stored (P := P) (s := { s with
        requests := Pending.settle s.requests k (.putData attempt) true
        storage := Function.update s.storage attempt.imageReference (some attempt.data) }) huser
        (Pending.getElem?_settle hk _ true)
      rw [Pending.eraseIdx_settle] at hpublish
      exact .of_step (step_succeed_putData hk ⟨"", 0⟩) rfl hpublish

/-- While somebody is signed in, the services can bring every attempt that owes its document to
it, and need not touch the other requests for that. -/
theorem canPublish_of_owes (huser : s.currentUser = some email) {x : Pending Request}
    (hk : s.requests[k]? = some x) (howes : owes x = some attempt) :
    (appMachine P).CanEnd (fun e => e.fromService = true)
      (Publishes attempt s.documents s.currentUser (s.requests.eraseIdx k)) s := by
  obtain ⟨r, answer⟩ := x
  rcases owes_eq_some.mp howes with ⟨hanswer, rfl | rfl⟩ | ⟨rfl, data, rfl⟩
  · exact canPublish_putData huser hanswer hk
  · exact canPublish_downloadURL huser hanswer hk
  · exact canPublish_addDocument hk

end

/-- Answers and completions alone lead to a second post of the composer. -/
def PublishesTwiceLater (P : Platform) (self : Screen) (s : App) : Prop :=
  (appMachine P).CanEnd (fun e => e.fromService = true)
    (fun outcome => ∃ s', outcome = .ok s' ∧ 2 ≤ s'.composed self) s

private theorem composed_of_publishes {self : Screen} {attempt : Attempt}
    {others : List (Pending Request)} {outcome : Except Trap App}
    (h : Publishes attempt s.documents s.currentUser others outcome)
    (hshares : attempt.shares self = true) :
    ∃ s', outcome = .ok s' ∧ s'.composed self = s.composed self + 1 ∧
      s'.currentUser = s.currentUser ∧ others ⊆ s'.requests := by
  obtain ⟨s', added, rfl, hdocuments, hattempt, hcollection, huser, hothers⟩ := h
  obtain ⟨hpost, hself⟩ := Attempt.shares_iff.mp hshares
  refine ⟨s', rfl, ?_, huser, hothers⟩
  unfold App.composed
  rw [hdocuments, List.countP_append, List.countP_singleton, hattempt, hcollection]
  simp [hpost, hself]

private theorem publishesTwice_of_owes (attempt : Attempt) {self : Screen} {k : Nat}
    {x : Pending Request} {email : String} (huser : s.currentUser = some email)
    (hk : s.requests[k]? = some x) (howes : owes x = some attempt)
    (hshares : attempt.shares self = true) (hcomposed : 1 ≤ s.composed self) :
    PublishesTwiceLater P self s := by
  refine (canPublish_of_owes huser hk howes).mono ?_
  intro outcome hpublishes
  obtain ⟨s', houtcome, hcount, -, -⟩ := composed_of_publishes hpublishes hshares
  exact ⟨s', houtcome, by omega⟩

private theorem publishesTwice_of_not_once {email : String} (huser : s.currentUser = some email)
    (hnot : ¬ SharesOnce P s e) :
    ∃ s' self, (appMachine P).step s e = .ok s' ∧ PublishesTwiceLater P self s' := by
  unfold SharesOnce at hnot
  push Not at hnot
  obtain ⟨self, hself, hcount⟩ := hnot
  obtain ⟨attempt, hstarts, hshares⟩ := App.mem_sharing.mp hself
  refine ⟨_, self, step_of_starts hstarts, ?_⟩
  have hposted := Pending.getElem?_post s.requests (.putData attempt)
  by_cases hcomposed : s.composed self = 0
  · obtain ⟨x, hx, howes⟩ := List.countP_pos_iff.mp (Nat.pos_of_ne_zero (hcount hcomposed))
    obtain ⟨other, howes, hother⟩ := owesPost_iff.mp howes
    obtain ⟨j, hj⟩ := List.mem_iff_getElem?.mp hx
    have hlt := (List.getElem?_eq_some_iff.mp hj).1
    have hj' : (Pending.post s.requests (.putData attempt))[j]? = some x := by
      rw [Pending.post, List.getElem?_append_left hlt]
      exact hj
    refine (canPublish_of_owes (P := P) (s := { s.request (.putData attempt) with
      uuids := attempt.imageReference.uuid :: s.uuids }) huser hj' howes).trans ?_
    intro outcome hpublishes
    obtain ⟨s', rfl, hcount', huser', hothers⟩ := composed_of_publishes hpublishes hother
    refine ⟨s', rfl, ?_⟩
    have hmem : ⟨.putData attempt, none⟩ ∈
        (Pending.post s.requests (.putData attempt)).eraseIdx j := by
      rw [Pending.post, List.eraseIdx_append_of_lt_length hlt]
      simp
    obtain ⟨k, hk⟩ := List.mem_iff_getElem?.mp (hothers hmem)
    exact publishesTwice_of_owes attempt (huser'.trans huser) hk (by simp [owes])
      hshares (by omega)
  · exact publishesTwice_of_owes attempt huser hposted (by simp [owes]) hshares
      (Nat.one_le_iff_ne_zero.mpr hcomposed)

/-- In a run in which a composer starts an attempt only when none of its earlier ones has added
a post or may still add one, no composer ever adds two posts. Any other attempt, while somebody
is signed in, leaves it to the services to add a second one. -/
theorem composer_publishes_once (P : Platform) (persisted : Option String) (events : List Event)
    (s : App) (honce : (appMachine P).Meets (SharesOnce P) (.launch persisted) events)
    (hrun : (appMachine P).run (.launch persisted) events = .ok s) :
    (∀ self, s.composed self ≤ 1) ∧
      ∀ e, ¬ SharesOnce P s e → s.currentUser ≠ none →
        ∃ s' self, (appMachine P).step s e = .ok s' ∧ PublishesTwiceLater P self s' := by
  constructor
  · intro self
    have hinv := Machine.run_induction_of_meets
      (fun _ _ _ h hc hstep => atMostOnePost_step (P := P) h hc (PublishStep.of_step hstep))
      (atMostOnePost_launch persisted) honce hrun
    exact (Nat.le_add_right _ _).trans (hinv self)
  · intro e hnot hsession
    obtain ⟨email, huser⟩ := Option.ne_none_iff_exists'.mp hsession
    exact publishesTwice_of_not_once huser hnot

/-- The first attempt fails before the second one starts. -/
private def shareAgain : List Event :=
  [.ui .addBtnPressed, .shareBtnPressed "A1", .fail 0, .shareBtnPressed "A2", .deliver 0,
    .succeed 0 ⟨"", 0⟩, .deliver 0, .succeed 0 ⟨"", 0⟩, .deliver 0, .succeed 0 ⟨"p1", 1⟩]

theorem composer_publishes_once_retried :
    ∃ s, (appMachine .firebase).run (.launch (some "a@x")) shareAgain = .ok s ∧
      s.composed ⟨1, .create⟩ = 1 ∧ ∀ self, s.composed self ≤ 1 :=
  ⟨_, rfl, rfl, (composer_publishes_once .firebase (some "a@x") shareAgain _ (by decide) rfl).1⟩

/-- Two taps before the first upload has ended. -/
theorem composer_publishes_twice :
    ∃ s, (appMachine .firebase).run (.launch (some "a@x"))
        [.ui .addBtnPressed, .shareBtnPressed "A1", .shareBtnPressed "A2", .succeed 0 ⟨"", 0⟩,
          .succeed 1 ⟨"", 0⟩, .deliver 0, .deliver 0, .succeed 0 ⟨"", 0⟩, .succeed 1 ⟨"", 0⟩,
          .deliver 0, .deliver 0, .succeed 0 ⟨"p1", 1⟩, .succeed 1 ⟨"p2", 2⟩] = .ok s ∧
      s.composed ⟨1, .create⟩ = 2 :=
  ⟨_, rfl, rfl⟩

end BookShelf
