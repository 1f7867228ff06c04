import BookShelf.App.Effects
import BookShelf.App.Firebase

/-!
# Failed shares

An attempt to share that fails, with nothing else going on. Only some of the stages report the
failure, and one of them rewrites the caption before it can fail.
-/

namespace BookShelf

/-- The service that fails an attempt, if its picture can be encoded. -/
inductive Failure
  | putData
  | downloadURL
  | addDocument
deriving DecidableEq, Repr

/-- Tap Share and let the services answer the attempt, whose request is always the last one of
`n + 1`; the one named fails. -/
def failedShare (n : Nat) (uuid : String) : Failure → List Event
  | .putData => [.shareBtnPressed uuid, .fail n, .deliver n]
  | .downloadURL => [.shareBtnPressed uuid, .succeed n ⟨"", 0⟩, .deliver n, .fail n, .deliver n]
  | .addDocument => [.shareBtnPressed uuid, .succeed n ⟨"", 0⟩, .deliver n, .succeed n ⟨"", 0⟩,
      .deliver n, .fail n, .deliver n]

/-- An error alert has come up over the screens, and the form of `self` is as it was. -/
def Reported (self : Screen) (s s' : App) : Prop :=
  (∃ alert, alert.kind = .alert ∧ s'.ui.screens.chain = alert :: s.ui.screens.chain) ∧
    s'.ui.createForms self.id = s.ui.createForms self.id

/-- A failed attempt is over: apart from the stored object only the screens can have changed. -/
structure Failed (s : App) (uuid : String) (ui : UI) (s' : App) : Prop where
  ui : s'.ui = ui
  requests : s'.requests = s.requests
  currentUser : s'.currentUser = s.currentUser
  uuids : ∀ drawn ∈ s'.uuids, drawn = uuid ∨ drawn ∈ s.uuids

section

variable {P : Platform} {s : App} (pool : List (Pending Request)) {r : Request}

theorem run_fail_deliver (hrequests : s.requests = Pending.post pool r) (es : List Event) :
    (appMachine P).run s (.fail pool.length :: .deliver pool.length :: es) =
      match App.complete P { s with requests := pool } false r with
      | .ok s' => (appMachine P).run s' es
      | .error trap => .error trap := by
  have hlast := Pending.getElem?_post pool r
  have hsettled := Pending.getElem?_settle hlast r false
  rw [← hrequests] at hlast
  rw [Machine.run_cons_of_step (step_fail hlast), hrequests]
  simp only [Machine.run, appMachine, App.deliver, hsettled, Pending.eraseIdx_settle_post]
  cases App.complete P { s with requests := pool } false r <;> rfl

theorem run_succeed_deliver (hrequests : s.requests = Pending.post pool r) (s₁ : App)
    (stamp : Stamp) (haccept : s.accept pool.length r stamp =
      { s₁ with requests := Pending.settle (Pending.post pool r) pool.length r true })
    (es : List Event) :
    (appMachine P).run s (.succeed pool.length stamp :: .deliver pool.length :: es) =
      match App.complete P { s₁ with requests := pool } true r with
      | .ok s' => (appMachine P).run s' es
      | .error trap => .error trap := by
  have hlast := Pending.getElem?_post pool r
  have hsettled := Pending.getElem?_settle hlast r true
  rw [← hrequests] at hlast
  rw [Machine.run_cons_of_step (step_succeed hlast stamp), haccept]
  simp only [Machine.run, appMachine, App.deliver, hsettled, Pending.eraseIdx_settle_post]
  cases App.complete P { s₁ with requests := pool } true r <;> rfl

end

section

variable {P : Platform} {s : App} {self : Screen} {uuid : String}

theorem run_failedShare_unencodable (uuid : String) (htop : s.ui.topOf .create = some self)
    (hjpeg : (s.ui.createForms self.id).imageView.bind P.jpegData = none) (failure : Failure) :
    ∃ s', (appMachine P).run s (failedShare s.requests.length uuid failure) = .ok s' ∧
      Failed s uuid s.ui s' := by
  refine ⟨s, ?_, rfl, rfl, rfl, fun _ h => .inr h⟩
  cases failure <;>
    simp [failedShare, Machine.run, appMachine, CreateVC.shareBtnPressed, htop, hjpeg, App.fail,
      App.succeed, App.deliver]

/-- The attempt that the tap starts. -/
def shareAttempt (s : App) (self : Screen) (data : Data) (uuid : String) : Attempt :=
  ⟨self, .create (s.ui.createForms self.id), s.currentUser, data, ⟨"media", uuid⟩⟩

theorem step_share (htop : s.ui.topOf .create = some self) {data : Data}
    (hjpeg : (s.ui.createForms self.id).imageView.bind P.jpegData = some data)
    (huuid : uuid ∉ s.uuids) :
    (appMachine P).step s (.shareBtnPressed uuid) = .ok
      { s.request (.putData (shareAttempt s self data uuid)) with uuids := uuid :: s.uuids } := by
  simp only [appMachine, CreateVC.shareBtnPressed, htop, hjpeg, App.startUpload, if_neg huuid]
  rfl

theorem run_failedShare_putData (htop : s.ui.topOf .create = some self) {data : Data}
    (hjpeg : (s.ui.createForms self.id).imageView.bind P.jpegData = some data)
    (huuid : uuid ∉ s.uuids) :
    ∃ s', (appMachine P).run s (failedShare s.requests.length uuid .putData) = .ok s' ∧
      Failed s uuid (s.ui.present self .alert) s' := by
  rw [failedShare, Machine.run_cons_of_step (step_share htop hjpeg huuid),
    run_fail_deliver s.requests rfl]
  exact ⟨_, rfl, rfl, rfl, rfl, fun _ h => List.mem_cons.mp h⟩

theorem run_share_stored (htop : s.ui.topOf .create = some self) {data : Data}
    (hjpeg : (s.ui.createForms self.id).imageView.bind P.jpegData = some data)
    (huuid : uuid ∉ s.uuids) (es : List Event) :
    ∃ storage, (appMachine P).run s (.shareBtnPressed uuid :: .succeed s.requests.length ⟨"", 0⟩ ::
        .deliver s.requests.length :: es) =
      (appMachine P).run
        { s.request (.downloadURL (shareAttempt s self data uuid)) with
          uuids := uuid :: s.uuids, storage := storage } es := by
  refine ⟨Function.update s.storage ⟨"media", uuid⟩ (some data), ?_⟩
  rw [Machine.run_cons_of_step (step_share htop hjpeg huuid),
    run_succeed_deliver s.requests rfl { s with
      uuids := uuid :: s.uuids
      storage := Function.update s.storage ⟨"media", uuid⟩ (some data) } ⟨"", 0⟩ rfl]
  rfl

theorem run_failedShare_downloadURL (htop : s.ui.topOf .create = some self) {data : Data}
    (hjpeg : (s.ui.createForms self.id).imageView.bind P.jpegData = some data)
    (huuid : uuid ∉ s.uuids) :
    ∃ s', (appMachine P).run s (failedShare s.requests.length uuid .downloadURL) = .ok s' ∧
      Failed s uuid s.ui s' := by
  obtain ⟨storage, hstored⟩ := run_share_stored htop hjpeg huuid
    [.fail s.requests.length, .deliver s.requests.length]
  rw [failedShare, hstored, run_fail_deliver s.requests rfl]
  exact ⟨_, rfl, rfl, rfl, rfl, fun _ h => List.mem_cons.mp h⟩

theorem run_share_located (htop : s.ui.topOf .create = some self) {data : Data}
    (hjpeg : (s.ui.createForms self.id).imageView.bind P.jpegData = some data)
    (huuid : uuid ∉ s.uuids) :
    ∃ storage, (appMachine P).run s (failedShare s.requests.length uuid .addDocument) =
      match s.currentUser with
      | none => .error .shareDownloadURL
      | some email =>
          (appMachine P).run
            ({ s with
              ui := s.ui.setCreateForm self (CreateVC.clearPlaceholder (s.ui.createForms self.id))
              uuids := uuid :: s.uuids
              storage := storage }.request (.addDocument (shareAttempt s self data uuid)
                ((shareAttempt s self data uuid).fields P s.ui email)))
            [.fail s.requests.length, .deliver s.requests.length] := by
  obtain ⟨storage, hstored⟩ := run_share_stored htop hjpeg huuid
    [.succeed s.requests.length ⟨"", 0⟩, .deliver s.requests.length, .fail s.requests.length,
      .deliver s.requests.length]
  refine ⟨storage, ?_⟩
  rw [failedShare, hstored, run_succeed_deliver s.requests rfl { s with
      uuids := uuid :: s.uuids
      storage := storage } ⟨"", 0⟩ rfl]
  simp only [App.complete, Attempt.gotURL_true]
  cases s.currentUser <;> rfl

/-- A document that is not added is reported, but the caption has been rewritten by then. -/
theorem run_failedShare_addDocument (htop : s.ui.topOf .create = some self) {data : Data}
    (hjpeg : (s.ui.createForms self.id).imageView.bind P.jpegData = some data)
    (huuid : uuid ∉ s.uuids) {email : String} (huser : s.currentUser = some email) :
    ∃ s', (appMachine P).run s (failedShare s.requests.length uuid .addDocument) = .ok s' ∧
      Failed s uuid ((s.ui.setCreateForm self
        (CreateVC.clearPlaceholder (s.ui.createForms self.id))).present self .alert) s' := by
  obtain ⟨storage, hlocated⟩ := run_share_located htop hjpeg huuid
  rw [hlocated, huser]
  dsimp only
  rw [run_fail_deliver s.requests rfl]
  exact ⟨_, rfl, rfl, rfl, huser ▸ rfl, fun _ h => List.mem_cons.mp h⟩

end

/-- The failure is reported and leaves the form alone: the upload fails, or the document is not
added and the caption is not the placeholder. -/
def Reportable (P : Platform) (s : App) (self : Screen) (failure : Failure) : Prop :=
  (s.ui.createForms self.id).imageView.bind P.jpegData ≠ none ∧
    (failure = .putData ∨ failure = .addDocument ∧
      (s.ui.createForms self.id).captionTextView ≠ captionPlaceholder ∧ s.currentUser ≠ none)

instance (P : Platform) (s : App) (self : Screen) (failure : Failure) :
    Decidable (Reportable P s self failure) :=
  inferInstanceAs (Decidable (_ ∧ (_ ∨ _ ∧ _ ∧ _)))

section

variable {P : Platform} {s s' : App} {self : Screen} {uuid : String}

theorem Failed.not_reported (h : Failed s uuid s.ui s') : ¬ Reported self s s' := by
  rintro ⟨⟨alert, -, hchain⟩, -⟩
  rw [h.ui] at hchain
  exact List.cons_ne_self _ _ hchain.symm

private theorem present_alert_chain (htop : s.ui.topOf .create = some self) :
    (s.ui.present self .alert).screens.chain =
      ⟨s.ui.screens.fresh, .alert⟩ :: s.ui.screens.chain := by
  obtain ⟨htop, hkind⟩ := UI.topOf_eq_some.mp htop
  exact Presentation.present_chain htop (by rw [hkind]; rfl)

theorem Failed.reported_iff {form : CreateForm} (htop : s.ui.topOf .create = some self)
    (h : Failed s uuid ((s.ui.setCreateForm self form).present self .alert) s') :
    Reported self s s' ↔ form = s.ui.createForms self.id := by
  have hchain : s'.ui.screens.chain = ⟨s.ui.screens.fresh, .alert⟩ :: s.ui.screens.chain := by
    rw [h.ui]
    exact present_alert_chain htop
  have hform : s'.ui.createForms self.id = form := by
    rw [h.ui]
    exact Function.update_self ..
  rw [Reported, hform]
  exact and_iff_right ⟨_, rfl, hchain⟩

theorem clearPlaceholder_eq_self {form : CreateForm} :
    CreateVC.clearPlaceholder form = form ↔ form.captionTextView ≠ captionPlaceholder := by
  obtain ⟨caption, editing, image⟩ := form
  by_cases hcaption : caption = captionPlaceholder
  · simp [CreateVC.clearPlaceholder, hcaption, captionPlaceholder]
  · simp [CreateVC.clearPlaceholder, hcaption]

theorem failedShare_cases (htop : s.ui.topOf .create = some self) (huuid : uuid ∉ s.uuids)
    (failure : Failure) :
    (∃ s' ui, (appMachine P).run s (failedShare s.requests.length uuid failure) = .ok s' ∧
      Failed s uuid ui s' ∧ (Reported self s s' ↔ Reportable P s self failure)) ∨
    ((∃ trap, (appMachine P).run s (failedShare s.requests.length uuid failure) = .error trap) ∧
      ¬ Reportable P s self failure) := by
  cases hjpeg : (s.ui.createForms self.id).imageView.bind P.jpegData with
  | none =>
      obtain ⟨s', hrun, hfailed⟩ := run_failedShare_unencodable uuid htop hjpeg failure
      refine .inl ⟨s', _, hrun, hfailed, ?_⟩
      simp [hfailed.not_reported, Reportable, hjpeg]
  | some data =>
      cases failure with
      | putData =>
          obtain ⟨s', hrun, hfailed⟩ := run_failedShare_putData htop hjpeg huuid
          refine .inl ⟨s', _, hrun, hfailed, ?_⟩
          have hsame : s.ui.setCreateForm self (s.ui.createForms self.id) = s.ui := by
            simp [UI.setCreateForm]
          have hfailed' : Failed s uuid ((s.ui.setCreateForm self
              (s.ui.createForms self.id)).present self .alert) s' := by
            rw [hsame]
            exact hfailed
          simp [hfailed'.reported_iff htop, Reportable, hjpeg]
      | downloadURL =>
          obtain ⟨s', hrun, hfailed⟩ := run_failedShare_downloadURL htop hjpeg huuid
          refine .inl ⟨s', _, hrun, hfailed, ?_⟩
          simp [hfailed.not_reported, Reportable]
      | addDocument =>
          cases huser : s.currentUser with
          | none =>
              obtain ⟨storage, hlocated⟩ := run_share_located htop hjpeg huuid
              rw [huser] at hlocated
              exact .inr ⟨⟨_, hlocated⟩, by simp [Reportable, huser]⟩
          | some email =>
              obtain ⟨s', hrun, hfailed⟩ := run_failedShare_addDocument htop hjpeg huuid huser
              refine .inl ⟨s', _, hrun, hfailed, ?_⟩
              rw [hfailed.reported_iff htop, clearPlaceholder_eq_self]
              simp [Reportable, hjpeg, huser]

theorem Reported.closeAlert (htop : s.ui.topOf .create = some self) (h : Reported self s s') :
    (s'.ui.apply .closeAlert).topOf .create = some self ∧
      (s'.ui.apply .closeAlert).createForms self.id = s.ui.createForms self.id := by
  obtain ⟨⟨alert, halert, hchain⟩, hform⟩ := h
  obtain ⟨htop, hkind⟩ := UI.topOf_eq_some.mp htop
  obtain ⟨below, hbelow⟩ := List.head?_eq_some_iff.mp htop
  have htopmost : s'.ui.topOf .alert = some alert :=
    UI.topOf_eq_some.mpr ⟨congrArg List.head? hchain, halert⟩
  have hclose : s'.ui.apply .closeAlert = s'.ui.dismiss alert := by
    rw [UI.apply, UI.onTop, htopmost]
  have hclosed : (s'.ui.dismiss alert).screens.chain = self :: below := by
    change Presentation.dismissed alert s'.ui.screens.chain = self :: below
    rw [hchain, hbelow, Presentation.dismissed_top]
  rw [hclose]
  exact ⟨UI.topOf_eq_some.mpr ⟨congrArg List.head? hclosed, hkind⟩, hform⟩

end

/-- Share again and again, each time after the alert has been closed: every attempt fails as
given, is reported, and leaves the form as it was when Share was tapped. -/
def Retries (P : Platform) (self : Screen) : App → List (String × Failure) → Prop
  | _, [] => True
  | s, (uuid, failure) :: attempts =>
      ∃ s', (appMachine P).run s (failedShare s.requests.length uuid failure) = .ok s' ∧
        Reported self s s' ∧ Retries P self { s' with ui := s'.ui.apply .closeAlert } attempts

/-- Any number of failed attempts to share are all reported and change nothing just if each one
fails in the upload, or in adding the document while the caption is not the placeholder. -/
theorem failed_shares_reported_iff (P : Platform) (s : App) (self : Screen)
    (attempts : List (String × Failure)) (htop : s.ui.topOf .create = some self)
    (hnodup : (attempts.map Prod.fst).Nodup) (hfresh : ∀ a ∈ attempts, a.1 ∉ s.uuids) :
    Retries P self s attempts ↔ ∀ a ∈ attempts, Reportable P s self a.2 := by
  induction attempts generalizing s with
  | nil => simp [Retries]
  | cons a attempts ih =>
      obtain ⟨uuid, failure⟩ := a
      rw [List.map_cons, List.nodup_cons] at hnodup
      rw [List.forall_mem_cons] at hfresh ⊢
      rcases failedShare_cases (P := P) htop hfresh.1 failure with
        ⟨s', ui, hrun, hfailed, hreported⟩ | ⟨⟨trap, hrun⟩, hnot⟩
      · simp only [Retries, hrun, Except.ok.injEq, exists_eq_left', hreported]
        apply and_congr_right
        intro hreportable
        obtain ⟨htop', hform⟩ := (hreported.mpr hreportable).closeAlert htop
        have hfresh' : ∀ a ∈ attempts, a.1 ∉ s'.uuids := by
          intro a ha hdrawn
          rcases hfailed.uuids a.1 hdrawn with h | h
          · exact hnodup.1 (h ▸ List.mem_map_of_mem ha)
          · exact hfresh.2 a ha h
        rw [ih { s' with ui := s'.ui.apply .closeAlert } htop' hnodup.2 hfresh']
        simp only [Reportable, hform, hfailed.currentUser]
      · simp [Retries, hrun, hnot]

/-- A composer with a caption that has just been typed. -/
private def composer : List Event :=
  [.ui .addBtnPressed, .ui .textViewDidBeginEditing, .ui (.changeCaption "a good book")]

theorem failed_shares_reported_twice :
    ∃ s, (appMachine .firebase).run (.launch (some "a@x")) composer = .ok s ∧
      Retries .firebase ⟨1, .create⟩ s [("A1", .addDocument), ("A2", .putData)] :=
  ⟨_, rfl, (failed_shares_reported_iff .firebase _ ⟨1, .create⟩
    [("A1", .addDocument), ("A2", .putData)] rfl (by decide) (by decide)).mpr (by decide)⟩

/-- A URL that does not come is passed over, and a document that is not added costs the composer
its placeholder. -/
theorem failed_share_unreported :
    ∃ s s₁ s₂, (appMachine .firebase).run (.launch (some "a@x")) [.ui .addBtnPressed] = .ok s ∧
      (appMachine .firebase).run s (failedShare 0 "A1" .downloadURL) = .ok s₁ ∧
      ¬ Reported ⟨1, .create⟩ s s₁ ∧
      (appMachine .firebase).run s (failedShare 0 "A1" .addDocument) = .ok s₂ ∧
      ¬ Reported ⟨1, .create⟩ s s₂ := by
  refine ⟨_, _, _, rfl, rfl, ?_, rfl, ?_⟩
  · rintro ⟨⟨alert, -, hchain⟩, -⟩
    exact List.cons_ne_self _ _ hchain.symm
  · rintro ⟨-, hform⟩
    exact absurd (congrArg CreateForm.captionTextView hform) (by decide)

end BookShelf
