import BookShelf.App.Firebase
import BookShelf.Publish.Steps

/-!
# Uploads that outlive their session

The completion of `downloadURL` unwraps the session by force. It is safe as long as no session
ends while an upload still waits for its URL, and no upload starts without one.
-/

namespace BookShelf

/-- The request may still lead to the completion of a `downloadURL` that succeeded. -/
def Waits (x : Pending Request) : Prop :=
  x.answer ≠ some false ∧
    ((∃ attempt, x.request = .putData attempt) ∨ ∃ attempt, x.request = .downloadURL attempt)

instance (x : Pending Request) : Decidable (Waits x) :=
  match x with
  | ⟨.putData attempt, answer⟩ =>
      decidable_of_iff (answer ≠ some false) (by simp [Waits])
  | ⟨.downloadURL attempt, answer⟩ =>
      decidable_of_iff (answer ≠ some false) (by simp [Waits])
  | ⟨.signIn _ _, _⟩ => isFalse (by simp [Waits])
  | ⟨.createUser _, _⟩ => isFalse (by simp [Waits])
  | ⟨.signInAfterSignUp _ _, _⟩ => isFalse (by simp [Waits])
  | ⟨.addDocument _ _, _⟩ => isFalse (by simp [Waits])

/-- The profile tab is in view, so that its sign-out alert can have been confirmed. -/
def App.ShowsProfile (s : App) : Prop :=
  ∃ self ∈ s.ui.topOf .tabBar, (s.ui.tabBars self.id).selected = .profile

/-- Firebase Auth drops the user, or the sign-out handler goes through. -/
def EndsSession (s : App) (e : Event) : Prop :=
  e = .dropUser ∨ (e = .signOut false ∧ s.ShowsProfile)

instance (s : App) (e : Event) : Decidable (EndsSession s e) :=
  inferInstanceAs (Decidable (_ ∨ (_ ∧ ∃ self ∈ s.ui.topOf .tabBar, _)))

variable {P : Platform}

theorem starts_iff {s : App} {e : Event} :
    (∃ attempt, s.Starts P e attempt) ↔
      ∃ s', (appMachine P).step s e = .ok s' ∧ s'.uuids ≠ s.uuids := by
  constructor
  · rintro ⟨attempt, hstarts⟩
    exact ⟨_, step_of_starts hstarts, List.cons_ne_self _ _⟩
  · rintro ⟨s', hstep, hne⟩
    cases PublishStep.of_step hstep with
    | start attempt hstarts hrequests hstorage hdocuments huuids => exact ⟨attempt, hstarts⟩
    | idle huploads hstores => exact absurd hstores.2.2 hne
    | stored k attempt hk hrequests hstorage hdocuments huuids => exact absurd huuids hne
    | answered k r ok hk hr hrequests hstores => exact absurd hstores.2.2 hne
    | added k attempt data stamp hevent hk hid hrequests hstorage hdocuments huuids =>
        exact absurd huuids hne
    | asked k attempt hk hrequests hstores => exact absurd hstores.2.2 hne
    | written k attempt email hevent hk huser hrequests hstores => exact absurd hstores.2.2 hne

instance (s : App) (e : Event) : Decidable (∃ attempt, s.Starts P e attempt) :=
  match h : (appMachine P).step s e with
  | .ok s' => decidable_of_iff (s'.uuids ≠ s.uuids) (by rw [starts_iff, h]; simp)
  | .error trap => isFalse (by rw [starts_iff, h]; simp)

variable (P) in
/-- No session ends while an upload waits for its URL, and no upload starts without a session. -/
def SessionOutlives (s : App) (e : Event) : Prop :=
  (EndsSession s e → ∀ x ∈ s.requests, ¬ Waits x) ∧
    ((∃ attempt, s.Starts P e attempt) → s.currentUser ≠ none)

instance (s : App) (e : Event) : Decidable (SessionOutlives P s e) :=
  inferInstanceAs (Decidable ((_ → _) ∧ (_ → _)))

/-- Without a session nothing waits for a URL. -/
def Covered (s : App) : Prop :=
  s.currentUser = none → ∀ x ∈ s.requests, ¬ Waits x

/-- A step without an end of the session leaves nobody signed out who was signed in. -/
theorem session_cases {s s' : App} {e : Event} (hstep : (appMachine P).step s e = .ok s')
    (hnone : s'.currentUser = none) :
    s.currentUser = none ∨ (EndsSession s e ∧ s'.requests = s.requests) := by
  cases SessionStep.of_step hstep with
  | kept huser => exact .inl (huser ▸ hnone)
  | signedIn k r stamp email hevent hk hr huser =>
      rw [huser] at hnone
      cases hnone
  | signedOut self hevent htop hkind hselected heq =>
      right
      rw [heq]
      exact ⟨.inr ⟨hevent, self, UI.topOf_eq_some.mpr ⟨htop, hkind⟩, hselected⟩, rfl⟩
  | dropped hevent heq =>
      right
      rw [heq]
      exact ⟨.inl hevent, rfl⟩

private theorem waits_putData {attempt : Attempt} {answer : Option Bool}
    (h : answer ≠ some false) : Waits ⟨.putData attempt, answer⟩ :=
  ⟨h, .inl ⟨attempt, rfl⟩⟩

private theorem waits_downloadURL {attempt : Attempt} {answer : Option Bool}
    (h : answer ≠ some false) : Waits ⟨.downloadURL attempt, answer⟩ :=
  ⟨h, .inr ⟨attempt, rfl⟩⟩

theorem Waits.attempt_ne {x : Pending Request} (h : Waits x) : x.request.attempt ≠ none := by
  rcases h.2 with ⟨attempt, hx⟩ | ⟨attempt, hx⟩ <;> simp [hx, Request.attempt]

private theorem covered_of_nothing_waits {s s' : App} {e : Event}
    (h : ∀ x ∈ s.requests, ¬ Waits x) (hstarts : ¬ ∃ attempt, s.Starts P e attempt)
    (hpublish : PublishStep P s e s') : ∀ x ∈ s'.requests, ¬ Waits x := by
  intro x hx hwaits
  cases hpublish.arises hx hwaits.attempt_ne with
  | kept hx => exact h x hx hwaits
  | answered hr hstored => exact h _ hr ⟨by simp, hwaits.2⟩
  | started hstart => exact hstarts ⟨_, hstart⟩
  | asked hstored => exact h _ hstored (waits_putData (by simp))
  | written hlocated huser =>
      obtain ⟨hanswer, ⟨attempt, hrequest⟩ | ⟨attempt, hrequest⟩⟩ := hwaits <;> cases hrequest

theorem covered_step {s s' : App} {e : Event} (h : Covered s) (houtlives : SessionOutlives P s e)
    (hstep : (appMachine P).step s e = .ok s') : Covered s' := by
  intro hnone
  rcases session_cases hstep hnone with hs | ⟨hends, hrequests⟩
  · have hstarts : ¬ ∃ attempt, s.Starts P e attempt := fun hstarts => houtlives.2 hstarts hs
    exact covered_of_nothing_waits (h hs) hstarts (PublishStep.of_step hstep)
  · rw [hrequests]
    exact houtlives.1 hends

theorem covered_launch (persisted : Option String) : Covered (.launch persisted) := by
  intro _ x hx
  cases hx

/-- The trap of an upload's completion. -/
def Trap.OfUpload (trap : Trap) : Prop :=
  trap = .shareDownloadURL ∨ trap = .updateDownloadURL

theorem Attempt.trap_ofUpload (attempt : Attempt) : attempt.trap.OfUpload := by
  cases hform : attempt.form <;> simp [trap, Trap.OfUpload, hform]

/-- Answers of the services and completions alone lead to the trap of an upload. -/
def TrapsLater (P : Platform) (s : App) : Prop :=
  (appMachine P).CanEnd (fun e => e.fromService = true)
    (fun outcome => ∃ trap, outcome = .error trap ∧ trap.OfUpload) s

private theorem trapsLater_of_located {s : App} (hnone : s.currentUser = none)
    {attempt : Attempt} {k : Nat}
    (hk : s.requests[k]? = some ⟨.downloadURL attempt, some true⟩) : TrapsLater P s := by
  have hdeliver : s.deliver P k = .error attempt.trap := by
    rw [deliver_downloadURL hk, hnone]
  exact ⟨[.deliver k], by simp [Event.fromService], attempt.trap,
    Machine.run_cons_of_trap hdeliver [], attempt.trap_ofUpload⟩

private theorem trapsLater_of_downloadURL {s : App} (hnone : s.currentUser = none)
    {attempt : Attempt} {k : Nat} {answer : Option Bool}
    (hk : s.requests[k]? = some ⟨.downloadURL attempt, answer⟩) (hanswer : answer ≠ some false) :
    TrapsLater P s := by
  match answer with
  | some true => exact trapsLater_of_located hnone hk
  | none =>
      have hsettled := Pending.getElem?_settle hk (.downloadURL attempt) true
      exact .of_step (step_succeed_downloadURL hk ⟨"", 0⟩) rfl
        (trapsLater_of_located hnone hsettled)

private theorem trapsLater_of_stored {s : App} (hnone : s.currentUser = none)
    {attempt : Attempt} {k : Nat}
    (hk : s.requests[k]? = some ⟨.putData attempt, some true⟩) : TrapsLater P s := by
  have hposted := Pending.getElem?_post (s.requests.eraseIdx k) (.downloadURL attempt)
  exact .of_step (step_deliver_putData hk) rfl (trapsLater_of_downloadURL hnone hposted (by simp))

private theorem trapsLater_of_putData {s : App} (hnone : s.currentUser = none)
    {attempt : Attempt} {k : Nat} {answer : Option Bool}
    (hk : s.requests[k]? = some ⟨.putData attempt, answer⟩) (hanswer : answer ≠ some false) :
    TrapsLater P s := by
  match answer with
  | some true => exact trapsLater_of_stored hnone hk
  | none =>
      have hsettled := Pending.getElem?_settle hk (.putData attempt) true
      exact .of_step (step_succeed_putData hk ⟨"", 0⟩) rfl (trapsLater_of_stored hnone hsettled)

private theorem trapsLater_of_waits {s : App} (hnone : s.currentUser = none)
    {x : Pending Request} (hx : x ∈ s.requests) (hwaits : Waits x) : TrapsLater P s := by
  obtain ⟨k, hk⟩ := List.mem_iff_getElem?.mp hx
  obtain ⟨r, answer⟩ := x
  obtain ⟨hanswer, ⟨attempt, rfl⟩ | ⟨attempt, rfl⟩⟩ := hwaits
  · exact trapsLater_of_putData hnone hk hanswer
  · exact trapsLater_of_downloadURL hnone hk hanswer

private theorem trapsLater_of_not_outlives {s : App} {e : Event}
    (hnot : ¬ SessionOutlives P s e) :
    ∃ s', (appMachine P).step s e = .ok s' ∧ TrapsLater P s' := by
  by_cases hstarts : (∃ attempt, s.Starts P e attempt) ∧ s.currentUser = none
  · obtain ⟨⟨attempt, hstarts⟩, hnone⟩ := hstarts
    refine ⟨_, step_of_starts hstarts, trapsLater_of_waits hnone
      (Pending.mem_post.mpr (.inr rfl)) (waits_putData (by simp))⟩
  · have hends : ¬ (EndsSession s e → ∀ x ∈ s.requests, ¬ Waits x) := by
      intro hends
      exact hnot ⟨hends, fun h hnone => hstarts ⟨h, hnone⟩⟩
    push Not at hends
    obtain ⟨hends, x, hx, hwaits⟩ := hends
    rcases hends with rfl | ⟨rfl, self, hself, hselected⟩
    · exact ⟨_, rfl, trapsLater_of_waits rfl hx hwaits⟩
    · refine ⟨_, rfl, ?_⟩
      have hsignOut : ProfileVC.signOut false s =
          { s with currentUser := none }.present self .login := by
        unfold ProfileVC.signOut
        rw [Option.mem_def.mp hself]
        exact if_pos hselected
      rw [hsignOut]
      exact trapsLater_of_waits rfl hx hwaits

/-- In a run in which no session ends under a waiting upload and no upload starts without a
session, no completion of an upload traps. Any other step leaves it to the services to make one
trap. -/
theorem upload_callbacks_never_trap (P : Platform) (persisted : Option String)
    (events : List Event)
    (houtlives : (appMachine P).Meets (SessionOutlives P) (.launch persisted) events) :
    (∀ trap, (appMachine P).run (.launch persisted) events = .error trap → ¬ trap.OfUpload) ∧
      ∀ s e, (appMachine P).run (.launch persisted) events = .ok s → ¬ SessionOutlives P s e →
        ∃ s', (appMachine P).step s e = .ok s' ∧ TrapsLater P s' := by
  refine ⟨?_, fun s e _ hnot => trapsLater_of_not_outlives hnot⟩
  intro trap hrun
  refine Machine.trap_of_meets (Q := fun trap => ¬ trap.OfUpload)
    (fun _ _ _ h hc hstep => covered_step h hc hstep) ?_ (covered_launch persisted) houtlives hrun
  intro s e trap hcovered _ hstep htrap
  obtain ⟨hnone, ⟨rfl, -⟩ | ⟨k, attempt, -, hk, -⟩⟩ := cause_of_trap hstep
  · rcases htrap with htrap | htrap <;> cases htrap
  · exact hcovered hnone _ (List.mem_of_getElem? hk) (waits_downloadURL (by simp))

/-- The form is cancelled and the user signs out, but only after the post is there. -/
private def shareThenSignOut : List Event :=
  [.ui .addBtnPressed, .shareBtnPressed "A1", .ui .cancelBtnPressed, .openTab .profile,
    .succeed 0 ⟨"", 0⟩, .deliver 0, .succeed 0 ⟨"", 0⟩, .deliver 0,
    .ui .showAlertWithDistructiveButton, .ui .closeAlert, .signOut false,
    .succeed 0 ⟨"p1", 1⟩, .deliver 0]

theorem upload_callbacks_never_trap_share_then_signOut :
    (∃ s, (appMachine .firebase).run (.launch (some "a@x")) shareThenSignOut = .ok s ∧
      s.currentUser = none) ∧
    ∀ trap, (appMachine .firebase).run (.launch (some "a@x")) shareThenSignOut = .error trap →
      ¬ trap.OfUpload :=
  ⟨⟨_, rfl, rfl⟩,
    (upload_callbacks_never_trap .firebase (some "a@x") shareThenSignOut (by decide)).1⟩

/-- Firebase Auth drops the user while the picture is on its way. -/
theorem share_traps_after_dropUser :
    (appMachine .firebase).run (.launch (some "a@x"))
        [.ui .addBtnPressed, .shareBtnPressed "A1", .succeed 0 ⟨"", 0⟩, .deliver 0, .dropUser,
          .succeed 0 ⟨"", 0⟩, .deliver 0] =
      .error .shareDownloadURL :=
  rfl

end BookShelf
