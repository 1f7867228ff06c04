import BookShelf.App.Machine

/-!
# What an event can do

A step that changes the app is one of the effects below. Invariants are proved by cases on
the effect, so none of them unfolds the controllers' taps again.
-/

namespace BookShelf

/-- `self` shows a form that its controller agrees to publish. -/
inductive App.Submits (s : App) (self : Screen) : Form → Prop
  | create (hkind : self.kind = .create) :
      App.Submits s self (.create (s.ui.createForms self.id))
  | update (hkind : self.kind = .updateProfile)
      (husername : (s.ui.updateForms self.id).usernameTextField ≠ "")
      (hbio : (s.ui.updateForms self.id).bioTextField ≠ "") :
      App.Submits s self (.update (s.ui.updateForms self.id))

theorem App.Submits.controller {s : App} {self : Screen} {form : Form}
    (h : s.Submits self form) : self.kind = form.controller := by
  cases h with
  | create hkind => exact hkind
  | update hkind husername hbio => exact hkind

/-- The tap that starts the attempt. -/
def Attempt.tap (attempt : Attempt) : Event :=
  match attempt.form with
  | .create _ => .shareBtnPressed attempt.imageReference.uuid
  | .update _ => .doneBtnPressed attempt.imageReference.uuid

/-- The event `e` starts this attempt: what the attempt remembers is what holds in `s`. -/
structure App.Starts (P : Platform) (s : App) (e : Event) (attempt : Attempt) : Prop where
  tapped : e = attempt.tap
  top : s.ui.top = some attempt.self
  submits : s.Submits attempt.self attempt.form
  session : attempt.session = s.currentUser
  jpeg : attempt.form.image.bind P.jpegData = some attempt.data
  folder : attempt.imageReference.folder = attempt.form.folder
  fresh : attempt.imageReference.uuid ∉ s.uuids

namespace Attempt

/-- The form that `self` shows by now, with the caption view as the completion rewrites it. -/
def clearedUI (attempt : Attempt) (ui : UI) : UI :=
  match attempt.form with
  | .create _ =>
      ui.setCreateForm attempt.self (CreateVC.clearPlaceholder (ui.createForms attempt.self.id))
  | .update _ => ui

/-- The document that the completion of `downloadURL` writes. -/
def fields (P : Platform) (attempt : Attempt) (ui : UI) (email : String) : Fields :=
  match attempt.form with
  | .create _ =>
      firestorePost (P.downloadURL attempt.imageReference)
        (CreateVC.clearPlaceholder (ui.createForms attempt.self.id)).captionTextView email
  | .update _ =>
      userInfo (P.downloadURL attempt.imageReference)
        (ui.updateForms attempt.self.id).bioTextField
        (ui.updateForms attempt.self.id).usernameTextField email

def trap (attempt : Attempt) : Trap :=
  match attempt.form with
  | .create _ => .shareDownloadURL
  | .update _ => .updateDownloadURL

/-- What a failed upload shows. -/
def failedUI (attempt : Attempt) (ui : UI) : UI :=
  match attempt.form with
  | .create _ => ui.present attempt.self .alert
  | .update _ => ui

/-- What the end of an attempt shows. -/
def addedUI (attempt : Attempt) (ok : Bool) (ui : UI) : UI :=
  match attempt.form, ok with
  | .create _, true =>
      (ui.setCreateForm attempt.self
        { ui.createForms attempt.self.id with
          captionTextView := captionPlaceholder
          imageView := some imagePlaceholder }).dismiss attempt.self
  | .create _, false => ui.present attempt.self .alert
  | .update _, true => ui.present attempt.self .tabBar
  | .update _, false => ui

@[simp]
theorem clearedUI_screens (attempt : Attempt) (ui : UI) :
    (attempt.clearedUI ui).screens = ui.screens := by
  cases hform : attempt.form <;> simp [clearedUI, hform, UI.setCreateForm]

@[simp]
theorem clearedUI_tabBars (attempt : Attempt) (ui : UI) :
    (attempt.clearedUI ui).tabBars = ui.tabBars := by
  cases hform : attempt.form <;> simp [clearedUI, hform, UI.setCreateForm]

theorem fields_email (P : Platform) (attempt : Attempt) (ui : UI) (email : String) :
    (attempt.fields P ui email).lookup "email" = some (.string email) := by
  cases hform : attempt.form <;>
    simp [fields, hform, firestorePost, userInfo, List.lookup_cons]

theorem uploaded_true (attempt : Attempt) (s : App) :
    attempt.uploaded true s = s.request (.downloadURL attempt) := by
  cases hform : attempt.form <;>
    simp [uploaded, hform, CreateVC.uploaded, UpdateProfileVC.uploaded]

theorem uploaded_false (attempt : Attempt) (s : App) :
    attempt.uploaded false s = { s with ui := attempt.failedUI s.ui } := by
  cases hform : attempt.form <;>
    simp [uploaded, failedUI, hform, CreateVC.uploaded, UpdateProfileVC.uploaded, App.present]

theorem gotURL_true (P : Platform) (attempt : Attempt) (s : App) :
    attempt.gotURL P true s =
      match s.currentUser with
      | none => .error attempt.trap
      | some email => .ok ({ s with ui := attempt.clearedUI s.ui }.request
          (.addDocument attempt (attempt.fields P s.ui email))) := by
  cases hform : attempt.form with
  | create form =>
      cases huser : s.currentUser <;>
        simp [gotURL, CreateVC.gotURL, trap, clearedUI, fields, hform, huser]
  | update form =>
      cases huser : s.currentUser with
      | none => simp [gotURL, UpdateProfileVC.gotURL, trap, hform, huser]
      | some email =>
          simp only [gotURL, UpdateProfileVC.gotURL, clearedUI, fields, hform, huser, if_true]
          rw [← huser]

theorem gotURL_false (P : Platform) (attempt : Attempt) (s : App) :
    attempt.gotURL P false s = .ok s := by
  cases hform : attempt.form <;> simp [gotURL, hform, CreateVC.gotURL, UpdateProfileVC.gotURL]

theorem added_eq (attempt : Attempt) (ok : Bool) (s : App) :
    attempt.added ok s = { s with ui := attempt.addedUI ok s.ui } := by
  cases hform : attempt.form <;> cases ok <;>
    simp [added, addedUI, hform, CreateVC.added, UpdateProfileVC.added, App.present]

end Attempt

/-- What a completion does, in the state without its request. -/
inductive Delivery (P : Platform) (s : App) : Request → Bool → App → Prop
  | signedIn (self : Screen) (credentials : Credentials) :
      Delivery P s (.signIn self credentials) true (s.present self .tabBar)
  | notSignedIn (self : Screen) (credentials : Credentials) :
      Delivery P s (.signIn self credentials) false (s.present self .alert)
  | created (tap : SignUpTap) :
      Delivery P s (.createUser tap) true
        (s.request (.signInAfterSignUp tap (s.ui.credentials tap.self.id)))
  | notCreated (tap : SignUpTap) :
      Delivery P s (.createUser tap) false (SignUpVC.finish tap .alert s)
  | signedUp (tap : SignUpTap) (credentials : Credentials) :
      Delivery P s (.signInAfterSignUp tap credentials) true (SignUpVC.finish tap .updateProfile s)
  | notSignedUp (tap : SignUpTap) (credentials : Credentials) :
      Delivery P s (.signInAfterSignUp tap credentials) false (SignUpVC.finish tap .alert s)
  | uploaded (attempt : Attempt) :
      Delivery P s (.putData attempt) true (s.request (.downloadURL attempt))
  | notUploaded (attempt : Attempt) :
      Delivery P s (.putData attempt) false { s with ui := attempt.failedUI s.ui }
  | gotURL (attempt : Attempt) (email : String) (huser : s.currentUser = some email) :
      Delivery P s (.downloadURL attempt) true
        ({ s with ui := attempt.clearedUI s.ui }.request
          (.addDocument attempt (attempt.fields P s.ui email)))
  | noURL (attempt : Attempt) : Delivery P s (.downloadURL attempt) false s
  | added (attempt : Attempt) (data : Fields) (ok : Bool) :
      Delivery P s (.addDocument attempt data) ok { s with ui := attempt.addedUI ok s.ui }

theorem delivery_of_complete {P : Platform} {s s' : App} {r : Request} {ok : Bool}
    (h : App.complete P s ok r = .ok s') : Delivery P s r ok s' := by
  cases r with
  | signIn self credentials =>
      cases h
      cases ok
      · exact .notSignedIn self credentials
      · exact .signedIn self credentials
  | createUser tap =>
      cases h
      cases ok
      · exact .notCreated tap
      · exact .created tap
  | signInAfterSignUp tap credentials =>
      cases h
      cases ok
      · exact .notSignedUp tap credentials
      · exact .signedUp tap credentials
  | putData attempt =>
      cases h
      cases ok
      · rw [attempt.uploaded_false]
        exact .notUploaded attempt
      · rw [attempt.uploaded_true]
        exact .uploaded attempt
  | downloadURL attempt =>
      have hgot : attempt.gotURL P ok s = .ok s' := h
      cases ok with
      | false =>
          rw [attempt.gotURL_false] at hgot
          cases hgot
          exact .noURL attempt
      | true =>
          rw [attempt.gotURL_true] at hgot
          cases huser : s.currentUser with
          | none => simp [huser] at hgot
          | some email =>
              simp only [huser, Except.ok.injEq] at hgot
              rw [← hgot]
              exact huser ▸ .gotURL attempt email huser
  | addDocument attempt data =>
      cases h
      rw [attempt.added_eq]
      exact .added attempt data ok

inductive Effect (P : Platform) (s : App) : Event → App → Prop
  | ui (action : UIAction) : Effect P s (.ui action) { s with ui := s.ui.apply action }
  | login (self : Screen) (htop : s.ui.top = some self) (hkind : self.kind = .signIn) :
      Effect P s .loginBtnPressed (s.request (.signIn self (s.ui.credentials self.id)))
  | signUp (self : Screen) (htop : s.ui.top = some self) (hkind : self.kind = .signUp) :
      Effect P s .signUpBtn
        { s.request (.createUser ⟨s.taps.length, self, s.ui.credentials self.id⟩) with
          taps := s.taps ++ [⟨s.taps.length, self, s.ui.credentials self.id⟩] }
  | selectTab (self : Screen) (tab : Tab) (htop : s.ui.top = some self)
      (hkind : self.kind = .tabBar) :
      Effect P s (.openTab tab)
        { s with ui := s.ui.setTabBar self { s.ui.tabBars self.id with selected := tab } }
  | loadProfile (self : Screen) (email : String) (htop : s.ui.top = some self)
      (hkind : self.kind = .tabBar) (huser : s.currentUser = some email) :
      Effect P s (.openTab .profile)
        { s with ui := s.ui.setTabBar self ⟨.profile, some ⟨email, email⟩⟩ }
  | signOutFailed (self : Screen) (htop : s.ui.top = some self) (hkind : self.kind = .tabBar)
      (hselected : (s.ui.tabBars self.id).selected = .profile) :
      Effect P s (.signOut true) (s.present self .alert)
  | signOut (self : Screen) (htop : s.ui.top = some self) (hkind : self.kind = .tabBar)
      (hselected : (s.ui.tabBars self.id).selected = .profile) :
      Effect P s (.signOut false) ({ s with currentUser := none }.present self .login)
  | upload (e : Event) (attempt : Attempt) (hstarts : s.Starts P e attempt) :
      Effect P s e
        { s.request (.putData attempt) with uuids := attempt.imageReference.uuid :: s.uuids }
  | accept (k : Nat) (r : Request) (stamp : Stamp) (hk : s.requests[k]? = some ⟨r, none⟩) :
      Effect P s (.succeed k stamp) (s.accept k r stamp)
  | reject (k : Nat) (r : Request) (hk : s.requests[k]? = some ⟨r, none⟩) :
      Effect P s (.fail k) { s with requests := Pending.settle s.requests k r false }
  | deliver (k : Nat) (r : Request) (ok : Bool) (s' : App)
      (hk : s.requests[k]? = some ⟨r, some ok⟩)
      (hdelivery : Delivery P { s with requests := s.requests.eraseIdx k } r ok s') :
      Effect P s (.deliver k) s'
  | dropUser : Effect P s .dropUser { s with currentUser := none }

variable {P : Platform}

private theorem loginBtnPressed_effect (s : App) :
    SignInViewController.loginBtnPressed s = s ∨
      Effect P s .loginBtnPressed (SignInViewController.loginBtnPressed s) := by
  unfold SignInViewController.loginBtnPressed
  cases htop : s.ui.topOf .signIn with
  | none => exact .inl rfl
  | some self =>
      obtain ⟨htop, hkind⟩ := UI.topOf_eq_some.mp htop
      dsimp only
      split
      · exact .inr (.login self htop hkind)
      · exact .inl rfl

private theorem signUpBtn_effect (s : App) :
    SignUpVC.signUpBtn s = s ∨ Effect P s .signUpBtn (SignUpVC.signUpBtn s) := by
  unfold SignUpVC.signUpBtn
  cases htop : s.ui.topOf .signUp with
  | none => exact .inl rfl
  | some self =>
      obtain ⟨htop, hkind⟩ := UI.topOf_eq_some.mp htop
      dsimp only
      split
      · exact .inr (.signUp self htop hkind)
      · exact .inl rfl

private theorem openTab_effect {s s' : App} {tab : Tab}
    (h : ProfileVC.openTab tab s = .ok s') : s' = s ∨ Effect P s (.openTab tab) s' := by
  unfold ProfileVC.openTab at h
  cases htop : s.ui.topOf .tabBar with
  | none =>
      simp only [htop, Except.ok.injEq] at h
      exact .inl h.symm
  | some self =>
      simp only [htop] at h
      obtain ⟨htop, hkind⟩ := UI.topOf_eq_some.mp htop
      split at h
      · next hload =>
        obtain ⟨rfl, -⟩ := hload
        cases huser : s.currentUser with
        | none => simp [ProfileVC.viewDidLoad, huser] at h
        | some email =>
            have hload : ProfileVC.viewDidLoad s.currentUser = .ok ⟨email, email⟩ := by
              rw [huser]
              rfl
            simp only [hload, Except.ok.injEq] at h
            subst h
            exact .inr (.loadProfile self email htop hkind huser)
      · simp only [Except.ok.injEq] at h
        subst h
        exact .inr (.selectTab self tab htop hkind)

private theorem signOut_effect (s : App) (throws : Bool) :
    ProfileVC.signOut throws s = s ∨ Effect P s (.signOut throws) (ProfileVC.signOut throws s) := by
  unfold ProfileVC.signOut
  cases htop : s.ui.topOf .tabBar with
  | none => exact .inl rfl
  | some self =>
      obtain ⟨htop, hkind⟩ := UI.topOf_eq_some.mp htop
      dsimp only
      split
      · next hselected =>
        cases throws with
        | true => exact .inr (.signOutFailed self htop hkind hselected)
        | false => exact .inr (.signOut self htop hkind hselected)
      · exact .inl rfl

private theorem startUpload_effect {s : App} {e : Event} {self : Screen} {form : Form}
    {data : Data} {uuid : String}
    (hevent : e = Attempt.tap ⟨self, form, s.currentUser, data, ⟨form.folder, uuid⟩⟩)
    (htop : s.ui.top = some self) (hsubmits : s.Submits self form)
    (hdata : form.image.bind P.jpegData = some data) :
    s.startUpload self form data uuid = s ∨ Effect P s e (s.startUpload self form data uuid) := by
  unfold App.startUpload
  split
  · exact .inl rfl
  · next huuid =>
    exact .inr (.upload e ⟨self, form, s.currentUser, data, ⟨form.folder, uuid⟩⟩
      ⟨hevent, htop, hsubmits, rfl, hdata, rfl, huuid⟩)

private theorem shareBtnPressed_effect (s : App) (uuid : String) :
    CreateVC.shareBtnPressed P uuid s = s ∨
      Effect P s (.shareBtnPressed uuid) (CreateVC.shareBtnPressed P uuid s) := by
  unfold CreateVC.shareBtnPressed
  cases htop : s.ui.topOf .create with
  | none => exact .inl rfl
  | some self =>
      obtain ⟨htop, hkind⟩ := UI.topOf_eq_some.mp htop
      dsimp only
      split
      · exact .inl rfl
      · next data hdata => exact startUpload_effect rfl htop (.create hkind) hdata

private theorem doneBtnPressed_effect (s : App) (uuid : String) :
    UpdateProfileVC.doneBtnPressed P uuid s = s ∨
      Effect P s (.doneBtnPressed uuid) (UpdateProfileVC.doneBtnPressed P uuid s) := by
  unfold UpdateProfileVC.doneBtnPressed
  cases htop : s.ui.topOf .updateProfile with
  | none => exact .inl rfl
  | some self =>
      obtain ⟨htop, hkind⟩ := UI.topOf_eq_some.mp htop
      dsimp only [UpdateProfileVC.updateProfile]
      split
      · next hfilled =>
        cases himage : (s.ui.updateForms self.id).profileImageView with
        | none => exact .inl rfl
        | some image =>
            cases hdata : P.jpegData image with
            | none => exact .inl (by simp [hdata])
            | some data =>
                simp only [hdata]
                refine startUpload_effect rfl htop (.update hkind hfilled.1 hfilled.2) ?_
                simp [Form.image, himage, hdata]
      · exact .inl rfl

theorem step_of_starts {s : App} {e : Event} {attempt : Attempt} (h : s.Starts P e attempt) :
    (appMachine P).step s e = .ok
      { s.request (.putData attempt) with uuids := attempt.imageReference.uuid :: s.uuids } := by
  obtain ⟨self, form, session, data, folder, uuid⟩ := attempt
  obtain rfl : session = s.currentUser := h.session
  obtain rfl : folder = form.folder := h.folder
  have htop : s.ui.top = some self := h.top
  have hjpeg : form.image.bind P.jpegData = some data := h.jpeg
  have hsubmits : s.Submits self form := h.submits
  have hupload : s.startUpload self form data uuid =
      { s.request (.putData ⟨self, form, s.currentUser, data, ⟨form.folder, uuid⟩⟩) with
        uuids := uuid :: s.uuids } := if_neg h.fresh
  rw [h.tapped, ← hupload]
  cases hsubmits with
  | create hkind =>
      have hself := UI.topOf_eq_some.mpr ⟨htop, hkind⟩
      simp only [Form.image] at hjpeg
      simp only [appMachine, Attempt.tap, CreateVC.shareBtnPressed, hself, hjpeg]
  | update hkind husername hbio =>
      have hself := UI.topOf_eq_some.mpr ⟨htop, hkind⟩
      obtain ⟨image, himage, hdata⟩ := Option.bind_eq_some_iff.mp hjpeg
      simp only [Form.image] at himage
      simp only [appMachine, Attempt.tap, UpdateProfileVC.doneBtnPressed,
        UpdateProfileVC.updateProfile, hself, himage, hdata, husername, hbio, ne_eq,
        not_false_eq_true, and_self, if_true]

/-- Every step leaves the app as it is or has one of the effects. -/
theorem effect_of_step {s s' : App} {e : Event} (hstep : (appMachine P).step s e = .ok s') :
    s' = s ∨ Effect P s e s' := by
  cases e with
  | ui action =>
      cases hstep
      exact .inr (.ui action)
  | loginBtnPressed =>
      cases hstep
      exact loginBtnPressed_effect s
  | signUpBtn =>
      cases hstep
      exact signUpBtn_effect s
  | openTab tab => exact openTab_effect hstep
  | signOut throws =>
      cases hstep
      exact signOut_effect s throws
  | shareBtnPressed uuid =>
      cases hstep
      exact shareBtnPressed_effect s uuid
  | doneBtnPressed uuid =>
      cases hstep
      exact doneBtnPressed_effect s uuid
  | succeed k stamp =>
      cases hstep
      unfold App.succeed
      split
      · next r hk => exact .inr (.accept k r stamp hk)
      · exact .inl rfl
  | fail k =>
      cases hstep
      unfold App.fail
      split
      · next r hk => exact .inr (.reject k r hk)
      · exact .inl rfl
  | deliver k =>
      have hdeliver : s.deliver P k = .ok s' := hstep
      unfold App.deliver at hdeliver
      split at hdeliver
      · next r ok hk => exact .inr (.deliver k r ok s' hk (delivery_of_complete hdeliver))
      · cases hdeliver
        exact .inl rfl
  | dropUser =>
      cases hstep
      exact .inr .dropUser

theorem Delivery.currentUser_eq {s s' : App} {r : Request} {ok : Bool}
    (h : Delivery P s r ok s') : s'.currentUser = s.currentUser := by
  cases h <;> rfl

/-- What a step does to the session. -/
inductive SessionStep (s : App) (e : Event) (s' : App) : Prop
  | kept (huser : s'.currentUser = s.currentUser)
  | signedIn (k : Nat) (r : Request) (stamp : Stamp) (email : String)
      (hevent : e = .succeed k stamp) (hk : s.requests[k]? = some ⟨r, none⟩)
      (hr : r.signsIn = some email) (huser : s'.currentUser = some email)
  | signedOut (self : Screen) (hevent : e = .signOut false) (htop : s.ui.top = some self)
      (hkind : self.kind = .tabBar) (hselected : (s.ui.tabBars self.id).selected = .profile)
      (heq : s' = { s with currentUser := none }.present self .login)
  | dropped (hevent : e = .dropUser) (heq : s' = { s with currentUser := none })

theorem SessionStep.of_step {s s' : App} {e : Event}
    (hstep : (appMachine P).step s e = .ok s') : SessionStep s e s' := by
  rcases effect_of_step hstep with rfl | heffect
  · exact .kept rfl
  · cases heffect with
    | signOut self htop hkind hselected => exact .signedOut self rfl htop hkind hselected rfl
    | accept k r stamp hk =>
        cases hr : r.signsIn with
        | none => exact .kept (App.accept_currentUser hr stamp)
        | some email => exact .signedIn k r stamp email rfl hk hr (App.accept_signsIn hr stamp)
    | deliver k r ok s' hk hdelivery => exact .kept hdelivery.currentUser_eq
    | dropUser => exact .dropped rfl rfl
    | _ => exact .kept rfl

/-- The completion of an accepted `downloadURL` stands or falls with the session. -/
theorem deliver_downloadURL {s : App} {k : Nat} {attempt : Attempt}
    (hk : s.requests[k]? = some ⟨.downloadURL attempt, some true⟩) :
    s.deliver P k =
      match s.currentUser with
      | none => .error attempt.trap
      | some email => .ok ({ s with
            ui := attempt.clearedUI s.ui
            requests := s.requests.eraseIdx k }.request
          (.addDocument attempt (attempt.fields P s.ui email))) := by
  unfold App.deliver
  rw [hk]
  exact attempt.gotURL_true P { s with requests := s.requests.eraseIdx k }

/-- A profile trap comes from a tab bar without a session, an upload trap from the completion
of a `downloadURL` without a session. -/
theorem cause_of_trap {s : App} {e : Event} {trap : Trap}
    (hstep : (appMachine P).step s e = .error trap) :
    s.currentUser = none ∧
      ((trap = .profileGetUserInfo ∧ (∃ tab, e = .openTab tab) ∧
          ∃ self, s.ui.top = some self ∧ self.kind = .tabBar) ∨
        ∃ k attempt, e = .deliver k ∧ s.requests[k]? = some ⟨.downloadURL attempt, some true⟩ ∧
          trap = attempt.trap) := by
  cases e with
  | openTab tab =>
      have hopen : ProfileVC.openTab tab s = .error trap := hstep
      unfold ProfileVC.openTab at hopen
      cases htop : s.ui.topOf .tabBar with
      | none => simp [htop] at hopen
      | some self =>
          simp only [htop] at hopen
          obtain ⟨htop, hkind⟩ := UI.topOf_eq_some.mp htop
          split at hopen
          · cases huser : s.currentUser with
            | none =>
                simp only [ProfileVC.viewDidLoad, huser, Except.error.injEq] at hopen
                exact ⟨rfl, .inl ⟨hopen.symm, ⟨tab, rfl⟩, self, htop, hkind⟩⟩
            | some email => simp [ProfileVC.viewDidLoad, huser] at hopen
          · cases hopen
  | deliver k =>
      have hdeliver : s.deliver P k = .error trap := hstep
      unfold App.deliver at hdeliver
      split at hdeliver
      · next r ok hk =>
        cases r with
        | downloadURL attempt =>
            cases ok with
            | false => simp [App.complete, Attempt.gotURL_false] at hdeliver
            | true =>
                simp only [App.complete, Attempt.gotURL_true] at hdeliver
                cases huser : s.currentUser with
                | none =>
                    simp only [huser, Except.error.injEq] at hdeliver
                    exact ⟨rfl, .inr ⟨k, attempt, rfl, hk, hdeliver.symm⟩⟩
                | some email => simp [huser] at hdeliver
        | _ => cases hdeliver
      · cases hdeliver
  | _ => cases hstep

end BookShelf
