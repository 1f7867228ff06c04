import BookShelf.App.Firebase
import BookShelf.Session.Placed

/-!
# Whose profile is visible

A profile tab registers its listeners once, with the account of the session. They fit the
session until somebody else is signed in while the tab can still come back into view.
-/

namespace BookShelf

/-- The tab bar that is topmost, or will be once the transient screens above it have closed. -/
def liveTab : List Screen → Option Screen
  | [] => none
  | self :: below =>
      if self.kind = .tabBar then some self
      else if self.kind.transient then liveTab below
      else none

/-- The screens that are topmost, or will be once the transient ones above them have closed. -/
def liveScreens : List Screen → List Screen
  | [] => []
  | self :: below => if self.kind.transient then self :: liveScreens below else [self]

namespace App

/-- The listeners of the profile tab that is, or may come back, into view. -/
def liveProfile (s : App) : Option ProfileListeners :=
  (liveTab s.ui.screens.chain).bind fun self => (s.ui.tabBars self.id).profile

/-- The account that the request at position `k` signs in if it is accepted now. -/
def signingIn (s : App) (k : Nat) : Option String :=
  match s.requests[k]? with
  | some ⟨r, none⟩ => r.signsIn
  | _ => none

theorem mem_signingIn {s : App} {k : Nat} {email : String} :
    email ∈ s.signingIn k ↔ ∃ r, s.requests[k]? = some ⟨r, none⟩ ∧ r.signsIn = some email := by
  unfold signingIn
  constructor
  · intro h
    split at h
    · next r hk => exact ⟨r, hk, h⟩
    · cases h
  · rintro ⟨r, hk, hr⟩
    simp only [hk, hr, Option.mem_def]

end App

/-- Nobody is signed in beside the account of a profile that may come back into view. -/
def SameAccount (s : App) : Event → Prop
  | .succeed k _ => ∀ email ∈ s.signingIn k, ∀ l ∈ s.liveProfile, l = ⟨email, email⟩
  | _ => True

instance (s : App) (e : Event) : Decidable (SameAccount s e) := by
  unfold SameAccount
  split <;> infer_instance

structure ProfileMatches (s : App) : Prop where
  unloaded : ∀ id, s.ui.screens.fresh ≤ id → (s.ui.tabBars id).profile = none
  live : ∀ l ∈ s.liveProfile, ∀ email ∈ s.currentUser, l = ⟨email, email⟩

theorem liveTab_of_top {ui : UI} {self : Screen} (htop : ui.top = some self)
    (hkind : self.kind = .tabBar) : liveTab ui.screens.chain = some self := by
  obtain ⟨below, hchain⟩ := List.head?_eq_some_iff.mp htop
  rw [hchain, liveTab, if_pos hkind]

theorem liveTab_append {popped chain : List Screen}
    (htransient : ∀ f ∈ popped, f.kind.transient = true) :
    liveTab (popped ++ chain) = liveTab chain := by
  induction popped with
  | nil => rfl
  | cons f popped ih =>
      have hf := htransient f List.mem_cons_self
      have hkind : f.kind ≠ .tabBar := by
        intro h
        rw [h] at hf
        cases hf
      rw [List.cons_append, liveTab, if_neg hkind, if_pos hf]
      exact ih fun g hg => htransient g (List.mem_cons_of_mem f hg)

/-- A move of the chain shows no other tab bar than before, unless it opens a new one. -/
theorem liveTab_step {Opens : Screen → ScreenKind → Prop} {p p' : Presentation presents}
    {self : Screen} (h : ChainStep Opens p p') (hlive : liveTab p'.chain = some self) :
    liveTab p.chain = some self ∨ self.id = p.fresh := by
  cases h with
  | stay heq => exact .inl (heq ▸ hlive)
  | push top kind htop hopens heq =>
      rw [heq] at hlive
      change liveTab (⟨p.fresh, kind⟩ :: p.chain) = some self at hlive
      rw [liveTab] at hlive
      split at hlive
      · exact .inr (by rw [← Option.some.inj hlive])
      · split at hlive
        · exact .inl hlive
        · cases hlive
  | pop popped hchain htransient hfresh =>
      left
      rw [hchain, liveTab_append htransient]
      exact hlive

theorem UI.apply_tabBars (ui : UI) (action : UIAction) :
    (ui.apply action).tabBars = ui.tabBars := by
  apply UI.apply_frame (R := fun ui' => ui'.tabBars = ui.tabBars) rfl
  · exact fun _ _ _ h => h
  · exact fun _ _ h => h
  · exact fun _ _ => rfl
  · exact fun _ _ _ => rfl
  · exact fun _ _ => rfl

theorem Attempt.failedUI_tabBars (attempt : Attempt) (ui : UI) :
    (attempt.failedUI ui).tabBars = ui.tabBars := by
  cases hform : attempt.form <;> simp [failedUI, hform, UI.present]

theorem Attempt.addedUI_tabBars (attempt : Attempt) (ok : Bool) (ui : UI) :
    (attempt.addedUI ok ui).tabBars = ui.tabBars := by
  cases hform : attempt.form <;> cases ok <;>
    simp [addedUI, hform, UI.present, UI.dismiss, UI.setCreateForm]

private theorem ProfileMatches.of_chain {s s' : App} (h : ProfileMatches s)
    (hchain : ChainStep (Opens s) s.ui.screens s'.ui.screens)
    (htabBars : s'.ui.tabBars = s.ui.tabBars)
    (huser : ∀ email ∈ s'.currentUser, s.currentUser = some email) : ProfileMatches s' := by
  constructor
  · intro id hid
    rw [htabBars]
    exact h.unloaded id (hchain.fresh_le.trans hid)
  · intro l hl email hemail
    obtain ⟨self, hself, hprofile⟩ := Option.bind_eq_some_iff.mp hl
    rw [htabBars] at hprofile
    rcases liveTab_step hchain hself with hself | hid
    · have hlive : l ∈ s.liveProfile := Option.bind_eq_some_iff.mpr ⟨self, hself, hprofile⟩
      exact h.live l hlive email (huser email hemail)
    · rw [h.unloaded self.id (by rw [hid])] at hprofile
      cases hprofile

private theorem ProfileMatches.setTabBar {s : App} (h : ProfileMatches s) {self : Screen}
    (htop : s.ui.top = some self) (hkind : self.kind = .tabBar) {tabBar : TabBar}
    (hprofile : ∀ l ∈ tabBar.profile, ∀ email ∈ s.currentUser, l = ⟨email, email⟩) :
    ProfileMatches { s with ui := s.ui.setTabBar self tabBar } := by
  constructor
  · intro id hid
    have hlt := s.ui.screens.below_fresh self (List.mem_of_mem_head? htop)
    have hfresh : s.ui.screens.fresh ≤ id := hid
    change (Function.update s.ui.tabBars self.id tabBar id).profile = none
    rw [Function.update_of_ne (by omega)]
    exact h.unloaded id hid
  · intro l hl
    obtain ⟨other, hother, hl⟩ := Option.bind_eq_some_iff.mp hl
    obtain rfl : self = other := Option.some.inj ((liveTab_of_top htop hkind).symm.trans hother)
    change (Function.update s.ui.tabBars self.id tabBar self.id).profile = some l at hl
    rw [Function.update_self] at hl
    exact hprofile l hl

private theorem profileMatches_accept {s : App} {k : Nat} {r : Request} (stamp : Stamp)
    (h : ProfileMatches s) (hsame : SameAccount s (.succeed k stamp))
    (hk : s.requests[k]? = some ⟨r, none⟩) : ProfileMatches (s.accept k r stamp) := by
  have hui := accept_screens s k r stamp
  constructor
  · rw [hui]
    exact h.unloaded
  · intro l hl email hemail
    have hlive : l ∈ s.liveProfile := by
      unfold App.liveProfile at hl ⊢
      rwa [hui] at hl
    cases hr : r.signsIn with
    | some account =>
        obtain rfl : account = email :=
          Option.some.inj ((App.accept_signsIn hr stamp).symm.trans hemail)
        exact hsame account (App.mem_signingIn.mpr ⟨r, hk, hr⟩) l hlive
    | none =>
        rw [App.accept_currentUser hr stamp] at hemail
        exact h.live l hlive email hemail

theorem profileMatches_effect {P : Platform} {s s' : App} {e : Event} (h : ProfileMatches s)
    (hplaced : Placed s) (hsame : SameAccount s e) (heffect : Effect P s e s') :
    ProfileMatches s' := by
  have hchain := chain_of_effect hplaced heffect
  cases heffect with
  | ui action => exact h.of_chain hchain (s.ui.apply_tabBars action) fun _ hemail => hemail
  | selectTab self tab htop hkind =>
      refine h.setTabBar htop hkind ?_
      intro l hl
      apply h.live l
      exact Option.bind_eq_some_iff.mpr ⟨self, liveTab_of_top htop hkind, hl⟩
  | loadProfile self account htop hkind huser =>
      refine h.setTabBar htop hkind ?_
      intro l hl email hemail
      obtain rfl : account = email := Option.some.inj (huser.symm.trans hemail)
      exact (Option.some.inj hl).symm
  | signOut self htop hkind hselected =>
      exact h.of_chain hchain rfl fun _ hemail => by cases hemail
  | accept k r stamp hk => exact profileMatches_accept stamp h hsame hk
  | deliver k r ok s' hk hdelivery =>
      refine h.of_chain hchain ?_ ?_
      · cases hdelivery with
        | notUploaded attempt => exact attempt.failedUI_tabBars s.ui
        | gotURL attempt email huser => exact attempt.clearedUI_tabBars s.ui
        | added attempt data ok => exact attempt.addedUI_tabBars ok s.ui
        | _ => rfl
      · intro email hemail
        rwa [hdelivery.currentUser_eq] at hemail
  | dropUser => exact h.of_chain hchain rfl fun _ hemail => by cases hemail
  | _ => exact h.of_chain hchain rfl fun _ hemail => hemail

theorem profileMatches_step {P : Platform} {s s' : App} {e : Event}
    (h : Placed s ∧ ProfileMatches s) (hsame : SameAccount s e)
    (hstep : (appMachine P).step s e = .ok s') : Placed s' ∧ ProfileMatches s' := by
  refine ⟨placed_step h.1 hstep, ?_⟩
  rcases effect_of_step hstep with rfl | heffect
  · exact h.2
  · exact profileMatches_effect h.2 h.1 hsame heffect

theorem profileMatches_launch (persisted : Option String) :
    ProfileMatches (.launch persisted) := by
  constructor
  · intro id _
    rfl
  · intro l hl
    obtain ⟨self, -, hprofile⟩ := Option.bind_eq_some_iff.mp hl
    cases hprofile

private theorem delivered_email {P : Platform} {s : App} {k : Nat} {attempt : Attempt}
    {email : String} (hk : s.requests[k]? = some ⟨.downloadURL attempt, some true⟩)
    (huser : s.currentUser = some email) :
    ∃ s' data, s.deliver P k = .ok s' ∧ ⟨.addDocument attempt data, none⟩ ∈ s'.requests ∧
      data.lookup "email" = some (.string email) := by
  have hdeliver := deliver_downloadURL (P := P) hk
  rw [huser] at hdeliver
  exact ⟨_, _, hdeliver, Pending.mem_post.mpr (.inr rfl), attempt.fields_email P s.ui email⟩

/-- The taps that close an alert, a picker or a form. -/
def Event.closes : Event → Bool
  | .ui .closeAlert | .ui .cancelPicker | .ui .cancelBtnPressed => true
  | _ => false

/-- Closing what is above it brings back a profile that is not the one of the session. -/
def ShowsOtherLater (P : Platform) (s : App) : Prop :=
  (appMachine P).CanEnd (fun e => e.closes = true)
    (fun outcome => ∃ s' self l email, outcome = .ok s' ∧ s'.ui.top = some self ∧
      self.kind = .tabBar ∧ (s'.ui.tabBars self.id).profile = some l ∧
      s'.currentUser = some email ∧ l ≠ ⟨email, email⟩) s

private theorem close_top {P : Platform} {s : App} {f : Screen} (htop : s.ui.top = some f)
    (htransient : f.kind.transient = true) :
    ∃ e : Event, e.closes = true ∧
      (appMachine P).step s e = .ok { s with ui := s.ui.dismiss f } := by
  have honTop (kind : ScreenKind) (hkind : f.kind = kind) :
      s.ui.onTop kind s.ui.dismiss = s.ui.dismiss f := by
    unfold UI.onTop
    rw [UI.topOf_eq_some.mpr ⟨htop, hkind⟩]
  have hcancel (hkind : f.kind = .updateProfile ∨ f.kind = .create) :
      s.ui.cancelBtnPressed = s.ui.dismiss f := by
    unfold UI.cancelBtnPressed
    rw [htop]
    exact if_pos hkind
  cases hkind : f.kind with
  | alert =>
      refine ⟨.ui .closeAlert, rfl, ?_⟩
      rw [← honTop .alert hkind]
      rfl
  | imagePicker =>
      refine ⟨.ui .cancelPicker, rfl, ?_⟩
      rw [← honTop .imagePicker hkind]
      rfl
  | updateProfile =>
      refine ⟨.ui .cancelBtnPressed, rfl, ?_⟩
      rw [← hcancel (.inl hkind)]
      rfl
  | create =>
      refine ⟨.ui .cancelBtnPressed, rfl, ?_⟩
      rw [← hcancel (.inr hkind)]
      rfl
  | _ => simp [hkind, ScreenKind.transient] at htransient

theorem liveTab_kind {chain : List Screen} {self : Screen} (h : liveTab chain = some self) :
    self.kind = .tabBar := by
  induction chain with
  | nil => cases h
  | cons f below ih =>
      rw [liveTab] at h
      by_cases hf : f.kind = .tabBar
      · rw [if_pos hf] at h
        rwa [← Option.some.inj h]
      · rw [if_neg hf] at h
        split at h
        · exact ih h
        · cases h

theorem mem_liveScreens_of_liveTab {chain : List Screen} {self : Screen}
    (h : liveTab chain = some self) : self ∈ liveScreens chain := by
  induction chain with
  | nil => cases h
  | cons f below ih =>
      rw [liveTab] at h
      by_cases hf : f.kind = .tabBar
      · rw [if_pos hf] at h
        obtain rfl := Option.some.inj h
        rw [liveScreens, if_neg (by rw [hf]; exact Bool.false_ne_true)]
        exact List.mem_singleton_self f
      · rw [if_neg hf] at h
        split at h
        · next htransient =>
          rw [liveScreens, if_pos htransient]
          exact List.mem_cons_of_mem f (ih h)
        · cases h

/-- A screen under transient ones comes back into view when these are closed one by one. -/
theorem closes_to_liveScreen {P : Platform} {s : App} {self : Screen}
    (hlive : self ∈ liveScreens s.ui.screens.chain) :
    (appMachine P).CanEnd (fun e => e.closes = true)
      (fun outcome => ∃ ui, outcome = .ok { s with ui := ui } ∧ ui.top = some self ∧
        ui.tabBars = s.ui.tabBars) s := by
  generalize hchain : s.ui.screens.chain = chain at hlive
  induction chain generalizing s with
  | nil => cases hlive
  | cons f below ih =>
      have htop : s.ui.top = some f := congrArg List.head? hchain
      have hhere (hself : self = f) : (appMachine P).CanEnd (fun e => e.closes = true)
          (fun outcome => ∃ ui, outcome = .ok { s with ui := ui } ∧ ui.top = some self ∧
            ui.tabBars = s.ui.tabBars) s :=
        ⟨[], by simp, s.ui, rfl, by rw [hself]; exact htop, rfl⟩
      rw [liveScreens] at hlive
      split at hlive
      · next htransient =>
        rcases List.mem_cons.mp hlive with hself | hbelow
        · exact hhere hself
        · obtain ⟨e, he, hstep⟩ := close_top (P := P) htop htransient
          cases below with
          | nil => cases hbelow
          | cons g below =>
              have hdismissed : (s.ui.dismiss f).screens.chain = g :: below := by
                change Presentation.dismissed f s.ui.screens.chain = g :: below
                rw [hchain, Presentation.dismissed_top]
              exact .of_step hstep he
                (ih (s := { s with ui := s.ui.dismiss f }) hdismissed hbelow)
      · exact hhere (List.mem_singleton.mp hlive)

theorem closes_to_liveTab {P : Platform} {s : App} {self : Screen}
    (hlive : liveTab s.ui.screens.chain = some self) :
    (appMachine P).CanEnd (fun e => e.closes = true)
      (fun outcome => ∃ ui, outcome = .ok { s with ui := ui } ∧ ui.top = some self ∧
        ui.tabBars = s.ui.tabBars) s :=
  closes_to_liveScreen (mem_liveScreens_of_liveTab hlive)

private theorem showsOtherLater_of_live {P : Platform} {s : App} {self : Screen}
    {l : ProfileListeners} {email : String} (hlive : liveTab s.ui.screens.chain = some self)
    (hprofile : (s.ui.tabBars self.id).profile = some l) (huser : s.currentUser = some email)
    (hother : l ≠ ⟨email, email⟩) : ShowsOtherLater P s := by
  refine (closes_to_liveTab hlive).mono ?_
  rintro outcome ⟨ui, rfl, htop, htabBars⟩
  rw [← htabBars] at hprofile
  exact ⟨_, self, l, email, rfl, htop, liveTab_kind hlive, hprofile, huser, hother⟩

private theorem showsOtherLater_of_not_same {P : Platform} {s : App} {e : Event}
    (hnot : ¬ SameAccount s e) :
    ∃ s', (appMachine P).step s e = .ok s' ∧ ShowsOtherLater P s' := by
  cases e with
  | succeed k stamp =>
      unfold SameAccount at hnot
      push Not at hnot
      obtain ⟨email, hemail, l, hl, hother⟩ := hnot
      obtain ⟨r, hk, hr⟩ := App.mem_signingIn.mp hemail
      obtain ⟨self, hself, hprofile⟩ := Option.bind_eq_some_iff.mp hl
      have hui := accept_screens s k r stamp
      rw [← hui] at hself hprofile
      exact ⟨_, step_succeed hk stamp,
        showsOtherLater_of_live hself hprofile (App.accept_signsIn hr stamp) hother⟩
  | _ => exact absurd trivial hnot

/-- When nobody else is signed in beside a profile that may come back into view, a visible
profile listens to the account of the session, which is also the account that new documents
are written for. Any other step lets the profile of somebody else come into view. -/
theorem visible_profile_is_of_session (P : Platform) (persisted : Option String)
    (events : List Event) (s : App)
    (hsame : (appMachine P).Meets SameAccount (.launch persisted) events)
    (hrun : (appMachine P).run (.launch persisted) events = .ok s) :
    (∀ self l email, s.ui.top = some self → self.kind = .tabBar →
      (s.ui.tabBars self.id).profile = some l → s.currentUser = some email →
      l.users = email ∧ l.posts = email ∧
        ∀ k attempt, s.requests[k]? = some ⟨.downloadURL attempt, some true⟩ →
          ∃ s' data, s.deliver P k = .ok s' ∧ ⟨.addDocument attempt data, none⟩ ∈ s'.requests ∧
            data.lookup "email" = some (.string l.posts)) ∧
      ∀ e, ¬ SameAccount s e → ∃ s', (appMachine P).step s e = .ok s' ∧ ShowsOtherLater P s' := by
  refine ⟨?_, fun e hnot => showsOtherLater_of_not_same hnot⟩
  intro self l email htop hkind hloaded huser
  have hinv := Machine.run_induction_of_meets
    (fun _ _ _ h hc hstep => profileMatches_step (P := P) h hc hstep)
    ⟨placed_launch persisted, profileMatches_launch persisted⟩ hsame hrun
  have hlive : l ∈ s.liveProfile :=
    Option.bind_eq_some_iff.mpr ⟨self, liveTab_of_top htop hkind, hloaded⟩
  obtain rfl := hinv.2.live l hlive email huser
  exact ⟨rfl, rfl, fun k attempt hk => delivered_email hk huser⟩

private def loginTwice : List Event :=
  [.ui (.segue .signIn), .ui (.editCredentials "a@x" "pw"), .loginBtnPressed, .loginBtnPressed,
    .succeed 0 ⟨"", 0⟩, .deliver 0, .openTab .profile, .succeed 0 ⟨"", 0⟩]

theorem visible_profile_is_of_session_login_twice :
    ∃ s self l, (appMachine .firebase).run (.launch none) loginTwice = .ok s ∧
      s.ui.top = some self ∧ (s.ui.tabBars self.id).profile = some l ∧
      s.currentUser = some l.users := by
  refine ⟨_, _, _, rfl, rfl, rfl, ?_⟩
  have h := (visible_profile_is_of_session .firebase none loginTwice _ (by decide) rfl).1
  exact congrArg some (h _ _ _ rfl rfl rfl rfl).1.symm

/-- Two logins with different credentials; the second one succeeds when the first one has
already opened the tab bar and its profile. -/
theorem profile_of_first_login_after_second :
    ∃ s self l, (appMachine .firebase).run (.launch none)
        [.ui (.segue .signIn), .ui (.editCredentials "a@x" "pw"), .loginBtnPressed,
          .ui (.editCredentials "b@x" "pw"), .loginBtnPressed, .succeed 0 ⟨"", 0⟩, .deliver 0,
          .openTab .profile, .succeed 0 ⟨"", 0⟩] = .ok s ∧
      s.ui.top = some self ∧ self.kind = .tabBar ∧ (s.ui.tabBars self.id).profile = some l ∧
      l.users = "a@x" ∧ l.posts = "a@x" ∧ s.currentUser = some "b@x" :=
  ⟨_, _, _, rfl, rfl, rfl, rfl, rfl, rfl, rfl⟩

end BookShelf
