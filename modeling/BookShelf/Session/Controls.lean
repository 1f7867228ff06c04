import BookShelf.App.Effects
import BookShelf.App.Firebase

/-!
# Controls within reach

The app behind its controls: a tap does something only if the control has an action and is on a
visible view. The profile tab is a navigation controller of its own, whose bar carries the
sign-out item, and whose gear pushes the settings screen.
-/

namespace BookShelf

/-- The navigation controller of a profile tab. -/
structure ProfileStack where
  isNavigationBarHidden : Bool
  signOutItem : Bool
  /-- The settings screen is on top of `ProfileVC`. -/
  settings : Bool
deriving DecidableEq, Repr

/-- `navigationBarHidden="YES"`. -/
def ProfileStack.storyboard : ProfileStack where
  isNavigationBarHidden := true
  signOutItem := false
  settings := false

/-- What `viewDidLoad` does to the navigation bar: `navItemsConfig` first, then hide it. -/
def ProfileStack.viewDidLoad (stack : ProfileStack) : ProfileStack :=
  { stack with signOutItem := true, isNavigationBarHidden := true }

/-- The controls that sign out, and those on the way to them. -/
inductive Control
  | signOutItem
  | signOutAction (throws : Bool)
  | backItem
  | editButton
  | gearButton
  | settingsBack
  | settingsInfo
  | settingsLogOut
  | tabItem (tab : Tab)
deriving DecidableEq, Repr

/-- A tap on one of the controls above, or any other event. -/
inductive Action
  | tap (control : Control)
  | other (e : Event)
deriving DecidableEq, Repr

/-- `signOutAlerts` are the alerts that `showAlertWithDistructiveButton` has presented. -/
structure Navigation where
  app : App
  profiles : Nat → ProfileStack
  signOutAlerts : List Nat

/-- The buttons of the settings screen have no connections. -/
def Control.connected : Control → Bool
  | .settingsBack | .settingsInfo | .settingsLogOut => false
  | _ => true

/-- The event needs one of the controls. -/
def Event.controlled : Event → Bool
  | .ui .showAlertWithDistructiveButton | .ui .editBtnPressed | .openTab _ | .signOut _ => true
  | _ => false

namespace Navigation

def launch (persisted : Option String) : Navigation where
  app := .launch persisted
  profiles := fun _ => .storyboard
  signOutAlerts := []

/-- The profile tab is in view, in a state with `p`. -/
def showsProfile (n : Navigation) (p : ProfileStack → Bool) : Bool :=
  match n.app.ui.topOf .tabBar with
  | none => false
  | some self =>
      (n.app.ui.tabBars self.id).selected = .profile && p (n.profiles self.id)

def visible (n : Navigation) : Control → Bool
  | .signOutItem => n.showsProfile fun stack =>
      !stack.isNavigationBarHidden && stack.signOutItem && !stack.settings
  | .signOutAction _ => (n.app.ui.topOf .alert).any fun alert => n.signOutAlerts.contains alert.id
  | .backItem => n.showsProfile fun stack => !stack.isNavigationBarHidden && stack.settings
  | .editButton | .gearButton => n.showsProfile fun stack => !stack.settings
  | .settingsBack | .settingsInfo | .settingsLogOut => n.showsProfile ProfileStack.settings
  | .tabItem _ => (n.app.ui.topOf .tabBar).isSome

def enabled (n : Navigation) (control : Control) : Bool :=
  control.connected && n.visible control

/-- The events of the app that an enabled control stands for. An action of an alert closes it. -/
def performs : Control → List Event
  | .signOutItem => [.ui .showAlertWithDistructiveButton]
  | .signOutAction throws => [.ui .closeAlert, .signOut throws]
  | .editButton => [.ui .editBtnPressed]
  | .tabItem tab => [.openTab tab]
  | _ => []

def performed (n : Navigation) : Action → List Event
  | .tap control => if n.enabled control then performs control else []
  | .other e => if e.controlled then [] else [e]

/-- What the tap does to the navigation controller of the tab bar. A tab that is tapped again
pops to its root. -/
def stackAfter (tabBar : TabBar) (stack : ProfileStack) : Control → ProfileStack
  | .gearButton => { stack with settings := true }
  | .backItem => { stack with settings := false }
  | .tabItem .profile =>
      if tabBar.profile = none then stack.viewDidLoad
      else if tabBar.selected = .profile then { stack with settings := false }
      else stack
  | _ => stack

def profilesAfter (n : Navigation) : Action → Nat → ProfileStack
  | .tap control =>
      if n.enabled control then
        match n.app.ui.topOf .tabBar with
        | none => n.profiles
        | some self => Function.update n.profiles self.id
            (stackAfter (n.app.ui.tabBars self.id) (n.profiles self.id) control)
      else n.profiles
  | .other _ => n.profiles

def alertsAfter (n : Navigation) : Action → List Nat
  | .tap .signOutItem =>
      if n.enabled .signOutItem then n.app.ui.screens.fresh :: n.signOutAlerts
      else n.signOutAlerts
  | _ => n.signOutAlerts

end Navigation

def navigationMachine (P : Platform) : Machine Navigation Action Trap where
  step n a :=
    match (appMachine P).run n.app (n.performed a) with
    | .error trap => .error trap
    | .ok app => .ok ⟨app, n.profilesAfter a, n.alertsAfter a⟩

/-- Were the bar shown, the item would sign out. -/
example : ∃ n, (navigationMachine .firebase).run
      ⟨{ App.launch (some "a@x") with
          ui := (UI.root .tabBar).setTabBar ⟨0, .tabBar⟩ ⟨.profile, some ⟨"a@x", "a@x"⟩⟩ },
        fun _ => ⟨false, true, false⟩, []⟩
      [.tap .signOutItem, .tap (.signOutAction false)] = .ok n ∧
    n.app.currentUser = none ∧ n.app.ui.top = some ⟨2, .login⟩ :=
  ⟨_, rfl, rfl, rfl⟩

/-- Some sequence of taps and other events lets `Auth.auth().signOut()` run. -/
def CanSignOut (P : Platform) (n : Navigation) : Prop :=
  ∃ actions, (navigationMachine P).Passes
    (fun mid a => ∃ throws, .signOut throws ∈ mid.performed a) n actions

/-- No sign-out item is in view, and no sign-out alert has ever been. -/
structure NoWayOut (n : Navigation) : Prop where
  hidden : ∀ id, (n.profiles id).isNavigationBarHidden = true
  alerts : n.signOutAlerts = []

variable {P : Platform} {n n' : Navigation} {a : Action}

theorem run_of_navigation_step (h : (navigationMachine P).step n a = .ok n') :
    (appMachine P).run n.app (n.performed a) = .ok n'.app ∧ n'.profiles = n.profilesAfter a ∧
      n'.signOutAlerts = n.alertsAfter a := by
  simp only [navigationMachine] at h
  split at h
  · cases h
  · next app happ =>
    cases h
    exact ⟨happ, rfl, rfl⟩

theorem mem_performed {e : Event} :
    e ∈ n.performed a ↔
      (∃ control, a = .tap control ∧ n.enabled control = true ∧ e ∈ Navigation.performs control) ∨
        a = .other e ∧ e.controlled = false := by
  cases a with
  | tap control =>
      by_cases henabled : n.enabled control = true <;> simp [Navigation.performed, henabled]
  | other e' =>
      by_cases hcontrolled : e'.controlled = true
      · simp only [Navigation.performed, if_pos hcontrolled]
        constructor
        · intro hmem
          cases hmem
        · rintro (⟨control, hcontrol, -⟩ | ⟨hother, hfree⟩)
          · cases hcontrol
          · cases hother
            rw [hcontrolled] at hfree
            cases hfree
      · simp only [Navigation.performed, if_neg hcontrolled, List.mem_singleton]
        constructor
        · rintro rfl
          exact .inr ⟨rfl, by simpa using hcontrolled⟩
        · rintro (⟨control, hcontrol, -⟩ | ⟨hother, -⟩)
          · cases hcontrol
          · cases hother
            rfl

/-- What the controls allow is a run of the app. -/
theorem navigation_refines {actions : List Action}
    (h : (navigationMachine P).run n actions = .ok n') :
    ∃ events, (appMachine P).run n.app events = .ok n'.app := by
  induction actions generalizing n with
  | nil =>
      cases h
      exact ⟨[], rfl⟩
  | cons a actions ih =>
      obtain ⟨mid, hstep, hrest⟩ := Machine.run_cons_eq_ok.mp h
      obtain ⟨events, hevents⟩ := ih hrest
      refine ⟨n.performed a ++ events, ?_⟩
      rw [Machine.run_append (run_of_navigation_step hstep).1]
      exact hevents

namespace NoWayOut

theorem launch (persisted : Option String) : NoWayOut (.launch persisted) :=
  ⟨fun _ => rfl, rfl⟩

theorem signOutItem_disabled (h : NoWayOut n) : n.enabled .signOutItem = false := by
  simp only [Navigation.enabled, Control.connected, Navigation.visible, Navigation.showsProfile,
    Bool.true_and]
  split
  · rfl
  · simp [h.hidden]

theorem signOutAction_disabled (h : NoWayOut n) (throws : Bool) :
    n.enabled (.signOutAction throws) = false := by
  simp [Navigation.enabled, Control.connected, Navigation.visible, h.alerts]

theorem not_signOut (h : NoWayOut n) (a : Action) (throws : Bool) :
    .signOut throws ∉ n.performed a := by
  intro hmem
  rcases mem_performed.mp hmem with ⟨control, rfl, henabled, hperforms⟩ | ⟨-, hfree⟩
  · cases control with
    | signOutAction other =>
        rw [h.signOutAction_disabled other] at henabled
        cases henabled
    | _ => simp [Navigation.performs] at hperforms
  · cases hfree

theorem stackAfter_hidden {stack : ProfileStack} (h : stack.isNavigationBarHidden = true)
    (tabBar : TabBar) (control : Control) :
    (Navigation.stackAfter tabBar stack control).isNavigationBarHidden = true := by
  unfold Navigation.stackAfter
  split
  · exact h
  · exact h
  · split
    · rfl
    · split <;> exact h
  · exact h

theorem profilesAfter_hidden (h : NoWayOut n) (a : Action) (id : Nat) :
    (n.profilesAfter a id).isNavigationBarHidden = true := by
  cases a with
  | other e => exact h.hidden id
  | tap control =>
      by_cases henabled : n.enabled control = true
      · simp only [Navigation.profilesAfter, if_pos henabled]
        cases n.app.ui.topOf .tabBar with
        | none => exact h.hidden id
        | some self =>
            by_cases hid : id = self.id
            · simp only [hid, Function.update_self]
              exact stackAfter_hidden (h.hidden self.id) _ control
            · simp only [Function.update_of_ne hid]
              exact h.hidden id
      · simp only [Navigation.profilesAfter, if_neg henabled]
        exact h.hidden id

theorem step (h : NoWayOut n) (hstep : (navigationMachine P).step n a = .ok n') : NoWayOut n' := by
  obtain ⟨-, hprofiles, halerts⟩ := run_of_navigation_step hstep
  constructor
  · intro id
    rw [hprofiles]
    exact h.profilesAfter_hidden a id
  · rw [halerts]
    unfold Navigation.alertsAfter
    split
    · rw [h.signOutItem_disabled]
      exact h.alerts
    · exact h.alerts

theorem run (h : NoWayOut n) {actions : List Action}
    (hrun : (navigationMachine P).run n actions = .ok n') : NoWayOut n' :=
  Machine.run_induction (fun _ _ _ h hstep => step h hstep) h hrun

theorem not_canSignOut (h : NoWayOut n) : ¬ CanSignOut P n := by
  rintro ⟨actions, before, a, after, mid, -, hrun, throws, hmem⟩
  exact (h.run hrun).not_signOut a throws hmem

end NoWayOut

theorem session_kept {s s' : App} {e : Event} (huser : s.currentUser ≠ none)
    (hsignOut : e ≠ .signOut false) (hdrop : e ≠ .dropUser)
    (hstep : (appMachine P).step s e = .ok s') : s'.currentUser ≠ none := by
  cases SessionStep.of_step hstep with
  | kept hsame =>
      rw [hsame]
      exact huser
  | signedIn k r stamp email hevent hk hr hsigned =>
      rw [hsigned]
      exact Option.some_ne_none email
  | signedOut self hevent htop hkind hselected heq => exact absurd hevent hsignOut
  | dropped hevent heq => exact absurd hevent hdrop

/-- While Firebase Auth does not drop the user by itself, a signed-in user stays so. -/
theorem NoWayOut.session_step (h : NoWayOut n ∧ n.app.currentUser ≠ none)
    (hdrop : a ≠ .other .dropUser) (hstep : (navigationMachine P).step n a = .ok n') :
    NoWayOut n' ∧ n'.app.currentUser ≠ none := by
  refine ⟨h.1.step hstep, ?_⟩
  have hmeets : (appMachine P).Meets (fun _ e => e ≠ .signOut false ∧ e ≠ .dropUser) n.app
      (n.performed a) := by
    apply Machine.meets_of_forall
    intro e he _
    constructor
    · rintro rfl
      exact h.1.not_signOut a false he
    · rintro rfl
      rcases mem_performed.mp he with ⟨control, rfl, -, hperforms⟩ | ⟨hother, -⟩
      · cases control <;> simp [Navigation.performs] at hperforms
      · exact hdrop hother
  exact Machine.run_induction_of_meets
    (fun _ _ _ huser hc hstep => session_kept (P := P) huser hc.1 hc.2 hstep) h.2 hmeets
    (run_of_navigation_step hstep).1

/-- In no reachable state is there a way to sign out, and without Firebase Auth dropping the
user by itself the session of a signed-in user never ends. -/
theorem nobody_signs_out (P : Platform) (persisted : Option String) (actions : List Action)
    (n : Navigation)
    (hrun : (navigationMachine P).run (.launch persisted) actions = .ok n) :
    ¬ CanSignOut P n ∧
      (n.app.currentUser ≠ none → ∀ more n', .other .dropUser ∉ more →
        (navigationMachine P).run n more = .ok n' → n'.app.currentUser ≠ none) := by
  have hno := (NoWayOut.launch persisted).run hrun
  refine ⟨hno.not_canSignOut, ?_⟩
  intro huser more n' hdrop hmore
  have hmeets : (navigationMachine P).Meets (fun _ a => a ≠ .other .dropUser) n more := by
    apply Machine.meets_of_forall
    rintro a ha _ rfl
    exact hdrop ha
  exact (Machine.run_induction_of_meets
    (fun _ _ _ h hc hstep => NoWayOut.session_step (P := P) h hc hstep)
    ⟨hno, huser⟩ hmeets hmore).2

/-- Every control of the profile tab and of the settings screen in turn. -/
private def searching : List Action :=
  [.tap (.tabItem .profile), .tap .signOutItem, .tap (.signOutAction false), .tap .gearButton,
    .tap .settingsLogOut, .tap .settingsBack, .tap .backItem, .tap (.tabItem .profile),
    .tap .editButton, .other (.ui .cancelBtnPressed), .tap .signOutItem,
    .tap (.signOutAction false)]

theorem nobody_signs_out_searching :
    ∃ n, (navigationMachine .firebase).run (.launch (some "a@x")) searching = .ok n ∧
      n.app.currentUser = some "a@x" ∧ n.app.ui.top = some ⟨0, .tabBar⟩ ∧
      ¬ CanSignOut .firebase n := by
  refine ⟨_, rfl, rfl, rfl, ?_⟩
  exact (nobody_signs_out .firebase (some "a@x") searching _ rfl).1

/-- Right after the launch with a persisted user. -/
theorem launched_user_stays :
    (Navigation.launch (some "a@x")).app.currentUser = some "a@x" ∧
      (Navigation.launch (some "a@x")).app.ui.top = some ⟨0, .tabBar⟩ ∧
      ¬ CanSignOut .firebase (.launch (some "a@x")) := by
  refine ⟨rfl, rfl, ?_⟩
  exact (NoWayOut.launch (some "a@x")).not_canSignOut

end BookShelf
