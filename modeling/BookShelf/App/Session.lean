import BookShelf.App.State

/-!
# The controllers of the session

`SceneDelegate`, `SignInViewController`, `SignUpVC` and `ProfileVC`: taps first, then the
completions of their requests.
-/

namespace BookShelf

/-- `scene(_:willConnectTo:options:)` chooses the root controller. -/
def SceneDelegate.scene (currentUser : Option String) : ScreenKind :=
  if currentUser ≠ none then .tabBar else .login

/-- The app as it starts, with the user that Firebase Auth has persisted, if any. -/
def App.launch (persisted : Option String) : App where
  ui := .root (SceneDelegate.scene persisted)
  currentUser := persisted
  requests := []
  storage := fun _ => none
  documents := []
  uuids := []
  accounts := []
  sessionWrites := []
  taps := []
  signUpEnds := []

namespace SignInViewController

def loginBtnPressed (s : App) : App :=
  match s.ui.topOf .signIn with
  | none => s
  | some self =>
      let fields := s.ui.credentials self.id
      if fields.email ≠ "" ∧ fields.password ≠ "" then s.request (.signIn self fields) else s

/-- The completion of `signIn`: an error message, or the segue `toTabVC`. -/
def signedIn (self : Screen) (ok : Bool) (s : App) : App :=
  if ok then s.present self .tabBar else s.present self .alert

end SignInViewController

namespace SignUpVC

def signUpBtn (s : App) : App :=
  match s.ui.topOf .signUp with
  | none => s
  | some self =>
      let fields := s.ui.credentials self.id
      if fields.email ≠ "" ∧ fields.password ≠ "" then
        let tap : SignUpTap := ⟨s.taps.length, self, fields⟩
        { s.request (.createUser tap) with taps := s.taps ++ [tap] }
      else s

/-- The last thing a tap does is to present a screen, an alert or the segue `toUpdate`. -/
def finish (tap : SignUpTap) (screen : ScreenKind) (s : App) : App :=
  let shown := s.ui.top == some tap.self
  { s.present tap.self screen with
    signUpEnds := s.signUpEnds ++
      [{ tap := tap, session := s.currentUser
         segued := shown && screen == .updateProfile
         alerted := shown && screen == .alert }] }

/-- The completion of `createUser` signs in with what the fields hold by now. -/
def createdUser (tap : SignUpTap) (ok : Bool) (s : App) : App :=
  if ok then s.request (.signInAfterSignUp tap (s.ui.credentials tap.self.id))
  else finish tap .alert s

/-- The completion of the nested `signIn`. -/
def signedIn (tap : SignUpTap) (ok : Bool) (s : App) : App :=
  if ok then finish tap .updateProfile s else finish tap .alert s

end SignUpVC

namespace ProfileVC

/-- `viewDidLoad` registers its listeners with the email of the session, unwrapped by force. -/
def viewDidLoad (currentUser : Option String) : Except Trap ProfileListeners :=
  match currentUser with
  | none => .error .profileGetUserInfo
  | some usersEmail =>
      match currentUser with
      | none => .error .profileGetDatas
      | some postsEmail => .ok ⟨usersEmail, postsEmail⟩

/-- Selecting a tab of the topmost tab bar; the profile tab is loaded on the first occasion. -/
def openTab (tab : Tab) (s : App) : Except Trap App :=
  match s.ui.topOf .tabBar with
  | none => .ok s
  | some self =>
      let tabBar := s.ui.tabBars self.id
      if tab = .profile ∧ tabBar.profile = none then
        match viewDidLoad s.currentUser with
        | .error trap => .error trap
        | .ok listeners => .ok { s with ui := s.ui.setTabBar self ⟨tab, some listeners⟩ }
      else .ok { s with ui := s.ui.setTabBar self { tabBar with selected := tab } }

/-- The handler of the sign-out alert, after the alert has closed. -/
def signOut (throws : Bool) (s : App) : App :=
  match s.ui.topOf .tabBar with
  | none => s
  | some self =>
      if (s.ui.tabBars self.id).selected = .profile then
        if throws then s.present self .alert
        else { s with currentUser := none }.present self .login
      else s

end ProfileVC

end BookShelf
