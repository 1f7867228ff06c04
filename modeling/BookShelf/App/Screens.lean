import BookShelf.Library.Presentation
import Mathlib.Logic.Function.Basic

/-!
# Screens, forms and the taps that stay on the device

The presentation chain of the storyboard, the contents of the forms, and the user actions that
neither talk to Firebase nor read the session.
-/

namespace BookShelf

inductive ScreenKind
  | login
  | signIn
  | signUp
  | tabBar
  | updateProfile
  | create
  | imagePicker
  | alert
deriving DecidableEq, Repr

abbrev Screen := Frame ScreenKind

/-- The presentation segues of the storyboard, and the pickers and alerts that code presents. -/
def presents : ScreenKind → ScreenKind → Bool
  | .login, .signIn => true
  | .login, .signUp => true
  | .signIn, .signUp => true
  | .signIn, .login => true
  | .signIn, .tabBar => true         -- toTabVC
  | .signIn, .alert => true
  | .signUp, .login => true
  | .signUp, .signIn => true
  | .signUp, .updateProfile => true  -- toUpdate
  | .signUp, .alert => true
  | .tabBar, .login => true          -- toExit
  | .tabBar, .updateProfile => true  -- toUpdate
  | .tabBar, .create => true         -- toCreateVC
  | .tabBar, .alert => true
  | .updateProfile, .tabBar => true  -- toMain
  | .updateProfile, .imagePicker => true
  | .create, .imagePicker => true
  | .create, .alert => true
  | _, _ => false

/-- The segues that a storyboard button performs by itself. -/
def buttonSegue : ScreenKind → ScreenKind → Bool
  | .login, .signIn => true
  | .login, .signUp => true
  | .signIn, .signUp => true
  | .signIn, .login => true
  | .signUp, .login => true
  | .signUp, .signIn => true
  | _, _ => false

/-- A picture, known by name. -/
structure UIImage where
  name : String
deriving DecidableEq, Repr

/-- The two text fields of `SignInViewController` and of `SignUpVC`. -/
structure Credentials where
  email : String
  password : String
deriving DecidableEq, Repr

def captionPlaceholder : String :=
  "Enter your comment..."

def imagePlaceholder : UIImage :=
  ⟨"imagePlaceholder"⟩

structure CreateForm where
  captionTextView : String
  editing : Bool
  imageView : Option UIImage
deriving DecidableEq, Repr

def CreateForm.storyboard : CreateForm where
  captionTextView := captionPlaceholder
  editing := false
  imageView := some imagePlaceholder

structure UpdateForm where
  usernameTextField : String
  bioTextField : String
  profileImageView : Option UIImage
  bannerImageView : Option UIImage
  buttonID : Nat
deriving DecidableEq, Repr

def UpdateForm.storyboard : UpdateForm where
  usernameTextField := ""
  bioTextField := ""
  profileImageView := some ⟨"PPPlaceholder"⟩
  bannerImageView := some imagePlaceholder
  buttonID := 0

inductive Tab
  | feed
  | messages
  | browser
  | profile
deriving DecidableEq, Repr

/-- The emails with which a `ProfileVC` registered its `Users` and its `Post` listener. -/
structure ProfileListeners where
  users : String
  posts : String
deriving DecidableEq, Repr

/-- `profile` is `none` until the profile tab has been loaded. -/
structure TabBar where
  selected : Tab
  profile : Option ProfileListeners
deriving DecidableEq, Repr

/-- The presentation chain, and the contents of every controller ever instantiated, by
identity: a controller that has been dismissed lives on in the closures that captured it. -/
structure UI where
  screens : Presentation presents
  credentials : Nat → Credentials
  createForms : Nat → CreateForm
  updateForms : Nat → UpdateForm
  tabBars : Nat → TabBar

namespace UI

/-- The window with one root controller, everything else as the storyboard has it. -/
def root (kind : ScreenKind) : UI where
  screens := .root kind
  credentials := fun _ => ⟨"", ""⟩
  createForms := fun _ => .storyboard
  updateForms := fun _ => .storyboard
  tabBars := fun _ => ⟨.feed, none⟩

def top (ui : UI) : Option Screen :=
  ui.screens.top

/-- The topmost controller, if it is of the given kind: taps reach no other. -/
def topOf (ui : UI) (kind : ScreenKind) : Option Screen :=
  ui.top.filter fun self => self.kind = kind

theorem topOf_eq_some {ui : UI} {kind : ScreenKind} {self : Screen} :
    ui.topOf kind = some self ↔ ui.top = some self ∧ self.kind = kind := by
  simp [topOf, Option.filter_eq_some_iff]

def present (ui : UI) (self : Screen) (kind : ScreenKind) : UI :=
  { ui with screens := ui.screens.present self kind }

def dismiss (ui : UI) (self : Screen) : UI :=
  { ui with screens := ui.screens.dismiss self }

def setCredentials (ui : UI) (self : Screen) (fields : Credentials) : UI :=
  { ui with credentials := Function.update ui.credentials self.id fields }

def setCreateForm (ui : UI) (self : Screen) (form : CreateForm) : UI :=
  { ui with createForms := Function.update ui.createForms self.id form }

def setUpdateForm (ui : UI) (self : Screen) (form : UpdateForm) : UI :=
  { ui with updateForms := Function.update ui.updateForms self.id form }

def setTabBar (ui : UI) (self : Screen) (tabBar : TabBar) : UI :=
  { ui with tabBars := Function.update ui.tabBars self.id tabBar }

end UI

inductive UIAction
  | editCredentials (email password : String)
  | segue (destination : ScreenKind)
  | editBtnPressed
  | showAlertWithDistructiveButton
  | closeAlert
  | addBtnPressed
  | textViewDidBeginEditing
  | changeCaption (text : String)
  | textViewDidEndEditing
  | selectImage (tag : Nat)
  | didFinishPickingMedia (image : Option UIImage)
  | cancelPicker
  | editProfileFields (username bio : String)
  | cancelBtnPressed
deriving DecidableEq, Repr

namespace CreateForm

def textViewDidBeginEditing (form : CreateForm) : CreateForm :=
  { form with
    captionTextView :=
      if form.captionTextView = captionPlaceholder then "" else form.captionTextView
    editing := true }

def textViewDidEndEditing (form : CreateForm) : CreateForm :=
  { form with
    captionTextView :=
      if form.captionTextView = "" then captionPlaceholder else form.captionTextView
    editing := false }

end CreateForm

namespace UpdateForm

/-- `imageSelect(sender:)` remembers which of the two pictures is being chosen. -/
def imageSelect (form : UpdateForm) (tag : Nat) : UpdateForm :=
  if tag = 0 then { form with buttonID := 0 }
  else if tag = 1 then { form with buttonID := 1 }
  else form

def didFinishPickingMedia (form : UpdateForm) (image : Option UIImage) : UpdateForm :=
  if form.buttonID = 0 then { form with profileImageView := image }
  else if form.buttonID = 1 then { form with bannerImageView := image }
  else form

end UpdateForm

namespace UI

/-- The picked image goes to the controller that presented the picker, which dismisses it. -/
def didFinishPickingMedia (ui : UI) (image : Option UIImage) : UI :=
  match ui.screens.chain with
  | picker :: owner :: _ =>
      if picker.kind = .imagePicker then
        match owner.kind with
        | .create =>
            (ui.setCreateForm owner
              { ui.createForms owner.id with imageView := image }).dismiss owner
        | .updateProfile =>
            (ui.setUpdateForm owner
              ((ui.updateForms owner.id).didFinishPickingMedia image)).dismiss owner
        | _ => ui
      else ui
  | _ => ui

def selectImage (ui : UI) (tag : Nat) : UI :=
  match ui.top with
  | none => ui
  | some self =>
      match self.kind with
      | .create => ui.present self .imagePicker
      | .updateProfile =>
          (ui.setUpdateForm self ((ui.updateForms self.id).imageSelect tag)).present self
            .imagePicker
      | _ => ui

def editCredentials (ui : UI) (fields : Credentials) : UI :=
  match ui.top with
  | none => ui
  | some self =>
      if self.kind = .signIn ∨ self.kind = .signUp then ui.setCredentials self fields else ui

def segue (ui : UI) (destination : ScreenKind) : UI :=
  match ui.top with
  | none => ui
  | some self => if buttonSegue self.kind destination then ui.present self destination else ui

def cancelBtnPressed (ui : UI) : UI :=
  match ui.top with
  | none => ui
  | some self =>
      if self.kind = .updateProfile ∨ self.kind = .create then ui.dismiss self else ui

/-- An action of the topmost controller of the given kind. -/
def onTop (ui : UI) (kind : ScreenKind) (action : Screen → UI) : UI :=
  match ui.topOf kind with
  | none => ui
  | some self => action self

/-- An action that the tab bar offers while the given tab is selected. -/
def onTab (ui : UI) (tab : Tab) (action : Screen → UI) : UI :=
  ui.onTop .tabBar fun self =>
    if (ui.tabBars self.id).selected = tab then action self else ui

def onCreateForm (ui : UI) (change : CreateForm → CreateForm) : UI :=
  ui.onTop .create fun self => ui.setCreateForm self (change (ui.createForms self.id))

def apply (ui : UI) : UIAction → UI
  | .editCredentials email password => ui.editCredentials ⟨email, password⟩
  | .segue destination => ui.segue destination
  | .editBtnPressed => ui.onTab .profile fun self => ui.present self .updateProfile
  | .showAlertWithDistructiveButton => ui.onTab .profile fun self => ui.present self .alert
  | .closeAlert => ui.onTop .alert ui.dismiss
  | .addBtnPressed => ui.onTab .feed fun self => ui.present self .create
  | .textViewDidBeginEditing => ui.onCreateForm CreateForm.textViewDidBeginEditing
  | .changeCaption text => ui.onCreateForm fun form =>
      if form.editing then { form with captionTextView := text } else form
  | .textViewDidEndEditing => ui.onCreateForm CreateForm.textViewDidEndEditing
  | .selectImage tag => ui.selectImage tag
  | .didFinishPickingMedia image => ui.didFinishPickingMedia image
  | .cancelPicker => ui.onTop .imagePicker ui.dismiss
  | .editProfileFields username bio => ui.onTop .updateProfile fun self =>
      ui.setUpdateForm self
        { ui.updateForms self.id with usernameTextField := username, bioTextField := bio }
  | .cancelBtnPressed => ui.cancelBtnPressed

end UI

end BookShelf
