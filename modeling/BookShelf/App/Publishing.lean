import BookShelf.App.State

/-!
# The controllers that publish

`CreateVC.shareBtnPressed` and `UpdateProfileVC.updateProfile`: upload a picture, ask for its
URL, add a document. Each stage starts in the completion of the one before.
-/

namespace BookShelf

variable (P : Platform)

namespace CreateVC

def shareBtnPressed (uuid : String) (s : App) : App :=
  match s.ui.topOf .create with
  | none => s
  | some self =>
      let form := s.ui.createForms self.id
      match form.imageView.bind P.jpegData with
      | none => s
      | some data => s.startUpload self (.create form) data uuid

/-- The caption view as the completion of `downloadURL` rewrites it. -/
def clearPlaceholder (form : CreateForm) : CreateForm :=
  if form.captionTextView = captionPlaceholder then { form with captionTextView := "" } else form

def uploaded (attempt : Attempt) (ok : Bool) (s : App) : App :=
  if ok then s.request (.downloadURL attempt) else s.present attempt.self .alert

/-- The completion of `downloadURL` reads the caption and the session. -/
def gotURL (attempt : Attempt) (ok : Bool) (s : App) : Except Trap App :=
  if ok then
    let form := clearPlaceholder (s.ui.createForms attempt.self.id)
    let cleared := { s with ui := s.ui.setCreateForm attempt.self form }
    match cleared.currentUser with
    | none => .error .shareDownloadURL
    | some email => .ok (cleared.request (.addDocument attempt
        (firestorePost (P.downloadURL attempt.imageReference) form.captionTextView email)))
  else .ok s

def added (attempt : Attempt) (ok : Bool) (s : App) : App :=
  if ok then
    let form : CreateForm :=
      { s.ui.createForms attempt.self.id with
        captionTextView := captionPlaceholder
        imageView := some imagePlaceholder }
    { s with ui := (s.ui.setCreateForm attempt.self form).dismiss attempt.self }
  else s.present attempt.self .alert

end CreateVC

namespace UpdateProfileVC

def updateProfile (self : Screen) (uuid : String) (s : App) : App :=
  let form := s.ui.updateForms self.id
  if form.usernameTextField ≠ "" ∧ form.bioTextField ≠ "" then
    match form.profileImageView with
    | none => s
    | some image =>
        match P.jpegData image with
        | none => s
        | some data => s.startUpload self (.update form) data uuid
  else s

def doneBtnPressed (uuid : String) (s : App) : App :=
  match s.ui.topOf .updateProfile with
  | none => s
  | some self => updateProfile P self uuid s

def uploaded (attempt : Attempt) (ok : Bool) (s : App) : App :=
  if ok then s.request (.downloadURL attempt) else s

/-- The completion of `downloadURL` reads the text fields and the session. -/
def gotURL (attempt : Attempt) (ok : Bool) (s : App) : Except Trap App :=
  if ok then
    let form := s.ui.updateForms attempt.self.id
    match s.currentUser with
    | none => .error .updateDownloadURL
    | some email => .ok (s.request (.addDocument attempt
        (userInfo (P.downloadURL attempt.imageReference) form.bioTextField
          form.usernameTextField email)))
  else .ok s

def added (attempt : Attempt) (ok : Bool) (s : App) : App :=
  if ok then s.present attempt.self .tabBar else s

end UpdateProfileVC

namespace Attempt

/-- The completions of the controller that made the attempt. -/
def uploaded (attempt : Attempt) : Bool → App → App :=
  match attempt.form with
  | .create _ => CreateVC.uploaded attempt
  | .update _ => UpdateProfileVC.uploaded attempt

def gotURL (attempt : Attempt) : Bool → App → Except Trap App :=
  match attempt.form with
  | .create _ => CreateVC.gotURL P attempt
  | .update _ => UpdateProfileVC.gotURL P attempt

def added (attempt : Attempt) : Bool → App → App :=
  match attempt.form with
  | .create _ => CreateVC.added attempt
  | .update _ => UpdateProfileVC.added attempt

end Attempt

end BookShelf
