import BookShelf.App.Requests
import BookShelf.Library.Requests

/-!
# The state of the app

The device, the session of Firebase Auth, the requests whose completions have not run, and the
two stores. Fields below `documents` are history variables.
-/

namespace BookShelf

structure App where
  ui : UI
  currentUser : Option String
  requests : List (Pending Request)
  storage : StorageReference → Option Data
  documents : List Added
  /-- The results of `UUID()` so far. -/
  uuids : List String
  /-- The accounts created so far. -/
  accounts : List Account
  /-- The taps on Sign Up whose requests have set the session. -/
  sessionWrites : List Nat
  taps : List SignUpTap
  signUpEnds : List SignUpEnd

/-- A force-unwrapped `Auth.auth().currentUser!` that is nil. -/
inductive Trap
  | profileGetUserInfo
  | profileGetDatas
  | shareDownloadURL
  | updateDownloadURL
deriving DecidableEq, Repr

namespace App

/-- The documents of a collection, in the order in which they were accepted. -/
def collection (s : App) (name : String) : List Added :=
  s.documents.filter fun added => added.collection = name

def posts (s : App) : List Document :=
  (s.collection "Post").map Added.document

def users (s : App) : List Document :=
  (s.collection "Users").map Added.document

def request (s : App) (r : Request) : App :=
  { s with requests := Pending.post s.requests r }

def present (s : App) (self : Screen) (kind : ScreenKind) : App :=
  { s with ui := s.ui.present self kind }

/-- A new attempt draws a UUID and starts to upload. A UUID never comes twice. -/
def startUpload (s : App) (self : Screen) (form : Form) (data : Data) (uuid : String) : App :=
  if uuid ∈ s.uuids then s
  else
    let attempt : Attempt := ⟨self, form, s.currentUser, data, ⟨form.folder, uuid⟩⟩
    { s.request (.putData attempt) with uuids := uuid :: s.uuids }

end App

end BookShelf
