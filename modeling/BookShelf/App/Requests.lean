import BookShelf.App.Screens
import BookShelf.Firestore.Document

/-!
# Requests to Firebase

The requests that the controllers make, with everything their completions captured.
-/

namespace BookShelf

abbrev Data := List UInt8

/-- `folder` is the child of the storage root, `uuid` the name that `UUID()` gave the object. -/
structure StorageReference where
  folder : String
  uuid : String
deriving DecidableEq, Repr

/-- What UIKit and Firebase Storage decide: the JPEG encoding of a picture, and the download
URL of an object, which belongs to that object alone. -/
structure Platform where
  jpegData : UIImage → Option Data
  downloadURL : StorageReference → String
  downloadURL_injective : Function.Injective downloadURL

/-- The form that a publishing attempt was started from. -/
inductive Form
  | create (form : CreateForm)
  | update (form : UpdateForm)
deriving DecidableEq, Repr

namespace Form

def image : Form → Option UIImage
  | .create form => form.imageView
  | .update form => form.profileImageView

def folder : Form → String
  | .create _ => "media"
  | .update _ => "User Profile Images"

def collection : Form → String
  | .create _ => "Post"
  | .update _ => "Users"

def controller : Form → ScreenKind
  | .create _ => .create
  | .update _ => .updateProfile

/-- The document field that holds the URL of the uploaded image. -/
def imageField : Form → String
  | .create _ => "imageUrl"
  | .update _ => "profileImageURL"

end Form

/-- A publishing attempt: the controller, image data and reference that its completions
captured. `form` and `session` are history variables, the form and the signed-in account at
the tap. -/
structure Attempt where
  self : Screen
  form : Form
  session : Option String
  data : Data
  imageReference : StorageReference
deriving DecidableEq, Repr

/-- A tap on Sign Up, numbered, with the fields that `signUpBtn` read. -/
structure SignUpTap where
  number : Nat
  self : Screen
  credentials : Credentials
deriving DecidableEq, Repr

inductive Request
  | signIn (self : Screen) (credentials : Credentials)
  | createUser (tap : SignUpTap)
  | signInAfterSignUp (tap : SignUpTap) (credentials : Credentials)
  | putData (attempt : Attempt)
  | downloadURL (attempt : Attempt)
  | addDocument (attempt : Attempt) (data : Fields)
deriving DecidableEq, Repr

namespace Request

/-- The account that an accepted request signs in. -/
def signsIn : Request → Option String
  | .signIn _ credentials => some credentials.email
  | .createUser tap => some tap.credentials.email
  | .signInAfterSignUp _ credentials => some credentials.email
  | _ => none

def attempt : Request → Option Attempt
  | .putData attempt => some attempt
  | .downloadURL attempt => some attempt
  | .addDocument attempt _ => some attempt
  | _ => none

def isUpload (r : Request) : Bool :=
  r.attempt.isSome

def signUpTap : Request → Option SignUpTap
  | .createUser tap => some tap
  | .signInAfterSignUp tap _ => some tap
  | _ => none

def isSignUp (r : Request) : Bool :=
  r.signUpTap.isSome

/-- The controller that the completion captured. -/
def self : Request → Screen
  | .signIn self _ => self
  | .createUser tap => tap.self
  | .signInAfterSignUp tap _ => tap.self
  | .putData attempt => attempt.self
  | .downloadURL attempt => attempt.self
  | .addDocument attempt _ => attempt.self

def controller : Request → ScreenKind
  | .signIn _ _ => .signIn
  | .createUser _ => .signUp
  | .signInAfterSignUp _ _ => .signUp
  | .putData attempt => attempt.form.controller
  | .downloadURL attempt => attempt.form.controller
  | .addDocument attempt _ => attempt.form.controller

/-- The object that an upload request is about. -/
def uuid (r : Request) : Option String :=
  r.attempt.map fun attempt => attempt.imageReference.uuid

def tapNumber (r : Request) : Option Nat :=
  r.signUpTap.map SignUpTap.number

end Request

/-- The document that `CreateVC.shareBtnPressed` adds. -/
def firestorePost (imageURL caption email : String) : Fields :=
  [("imageUrl", .string imageURL), ("caption", .string caption), ("email", .string email),
    ("date", .serverTimestamp)]

/-- The document that `UpdateProfileVC.updateProfile` adds. -/
def userInfo (imageURL bio username email : String) : Fields :=
  [("profileImageURL", .string imageURL), ("bio", .string bio), ("username", .string username),
    ("email", .string email)]

/-- A document of a collection. `attempt` is a history variable, the attempt that added it. -/
structure Added where
  collection : String
  document : Document
  attempt : Attempt
deriving DecidableEq, Repr

/-- An account of Firebase Auth. `tap` is a history variable, the tap that created it. -/
structure Account where
  credentials : Credentials
  tap : Nat
deriving DecidableEq, Repr

/-- A tap on Sign Up whose last completion has run: the session at that moment, whether the
segue took place and whether an error alert came up. -/
structure SignUpEnd where
  tap : SignUpTap
  session : Option String
  segued : Bool
  alerted : Bool
deriving DecidableEq, Repr

end BookShelf
