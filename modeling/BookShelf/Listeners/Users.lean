import BookShelf.Firestore.Document
import BookShelf.Library.Overwrite

/-!
# The two profile listeners

`FeedVC.getUserInfo` writes the author of a post into a table cell, `ProfileVC.getUserInfo`
writes the header of the profile tab. Both overwrite the same views once for every document of
a snapshot that decodes.
-/

namespace BookShelf

/-- What an image view shows: an asset of the storyboard, or what `sd_setImage` was given. -/
inductive Picture
  | asset (name : String)
  | url (string : String)
deriving DecidableEq, Repr

structure FeedCell where
  userNameLabel : String
  postImage : Picture
  captionLabel : String
  userProfileImage : Picture
deriving DecidableEq, Repr

/-- The prototype cell of the storyboard. -/
def FeedCell.storyboard : FeedCell where
  userNameLabel := "Username"
  postImage := .asset "Login ScreenBG"
  captionLabel := "Caption"
  userProfileImage := .asset "PPPlaceholder"

namespace FeedVC

/-- The fields of a `Users` document that a feed cell asks for: username and picture. -/
def decodeUser (document : Document) : Option (String × String) := do
  let profileImg ← document.string? "profileImageURL"
  let username ← document.string? "username"
  return (username, profileImg)

def setUser (cell : FeedCell) (user : String × String) : FeedCell :=
  { cell with userNameLabel := user.1, userProfileImage := .url user.2 }

/-- The body of the loop over `snapshot!.documents`. -/
def showUser (cell : FeedCell) (document : Document) : FeedCell :=
  match document.string? "profileImageURL" with
  | none => cell
  | some profileImg =>
      match document.string? "username" with
      | none => cell
      | some username => setUser cell (username, profileImg)

/-- One call of the listener that `getUserInfo` registers with `cell` captured. -/
def getUserInfo (cell : FeedCell) : SnapshotEvent → FeedCell
  | .error => cell
  | .nilSnapshot => cell
  | .snapshot documents =>
      if documents.isEmpty then cell else documents.foldl showUser cell

/-- The author that a snapshot leaves in a cell. -/
def shownUser (documents : List Document) : Option (String × String) :=
  (documents.filterMap decodeUser).getLast?

theorem setUser_setUser (cell : FeedCell) (user later : String × String) :
    setUser (setUser cell user) later = setUser cell later :=
  rfl

theorem showUser_eq_turn : showUser = Overwrite.turn decodeUser setUser := by
  funext cell document
  unfold showUser Overwrite.turn decodeUser
  cases document.string? "profileImageURL" <;> cases document.string? "username" <;> rfl

theorem getUserInfo_snapshot (cell : FeedCell) (documents : List Document) :
    getUserInfo cell (.snapshot documents) = (shownUser documents).elim cell (setUser cell) := by
  cases documents with
  | nil => rfl
  | cons document documents =>
      rw [getUserInfo, if_neg (by simp), showUser_eq_turn]
      exact Overwrite.foldl_turn setUser_setUser cell (document :: documents)

theorem exists_of_shownUser {documents : List Document} {user : String × String}
    (h : shownUser documents = some user) :
    ∃ document ∈ documents, decodeUser document = some user :=
  List.mem_filterMap.mp (List.mem_of_getLast? h)

end FeedVC

/-- The header of the profile tab. -/
structure ProfileHeader where
  profileImage : Picture
  profileName : String
  profileBioLabel : String
deriving DecidableEq, Repr

def ProfileHeader.storyboard : ProfileHeader where
  profileImage := .asset "PPPlaceholder"
  profileName := "Name"
  profileBioLabel := "Bio"

namespace ProfileVC

/-- The three fields of a `Users` document that the profile tab shows. -/
structure UserInfo where
  profileImageURL : String
  bio : String
  username : String
deriving DecidableEq, Repr

def decodeUser (document : Document) : Option UserInfo := do
  let profileImg ← document.string? "profileImageURL"
  let bio ← document.string? "bio"
  let username ← document.string? "username"
  return ⟨profileImg, bio, username⟩

def setUser (_ : ProfileHeader) (user : UserInfo) : ProfileHeader where
  profileImage := .url user.profileImageURL
  profileName := user.username
  profileBioLabel := user.bio

/-- The body of the loop over `snapshot!.documents`. -/
def showUser (header : ProfileHeader) (document : Document) : ProfileHeader :=
  match document.string? "profileImageURL" with
  | none => header
  | some profileImg =>
      match document.string? "bio" with
      | none => header
      | some bio =>
          match document.string? "username" with
          | none => header
          | some username => setUser header ⟨profileImg, bio, username⟩

/-- One call of the listener that `getUserInfo` registers. -/
def getUserInfo (header : ProfileHeader) : SnapshotEvent → ProfileHeader
  | .error => header
  | .nilSnapshot => header
  | .snapshot documents =>
      if documents.isEmpty then header else documents.foldl showUser header

/-- The profile that a snapshot leaves in the header. -/
def shownUser (documents : List Document) : Option UserInfo :=
  (documents.filterMap decodeUser).getLast?

theorem setUser_setUser (header : ProfileHeader) (user later : UserInfo) :
    setUser (setUser header user) later = setUser header later :=
  rfl

theorem showUser_eq_turn : showUser = Overwrite.turn decodeUser setUser := by
  funext header document
  unfold showUser Overwrite.turn decodeUser
  cases document.string? "profileImageURL" <;> cases document.string? "bio" <;>
    cases document.string? "username" <;> rfl

theorem getUserInfo_snapshot (header : ProfileHeader) (documents : List Document) :
    getUserInfo header (.snapshot documents) =
      (shownUser documents).elim header (setUser header) := by
  cases documents with
  | nil => rfl
  | cons document documents =>
      rw [getUserInfo, if_neg (by simp), showUser_eq_turn]
      exact Overwrite.foldl_turn setUser_setUser header (document :: documents)

end ProfileVC

end BookShelf
