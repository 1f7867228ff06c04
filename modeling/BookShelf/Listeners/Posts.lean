import BookShelf.Firestore.Document
import BookShelf.Library.LogReader

/-!
# The two post listeners

`FeedVC.getDatas` and `ProfileVC.getDatas` rebuild an array of posts in a guarded loop over the
documents of a snapshot. They keep different fields and ask for different ones.
-/

namespace BookShelf

structure Post where
  email : String
  caption : String
  imageUrl : String
deriving DecidableEq, Repr

structure UserPost where
  caption : String
  imageUrl : String
deriving DecidableEq, Repr

namespace FeedVC

/-- `postArray`, and how often the table has been told to reload it. -/
structure PostList where
  postArray : List Post
  reloads : Nat
deriving DecidableEq, Repr

def PostList.initial : PostList :=
  ⟨[], 0⟩

/-- The body of the loop over `snapshot!.documents`. -/
def appendPost (posts : List Post) (document : Document) : List Post :=
  match document.string? "imageUrl" with
  | none => posts
  | some imageURL =>
      match document.string? "caption" with
      | none => posts
      | some caption =>
          match document.string? "email" with
          | none => posts
          | some email => posts ++ [⟨email, caption, imageURL⟩]

/-- One call of the listener that `getDatas` registers on `Post`, newest first. -/
def getDatas (list : PostList) : SnapshotEvent → PostList
  | .error => list
  | .nilSnapshot => list
  | .snapshot documents =>
      if documents.isEmpty then list
      else { postArray := documents.foldl appendPost [], reloads := list.reloads + 1 }

/-- The fields of a document that the feed asks for. -/
def decodePost (document : Document) : Option Post := do
  let imageURL ← document.string? "imageUrl"
  let caption ← document.string? "caption"
  let email ← document.string? "email"
  return ⟨email, caption, imageURL⟩

theorem appendPost_eq (posts : List Post) (document : Document) :
    appendPost posts document = posts ++ (decodePost document).toList := by
  unfold appendPost decodePost
  cases document.string? "imageUrl" <;> cases document.string? "caption" <;>
    cases document.string? "email" <;> simp

theorem foldl_appendPost (posts : List Post) (documents : List Document) :
    documents.foldl appendPost posts = posts ++ documents.filterMap decodePost := by
  induction documents generalizing posts with
  | nil => simp
  | cons document documents ih =>
      rw [List.foldl_cons, ih, appendPost_eq, List.filterMap_cons]
      cases decodePost document <;> simp

/-- A snapshot that is not empty replaces the array by the decoding of its documents. -/
theorem getDatas_snapshot (list : PostList) (documents : List Document) :
    (getDatas list (.snapshot documents)).postArray =
      LogReader.read (List.filterMap decodePost) list.postArray documents := by
  unfold getDatas LogReader.read
  dsimp only
  split
  · rfl
  · rw [foldl_appendPost, List.nil_append]

end FeedVC

namespace ProfileVC

/-- `userPosts`, the text of `postCountLabel`, and how often the collection view has been told
to reload. -/
structure PostGrid where
  userPosts : List UserPost
  postCountLabel : String
  reloads : Nat
deriving DecidableEq, Repr

/-- The label carries its storyboard text until the listener first writes it. -/
def PostGrid.initial : PostGrid :=
  ⟨[], "170", 0⟩

/-- The body of the loop over `snapshot!.documents`. -/
def appendPost (grid : PostGrid) (document : Document) : PostGrid :=
  match document.string? "imageUrl" with
  | none => grid
  | some imageURL =>
      match document.string? "caption" with
      | none => grid
      | some caption =>
          let userPosts := grid.userPosts ++ [⟨caption, imageURL⟩]
          { grid with userPosts := userPosts, postCountLabel := toString userPosts.length }

/-- One call of the listener that `getDatas` registers on the posts of one account. -/
def getDatas (grid : PostGrid) : SnapshotEvent → PostGrid
  | .error => grid
  | .nilSnapshot => grid
  | .snapshot documents =>
      if documents.isEmpty then grid
      else
        let filled := documents.foldl appendPost { grid with userPosts := [] }
        { filled with reloads := filled.reloads + 1 }

/-- The fields of a document that the profile asks for. -/
def decodePost (document : Document) : Option UserPost := do
  let imageURL ← document.string? "imageUrl"
  let caption ← document.string? "caption"
  return ⟨caption, imageURL⟩

theorem appendPost_userPosts (grid : PostGrid) (document : Document) :
    (appendPost grid document).userPosts = grid.userPosts ++ (decodePost document).toList := by
  unfold appendPost decodePost
  cases document.string? "imageUrl" <;> cases document.string? "caption" <;> simp

theorem foldl_appendPost_userPosts (grid : PostGrid) (documents : List Document) :
    (documents.foldl appendPost grid).userPosts =
      grid.userPosts ++ documents.filterMap decodePost := by
  induction documents generalizing grid with
  | nil => simp
  | cons document documents ih =>
      rw [List.foldl_cons, ih, appendPost_userPosts, List.filterMap_cons]
      cases decodePost document <;> simp

theorem getDatas_snapshot (grid : PostGrid) (documents : List Document) :
    (getDatas grid (.snapshot documents)).userPosts =
      LogReader.read (List.filterMap decodePost) grid.userPosts documents := by
  unfold getDatas LogReader.read
  dsimp only
  split
  · rfl
  · dsimp only
    rw [foldl_appendPost_userPosts, List.nil_append]

end ProfileVC

end BookShelf
