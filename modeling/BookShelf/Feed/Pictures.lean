import BookShelf.Library.URL
import BookShelf.Listeners.Rows
import BookShelf.SDWebImage.Progress

/-!
# The pictures of the feed and of the profile

The cells of the feed, the cells of the profile and its header have their pictures loaded by one
shared manager. What an image view shows is compared with the picture that the screen has given it
last.
-/

namespace BookShelf

open SDWebImage (Loading LoadEvent NetworkAnswer Coders loadingMachine)

variable {Data Image : Type}

/-- The image views that the screens give to `sd_setImage(with:)`. -/
inductive PictureView
  | postImage (cell : Nat)
  | userProfileImage (cell : Nat)
  | userPostImage (cell : Nat)
  | profileImage
deriving DecidableEq, Repr

/-- The number by which the image loader knows a view. -/
def PictureView.number : PictureView → Nat
  | .profileImage => 0
  | .postImage cell => 3 * cell + 1
  | .userProfileImage cell => 3 * cell + 2
  | .userPostImage cell => 3 * cell + 3

theorem PictureView.number_inj {view view' : PictureView} :
    view.number = view'.number ↔ view = view' := by
  cases view <;> cases view' <;> simp [PictureView.number] <;> omega

/-- `URL(string:)`, for the image loader. -/
def imageURL (string : String) : Option SDWebImage.URL :=
  (URL.ofString string).map URL.absoluteString

/-- The URL of a picture that does not come from the storyboard. -/
def Picture.imageURL : Picture → Option SDWebImage.URL
  | .asset _ => none
  | .url string => BookShelf.imageURL string

/-- The screens that show pictures, with the image loader that they share. -/
structure Gallery (Data Image : Type) where
  feed : FeedVC.Table
  grid : ProfileVC.Grid
  header : ProfileHeader
  loading : Loading Data Image

/-- The image loader is never called but by the screens. -/
inductive GalleryEvent (Data : Type)
  | feed (event : FeedVC.TableEvent)
  | grid (event : ProfileVC.GridEvent)
  | header (event : SnapshotEvent)
  | loading (event : LoadEvent Data) (background : event.isSetImage = false)

inductive GalleryTrap
  | feed (trap : FeedVC.TableTrap)
  | grid (trap : ProfileVC.GridTrap)
deriving DecidableEq, Repr

namespace Gallery

def initial (Data Image : Type) (diskCache : SDWebImage.URL → Option Data) :
    Gallery Data Image where
  feed := .initial
  grid := .initial
  header := .storyboard
  loading := .initial Data Image diskCache

/-- The calls of `sd_setImage(with:)` on one view that a callback makes, in order. -/
def setImages (s : Gallery Data Image) (view : PictureView) (strings : List String) :
    Loading Data Image :=
  strings.foldl (fun loading string => loading.setImage view.number (imageURL string)) s.loading

/-- What `tableView(_:cellForRowAt:)` and the listener of `getUserInfo(userEmail:cell:)` have
loaded. -/
def loadFeed (s : Gallery Data Image) : FeedVC.TableEvent → Loading Data Image
  | .posts _ => s.loading
  | .cellForRowAt cell row =>
      match s.feed.list.postArray[row]? with
      | none => s.loading
      | some post => s.setImages (.postImage cell) [post.imageUrl]
  | .users l (.snapshot collection) =>
      match s.feed.listeners[l]? with
      | none => s.loading
      | some listener => s.setImages (.userProfileImage listener.cell)
          (((whereField "email" listener.userEmail collection).filterMap
            FeedVC.decodeUser).map Prod.snd)
  | .users _ _ => s.loading

/-- What `collectionView(_:cellForItemAt:)` has loaded. -/
def loadGrid (s : Gallery Data Image) : ProfileVC.GridEvent → Loading Data Image
  | .posts _ => s.loading
  | .cellForItemAt cell row =>
      match s.grid.list.userPosts[row]? with
      | none => s.loading
      | some post => s.setImages (.userPostImage cell) [post.imageUrl]

/-- What the listener of `getUserInfo` on the profile has loaded. -/
def loadHeader (s : Gallery Data Image) : SnapshotEvent → Loading Data Image
  | .snapshot documents => s.setImages .profileImage
      ((documents.filterMap ProfileVC.decodeUser).map ProfileVC.UserInfo.profileImageURL)
  | _ => s.loading

/-- The picture that the screen has given the view last. -/
def picture (s : Gallery Data Image) : PictureView → Picture
  | .postImage cell => (s.feed.cells cell).postImage
  | .userProfileImage cell => (s.feed.cells cell).userProfileImage
  | .userPostImage cell => s.grid.userPostImages cell
  | .profileImage => s.header.profileImage

/-- The image that a view shows in place of what the storyboard had for it. -/
def image (s : Gallery Data Image) (view : PictureView) : Option Image :=
  (s.loading.views view.number).image

end Gallery

def galleryMachine [Append Data] (coders : Coders Data Image) :
    Machine (Gallery Data Image) (GalleryEvent Data) GalleryTrap where
  step s
    | .feed event =>
        match FeedVC.tableMachine.step s.feed event with
        | .error trap => .error (.feed trap)
        | .ok feed => .ok { s with feed := feed, loading := s.loadFeed event }
    | .grid event =>
        match ProfileVC.gridMachine.step s.grid event with
        | .error trap => .error (.grid trap)
        | .ok grid => .ok { s with grid := grid, loading := s.loadGrid event }
    | .header event =>
        .ok { s with
          header := ProfileVC.getUserInfo s.header event
          loading := s.loadHeader event }
    | .loading event _ =>
        match (loadingMachine coders).step s.loading event with
        | .error trap => trap.elim
        | .ok loading => .ok { s with loading := loading }

namespace FeedVC

private theorem users_cells (t : Table) (l : Nat) {event : SnapshotEvent}
    (hquiet : event = .error ∨ event = .nilSnapshot) : (t.users l event).cells = t.cells := by
  cases hl : t.listeners[l]? with
  | none => simp only [Table.users, hl]
  | some listener =>
      rcases hquiet with rfl | rfl <;>
        simp only [Table.users, hl, ofQuery, getUserInfo, Function.update_eq_self]

private theorem users_snapshot_cells {t : Table} {l : Nat} {listener : UsersListener}
    (hl : t.listeners[l]? = some listener) (collection : List Document) :
    (t.users l (.snapshot collection)).cells = Function.update t.cells listener.cell
      ((shownUser (whereField "email" listener.userEmail collection)).elim
        (t.cells listener.cell) (setUser (t.cells listener.cell))) := by
  simp only [Table.users, hl, ofQuery, getUserInfo_snapshot]

theorem users_bound (t : Table) (l : Nat) (event : SnapshotEvent) :
    (t.users l event).bound = t.bound := by
  unfold Table.users
  cases t.listeners[l]? with
  | none => rfl
  | some listener => cases event <;> rfl

theorem users_post (t : Table) (l : Nat) (event : SnapshotEvent) (cell : Nat) :
    ((t.users l event).cells cell).captionLabel = (t.cells cell).captionLabel ∧
      ((t.users l event).cells cell).postImage = (t.cells cell).postImage := by
  cases event with
  | error => simp only [users_cells t l (.inl rfl), and_self]
  | nilSnapshot => simp only [users_cells t l (.inr rfl), and_self]
  | snapshot collection =>
      cases hl : t.listeners[l]? with
      | none => simp only [Table.users, hl, and_self]
      | some listener =>
          rw [users_snapshot_cells hl]
          by_cases hcell : cell = listener.cell
          · subst hcell
            rw [Function.update_self]
            cases shownUser (whereField "email" listener.userEmail collection) <;>
              exact ⟨rfl, rfl⟩
          · rw [Function.update_of_ne hcell]
            exact ⟨rfl, rfl⟩

end FeedVC

/-! ## The image loader -/

namespace Gallery

variable {coders : Coders Data Image} {diskCache : SDWebImage.URL → Option Data}
  {s s' : Gallery Data Image} {e : GalleryEvent Data}

section

variable {P : Loading Data Image → Prop}

theorem setImages_keeps (hset : ∀ loading v url, P loading → P (loading.setImage v url))
    (h : P s.loading) (view : PictureView) (strings : List String) :
    P (s.setImages view strings) := by
  unfold setImages
  generalize s.loading = loading at h ⊢
  induction strings generalizing loading with
  | nil => exact h
  | cons string strings ih => exact ih _ (hset loading _ _ h)

theorem loadFeed_keeps (hset : ∀ loading v url, P loading → P (loading.setImage v url))
    (h : P s.loading) (event : FeedVC.TableEvent) : P (s.loadFeed event) := by
  cases event with
  | posts event => exact h
  | cellForRowAt cell row =>
      cases hrow : s.feed.list.postArray[row]? with
      | none => simpa only [loadFeed, hrow] using h
      | some post => simpa only [loadFeed, hrow] using setImages_keeps hset h _ _
  | users l event =>
      cases event with
      | snapshot collection =>
          cases hl : s.feed.listeners[l]? with
          | none => simpa only [loadFeed, hl] using h
          | some listener => simpa only [loadFeed, hl] using setImages_keeps hset h _ _
      | _ => exact h

theorem loadGrid_keeps (hset : ∀ loading v url, P loading → P (loading.setImage v url))
    (h : P s.loading) (event : ProfileVC.GridEvent) : P (s.loadGrid event) := by
  cases event with
  | posts event => exact h
  | cellForItemAt cell row =>
      cases hrow : s.grid.list.userPosts[row]? with
      | none => simpa only [loadGrid, hrow] using h
      | some post => simpa only [loadGrid, hrow] using setImages_keeps hset h _ _

theorem loadHeader_keeps (hset : ∀ loading v url, P loading → P (loading.setImage v url))
    (h : P s.loading) (event : SnapshotEvent) : P (s.loadHeader event) := by
  cases event with
  | snapshot documents => exact setImages_keeps hset h _ _
  | _ => exact h

theorem loading_step [Append Data] (hset : ∀ loading v url, P loading → P (loading.setImage v url))
    (h : P s.loading) (hstep : (galleryMachine coders).step s e = .ok s') :
    P s'.loading ∨ ∃ event hbackground, e = .loading event hbackground ∧
      (loadingMachine coders).step s.loading event = .ok s'.loading := by
  cases e with
  | feed event =>
      left
      simp only [galleryMachine] at hstep
      split at hstep
      · cases hstep
      · cases hstep
        exact loadFeed_keeps hset h event
  | grid event =>
      left
      simp only [galleryMachine] at hstep
      split at hstep
      · cases hstep
      · cases hstep
        exact loadGrid_keeps hset h event
  | header event =>
      left
      cases hstep
      exact loadHeader_keeps hset h event
  | loading event hbackground =>
      right
      simp only [galleryMachine] at hstep
      split at hstep
      · next trap _ => exact trap.elim
      · next loading hloading =>
        cases hstep
        exact ⟨event, hbackground, rfl, hloading⟩

end

/-! ## The pictures -/

theorem imageURL_setImages (h : s.loading.Control) (view : PictureView) (strings : List String)
    (w : PictureView) :
    ((s.setImages view strings).views w.number).imageURL =
      if w = view then
        strings.getLast?.elim ((s.loading.views w.number).imageURL) imageURL
      else (s.loading.views w.number).imageURL := by
  unfold setImages
  generalize s.loading = loading at h ⊢
  induction strings generalizing loading with
  | nil => simp
  | cons string strings ih =>
      rw [List.foldl_cons, ih _ (h.setImage _ _), SDWebImage.imageURL_setImage h]
      by_cases hw : w = view
      · subst hw
        cases hlast : strings.getLast? <;> simp [List.getLast?_cons, hlast]
      · simp [hw, PictureView.number_inj]

/-- Each image view has been given the URL of the picture that its screen has for it. -/
def Agrees (s : Gallery Data Image) : Prop :=
  ∀ view : PictureView, (s.loading.views view.number).imageURL = (s.picture view).imageURL

theorem Agrees.setImages (h : s.Agrees) (hcontrol : s.loading.Control) {view : PictureView}
    {strings : List String} (hloading : s'.loading = s.setImages view strings)
    (hlast : (s'.picture view).imageURL =
      strings.getLast?.elim ((s.picture view).imageURL) imageURL)
    (hothers : ∀ other ≠ view, s'.picture other = s.picture other) : s'.Agrees := by
  intro other
  rw [hloading, imageURL_setImages hcontrol, h other]
  by_cases hview : other = view
  · subst hview
    rw [if_pos rfl, hlast]
  · rw [if_neg hview, hothers other hview]

theorem Agrees.of_quiet (h : s.Agrees) {feed : FeedVC.Table} (hcells : feed.cells = s.feed.cells) :
    Agrees { s with feed := feed } := by
  intro view
  rw [h view]
  cases view <;> simp only [picture, hcells]

theorem Agrees.feed (h : s.Agrees) (hcontrol : s.loading.Control) {event : FeedVC.TableEvent}
    {feed : FeedVC.Table} (hstep : FeedVC.tableMachine.step s.feed event = .ok feed) :
    Agrees { s with feed := feed, loading := s.loadFeed event } := by
  cases event with
  | posts event =>
      cases hstep
      exact h.of_quiet rfl
  | cellForRowAt cell row =>
      change s.feed.cellForRowAt cell row = .ok feed at hstep
      cases hrow : s.feed.list.postArray[row]? with
      | none =>
          simp only [FeedVC.Table.cellForRowAt, hrow] at hstep
          cases hstep
      | some post =>
          simp only [FeedVC.Table.cellForRowAt, hrow] at hstep
          cases hstep
          simp only [loadFeed, hrow]
          refine h.setImages hcontrol rfl ?_ ?_
          · simp [picture, Picture.imageURL]
          · intro other hother
            cases other with
            | postImage c =>
                have hc : c ≠ cell := by simpa using hother
                simp [picture, Function.update_of_ne hc]
            | userProfileImage c =>
                by_cases hc : c = cell
                · subst hc
                  simp [picture]
                · simp [picture, Function.update_of_ne hc]
            | _ => rfl
  | users l event =>
      cases hstep
      cases hl : s.feed.listeners[l]? with
      | none =>
          have hloaded : s.loadFeed (.users l event) = s.loading := by
            cases event <;> simp only [loadFeed, hl]
          rw [hloaded]
          apply h.of_quiet
          simp only [FeedVC.Table.users, hl]
      | some listener =>
          cases event with
          | snapshot collection =>
              set documents := whereField "email" listener.userEmail collection
              have hcells := FeedVC.users_snapshot_cells hl collection
              simp only [loadFeed, hl]
              refine h.setImages hcontrol rfl ?_ ?_
              · rw [List.getLast?_map]
                simp only [picture, hcells, Function.update_self]
                change _ = Option.elim (Option.map _ (FeedVC.shownUser documents)) _ _
                cases FeedVC.shownUser documents <;> rfl
              · intro other hother
                cases other with
                | postImage c => exact (FeedVC.users_post s.feed l (.snapshot collection) c).2
                | userProfileImage c =>
                    have hc : c ≠ listener.cell := by simpa using hother
                    simp only [picture, hcells, Function.update_of_ne hc]
                | _ => rfl
          | error => exact h.of_quiet (FeedVC.users_cells s.feed l (.inl rfl))
          | nilSnapshot => exact h.of_quiet (FeedVC.users_cells s.feed l (.inr rfl))

theorem Agrees.grid (h : s.Agrees) (hcontrol : s.loading.Control) {event : ProfileVC.GridEvent}
    {grid : ProfileVC.Grid} (hstep : ProfileVC.gridMachine.step s.grid event = .ok grid) :
    Agrees { s with grid := grid, loading := s.loadGrid event } := by
  cases event with
  | posts event =>
      cases hstep
      intro view
      rw [loadGrid, h view]
      cases view <;> rfl
  | cellForItemAt cell row =>
      change s.grid.cellForItemAt cell row = .ok grid at hstep
      cases hrow : s.grid.list.userPosts[row]? with
      | none =>
          simp only [ProfileVC.Grid.cellForItemAt, hrow] at hstep
          cases hstep
      | some post =>
          simp only [ProfileVC.Grid.cellForItemAt, hrow] at hstep
          cases hstep
          simp only [loadGrid, hrow]
          refine h.setImages hcontrol rfl ?_ ?_
          · simp [picture, Picture.imageURL]
          · intro other hother
            cases other with
            | userPostImage c =>
                have hc : c ≠ cell := by simpa using hother
                simp [picture, Function.update_of_ne hc]
            | _ => rfl

theorem Agrees.header (h : s.Agrees) (hcontrol : s.loading.Control) (event : SnapshotEvent) :
    Agrees { s with
      header := ProfileVC.getUserInfo s.header event
      loading := s.loadHeader event } := by
  cases event with
  | snapshot documents =>
      refine h.setImages hcontrol rfl ?_ ?_
      · rw [List.getLast?_map, picture, ProfileVC.getUserInfo_snapshot]
        change _ = Option.elim (Option.map _ (ProfileVC.shownUser documents)) _ _
        cases ProfileVC.shownUser documents <;> rfl
      · intro other hother
        cases other with
        | profileImage => exact absurd rfl hother
        | _ => rfl
  | error => exact fun view => (h view).trans (by cases view <;> rfl)
  | nilSnapshot => exact fun view => (h view).trans (by cases view <;> rfl)

theorem Agrees.step [Append Data] (h : s.Agrees) (hcontrol : s.loading.Control)
    (hstep : (galleryMachine coders).step s e = .ok s') : s'.Agrees := by
  cases e with
  | feed event =>
      simp only [galleryMachine] at hstep
      split at hstep
      · cases hstep
      · next hfeed =>
        cases hstep
        exact h.feed hcontrol hfeed
  | grid event =>
      simp only [galleryMachine] at hstep
      split at hstep
      · cases hstep
      · next hgrid =>
        cases hstep
        exact h.grid hcontrol hgrid
  | header event =>
      cases hstep
      exact h.header hcontrol event
  | loading event hbackground =>
      simp only [galleryMachine] at hstep
      split at hstep
      · next trap _ => exact trap.elim
      · next loading hloading =>
        cases hstep
        intro view
        rw [(SDWebImage.stepped_of_step hcontrol hloading).imageURL hcontrol hbackground, h view]
        cases view <;> rfl

theorem agrees_initial (diskCache : SDWebImage.URL → Option Data) :
    (initial Data Image diskCache).Agrees := by
  intro view
  cases view <;> rfl

/-! ## A bound cell shows its post -/

/-- A cell that is bound to a row shows the caption and has the picture of a post by its author
that is in the list. -/
def PostsBound (t : FeedVC.Table) : Prop :=
  ∀ cell b, t.bound cell = some b → ∃ post ∈ t.list.postArray, post.email = b.author ∧
    (t.cells cell).captionLabel = post.caption ∧ (t.cells cell).postImage = .url post.imageUrl

theorem postsBound_step {t t' : FeedVC.Table} {event : FeedVC.TableEvent} (h : PostsBound t)
    (hstep : FeedVC.tableMachine.step t event = .ok t') : PostsBound t' := by
  cases event with
  | posts event =>
      cases hstep
      intro cell b hbound
      simp only [FeedVC.Table.posts] at hbound ⊢
      split at hbound
      · next hreloads =>
        rw [FeedVC.getDatas_of_reloads hreloads]
        exact h cell b hbound
      · cases hbound
  | cellForRowAt cell row =>
      change t.cellForRowAt cell row = .ok t' at hstep
      cases hrow : t.list.postArray[row]? with
      | none =>
          simp only [FeedVC.Table.cellForRowAt, hrow] at hstep
          cases hstep
      | some post =>
          simp only [FeedVC.Table.cellForRowAt, hrow] at hstep
          cases hstep
          intro c b hbound
          by_cases hc : c = cell
          · subst hc
            simp only [Function.update_self] at hbound ⊢
            obtain rfl := Option.some.inj hbound
            exact ⟨post, List.mem_of_getElem? hrow, rfl, rfl, rfl⟩
          · simp only [Function.update_of_ne hc] at hbound ⊢
            exact h c b hbound
  | users l event =>
      cases hstep
      intro cell b hbound
      rw [FeedVC.users_bound] at hbound
      rw [FeedVC.users_list, (FeedVC.users_post t l event cell).1,
        (FeedVC.users_post t l event cell).2]
      exact h cell b hbound

/-! ## Every run -/

theorem agrees_of_run [Append Data] {es : List (GalleryEvent Data)}
    (hrun : (galleryMachine coders).run (initial Data Image diskCache) es = .ok s) :
    s.Agrees ∧ s.loading.Control ∧ s.loading.Sources coders diskCache := by
  refine Machine.run_induction (P := fun s => s.Agrees ∧ s.loading.Control ∧
    s.loading.Sources coders diskCache) ?_ ⟨agrees_initial diskCache,
      Loading.control_initial diskCache, Loading.sources_initial coders diskCache⟩ hrun
  intro s e s' ⟨hagrees, hcontrol, hsources⟩ hstep
  refine ⟨hagrees.step hcontrol hstep, ?_⟩
  have hset : ∀ (loading : Loading Data Image) v url,
      loading.Control ∧ loading.Sources coders diskCache →
      (loading.setImage v url).Control ∧ (loading.setImage v url).Sources coders diskCache :=
    fun loading v url ⟨hcontrol, hsources⟩ =>
      ⟨hcontrol.setImage v url, hsources.setImage hcontrol v url⟩
  rcases loading_step hset ⟨hcontrol, hsources⟩ hstep with hkept | ⟨event, _, _, hloading⟩
  · exact hkept
  · exact ⟨(SDWebImage.stepped_of_step hcontrol hloading).control hcontrol,
      hsources.step hcontrol hloading⟩

theorem Agrees.shown (h : s.Agrees) (hsources : s.loading.Sources coders diskCache)
    {view : PictureView} {image : Image} (hshown : s.image view = some image) :
    ∃ string data, s.picture view = .url string ∧
      (diskCache string = some data ∨ (string, data) ∈ s.loading.served) ∧
      coders.decode string data = some image := by
  obtain ⟨url, hurl, data, hbrought, hdecode⟩ := hsources.shown _ _ hshown
  rw [h view] at hurl
  cases hpicture : s.picture view with
  | asset name =>
      rw [hpicture] at hurl
      cases hurl
  | url string =>
      rw [hpicture] at hurl
      obtain ⟨legal, hlegal, rfl⟩ := Option.map_eq_some_iff.mp hurl
      rw [URL.ofString_eq_some.mp hlegal] at hbrought hdecode
      exact ⟨string, data, rfl, hbrought, hdecode⟩

theorem postsBound_of_run [Append Data] {es : List (GalleryEvent Data)}
    (hrun : (galleryMachine coders).run (initial Data Image diskCache) es = .ok s) :
    PostsBound s.feed := by
  refine Machine.run_induction (P := fun s : Gallery Data Image => PostsBound s.feed) ?_ ?_ hrun
  · intro s e s' h hstep
    cases e with
    | feed event =>
        simp only [galleryMachine] at hstep
        split at hstep
        · cases hstep
        · next hfeed =>
          cases hstep
          exact postsBound_step h hfeed
    | grid event =>
        simp only [galleryMachine] at hstep
        split at hstep
        · cases hstep
        · cases hstep
          exact h
    | header event =>
        cases hstep
        exact h
    | loading event hbackground =>
        simp only [galleryMachine] at hstep
        split at hstep
        · next trap _ => exact trap.elim
        · cases hstep
          exact h
  · intro cell b hbound
    cases hbound

/-- An image view shows nothing that was loaded, or an image of the URL that its screen has given
it last. -/
theorem pictures_are_of_their_url [Append Data] {es : List (GalleryEvent Data)}
    (hrun : (galleryMachine coders).run (initial Data Image diskCache) es = .ok s)
    (view : PictureView) (image : Image) (hshown : s.image view = some image) :
    ∃ string data, s.picture view = .url string ∧
      (diskCache string = some data ∨ (string, data) ∈ s.loading.served) ∧
      coders.decode string data = some image := by
  obtain ⟨hagrees, -, hsources⟩ := agrees_of_run hrun
  exact hagrees.shown hsources hshown

/-- A cell that is recycled while its first picture is still looked for on the disk. -/
def recycledCell : List (GalleryEvent (List Nat)) :=
  let post (caption : String) (imageUrl : String) : Document := ⟨caption,
    [("email", .string "ada@books.app"), ("caption", .string caption),
      ("imageUrl", .string imageUrl)]⟩
  [.feed (.posts (.snapshot [post "Dune" "https://a.b/1", post "Emma" "https://a.b/2"])),
    .feed (.cellForRowAt 0 0), .loading .beginIOTask rfl, .feed (.cellForRowAt 0 1),
    .loading .endIOTask rfl, .loading .main rfl, .loading .beginIOTask rfl, .loading .endIOTask rfl,
    .loading .main rfl, .loading (.start 0) rfl, .loading (.didReceiveData 0 [5]) rfl,
    .loading (.didComplete 0 none) rfl, .loading (.didDecode 0) rfl, .loading .main rfl,
    .loading .main rfl, .loading .main rfl]

private theorem recycledCell_run :
    ∃ s, (galleryMachine SDWebImage.plainCoders).run (initial (List Nat) Nat (fun _ => none))
        recycledCell = .ok s ∧
      s.image (.postImage 0) = some 5 ∧ s.feed.bound 0 = some ⟨"ada@books.app", 1⟩ := by
  obtain ⟨s, hrun, hp⟩ := Machine.exists_of_any (galleryMachine SDWebImage.plainCoders)
    (initial (List Nat) Nat (fun _ => none)) recycledCell
    (fun s => decide (s.image (.postImage 0) = some 5) &&
      decide (s.feed.bound 0 = some ⟨"ada@books.app", 1⟩)) (by decide)
  simp only [Bool.and_eq_true, decide_eq_true_eq] at hp
  exact ⟨s, hrun, hp.1, hp.2⟩

theorem pictures_are_of_their_url_recycled :
    ∃ s, (galleryMachine SDWebImage.plainCoders).run (initial (List Nat) Nat (fun _ => none))
        recycledCell = .ok s ∧
      ∃ string data, s.picture (.postImage 0) = .url string ∧
        (none = some data ∨ (string, data) ∈ s.loading.served) ∧
        SDWebImage.plainCoders.decode string data = some 5 := by
  obtain ⟨s, hrun, himage, -⟩ := recycledCell_run
  exact ⟨s, hrun, pictures_are_of_their_url hrun (.postImage 0) 5 himage⟩

/-- A cell that is bound to a row shows no image but that of the post whose caption it shows, and
that post is in the list, however often the cell was recycled. -/
theorem bound_cells_show_their_post [Append Data] {es : List (GalleryEvent Data)}
    (hrun : (galleryMachine coders).run (initial Data Image diskCache) es = .ok s) (cell : Nat)
    (b : FeedVC.Binding) (hbound : s.feed.bound cell = some b) :
    ∃ post ∈ s.feed.list.postArray, post.email = b.author ∧
      (s.feed.cells cell).captionLabel = post.caption ∧
      ∀ image, s.image (.postImage cell) = some image →
        ∃ data, (diskCache post.imageUrl = some data ∨
            (post.imageUrl, data) ∈ s.loading.served) ∧
          coders.decode post.imageUrl data = some image := by
  obtain ⟨post, hpost, hauthor, hcaption, hpicture⟩ := postsBound_of_run hrun cell b hbound
  refine ⟨post, hpost, hauthor, hcaption, ?_⟩
  intro image hshown
  obtain ⟨hagrees, -, hsources⟩ := agrees_of_run hrun
  obtain ⟨string, data, hstring, hbrought, hdecode⟩ := hagrees.shown hsources hshown
  obtain rfl : post.imageUrl = string := Picture.url.inj (hpicture.symm.trans hstring)
  exact ⟨data, hbrought, hdecode⟩

theorem bound_cells_show_their_post_recycled :
    ∃ s, (galleryMachine SDWebImage.plainCoders).run (initial (List Nat) Nat (fun _ => none))
        recycledCell = .ok s ∧
      ∃ post ∈ s.feed.list.postArray, post.email = "ada@books.app" ∧
        ∃ data, (post.imageUrl, data) ∈ s.loading.served := by
  obtain ⟨s, hrun, himage, hbound⟩ := recycledCell_run
  obtain ⟨post, hpost, hauthor, -, hshown⟩ := bound_cells_show_their_post hrun 0 _ hbound
  obtain ⟨data, hnone | hserved, -⟩ := hshown 5 himage
  · cases hnone
  · exact ⟨s, hrun, post, hpost, hauthor, data, hserved⟩

/-! ## Every picture can be loaded -/

/-- The next handler that the image loader adds is never called. -/
def HandlerIsLate (s : Gallery Data Image) : GalleryEvent Data → Prop
  | .loading event _ => s.loading.HandlerIsLate event
  | _ => False

instance (s : Gallery Data Image) (e : GalleryEvent Data) : Decidable (s.HandlerIsLate e) := by
  unfold HandlerIsLate
  split <;> infer_instance

/-- A thread of the image loader goes on. -/
def GoesOn (s : Gallery Data Image) (answers : Nat → NetworkAnswer Data) :
    GalleryEvent Data → Prop
  | .loading event _ => s.loading.GoesOn answers event
  | _ => False

theorem pursues_of_run [Append Data] {es : List (GalleryEvent Data)}
    (hmeets : (galleryMachine coders).Meets (fun s e => ¬ s.HandlerIsLate e)
      (initial Data Image diskCache) es)
    (hrun : (galleryMachine coders).run (initial Data Image diskCache) es = .ok s) :
    s.loading.Control ∧ s.loading.Pursues := by
  refine Machine.run_induction_of_meets (P := fun s : Gallery Data Image =>
    s.loading.Control ∧ s.loading.Pursues) ?_ ⟨Loading.control_initial diskCache,
      Loading.pursues_initial diskCache⟩ hmeets hrun
  intro s e s' ⟨hcontrol, hpursues⟩ hlate hstep
  have hset : ∀ (loading : Loading Data Image) v url, loading.Control ∧ loading.Pursues →
      (loading.setImage v url).Control ∧ (loading.setImage v url).Pursues :=
    fun loading v url ⟨hcontrol, hpursues⟩ =>
      ⟨hcontrol.setImage v url, hpursues.setImage hcontrol v url⟩
  rcases loading_step hset ⟨hcontrol, hpursues⟩ hstep with hkept | ⟨event, _, rfl, hloading⟩
  · exact hkept
  · have hstepped := SDWebImage.stepped_of_step hcontrol hloading
    exact ⟨hstepped.control hcontrol, hstepped.pursues hpursues hcontrol hlate⟩

theorem exists_run_of_threads [Append Data] {answers : Nat → NetworkAnswer Data}
    {more : List (LoadEvent Data)} {loading : Loading Data Image}
    (hmeets : (loadingMachine coders).Meets
      (fun l e => l.GoesOn answers e ∧ ¬ l.HandlerIsLate e) s.loading more)
    (hrun : (loadingMachine coders).run s.loading more = .ok loading) :
    ∃ es, (galleryMachine coders).Meets (fun s e => s.GoesOn answers e ∧ ¬ s.HandlerIsLate e) s es ∧
      (galleryMachine coders).run s es = .ok { s with loading := loading } := by
  induction more generalizing s with
  | nil =>
      cases hrun
      exact ⟨[], trivial, rfl⟩
  | cons e more ih =>
      obtain ⟨mid, hstep, hrest⟩ := Machine.run_cons_eq_ok.mp hrun
      simp only [Machine.Meets, hstep] at hmeets
      obtain ⟨⟨hgoesOn, hlate⟩, hmeets⟩ := hmeets
      obtain ⟨es, hes, hes'⟩ := ih (s := { s with loading := mid }) hmeets hrest
      have hfirst : (galleryMachine coders).step s (.loading e hgoesOn.isSetImage) =
          .ok { s with loading := mid } := by
        simp only [galleryMachine, hstep]
      refine ⟨.loading e hgoesOn.isSetImage :: es, ⟨⟨hgoesOn, hlate⟩, ?_⟩, ?_⟩
      · rw [hfirst]
        exact hes
      · rw [Machine.run_cons_of_step hfirst]
        exact hes'

/-- As long as no handler has come too late, the threads can go on until every image view that its
screen has given a URL shows an image, or loading that URL has failed. -/
theorem pictures_can_be_loaded [Append Data] (answers : Nat → NetworkAnswer Data)
    {es : List (GalleryEvent Data)}
    (hmeets : (galleryMachine coders).Meets (fun s e => ¬ s.HandlerIsLate e)
      (initial Data Image diskCache) es)
    (hrun : (galleryMachine coders).run (initial Data Image diskCache) es = .ok s) :
    ∃ more loading, (galleryMachine coders).Meets
        (fun s e => s.GoesOn answers e ∧ ¬ s.HandlerIsLate e) s more ∧
      (galleryMachine coders).run s more = .ok { s with loading := loading } ∧
      ∀ view string, s.picture view = .url string → (URL.ofString string).isSome = true →
        (loading.views view.number).image ≠ none ∨ string ∈ loading.failed := by
  obtain ⟨hcontrol, hpursues⟩ := pursues_of_run hmeets hrun
  obtain ⟨more, loading, hmore, -, hrest, -, hviews⟩ := hpursues.finish hcontrol coders answers
  obtain ⟨events, hevents, hevents'⟩ := exists_run_of_threads hmore hrest
  refine ⟨events, loading, hevents, hevents', ?_⟩
  intro view string hpicture hlegal
  obtain ⟨url, hurl⟩ := Option.isSome_iff_exists.mp hlegal
  have hgiven : (s.loading.views view.number).imageURL = some string := by
    rw [(agrees_of_run hrun).1 view, hpicture]
    change (URL.ofString string).map URL.absoluteString = _
    rw [hurl, Option.map_some, URL.ofString_eq_some.mp hurl]
  exact (hviews _ _ hgiven).2

/-- Two rows have just been bound, and the app is offline. -/
def twoCellsBound : List (GalleryEvent (List Nat)) :=
  recycledCell.take 2 ++ [.feed (.cellForRowAt 1 1)]

theorem pictures_can_be_loaded_offline :
    ∃ s, (galleryMachine SDWebImage.plainCoders).run (initial (List Nat) Nat (fun _ => none))
        twoCellsBound = .ok s ∧
      ∃ more loading, (galleryMachine SDWebImage.plainCoders).run s more =
          .ok { s with loading := loading } ∧
        ((loading.views (PictureView.postImage 1).number).image ≠ none ∨
          "https://a.b/2" ∈ loading.failed) := by
  obtain ⟨s, hrun, hp⟩ := Machine.exists_of_any (galleryMachine SDWebImage.plainCoders)
    (initial (List Nat) Nat (fun _ => none)) twoCellsBound
    (fun s => decide (s.picture (.postImage 1) = .url "https://a.b/2")) (by decide)
  obtain ⟨more, loading, -, hmore, hviews⟩ := pictures_can_be_loaded
    (fun _ => ⟨none, none, some (.nsURL .notConnectedToInternet)⟩) (by decide) hrun
  exact ⟨s, hrun, more, loading, hmore,
    hviews (.postImage 1) "https://a.b/2" (of_decide_eq_true hp) (by decide)⟩

end Gallery

end BookShelf
