import BookShelf.Library.Machine
import BookShelf.Library.URL

/-!
# The browser tab

`BrowserVC`: the search bar, the bookmarks and the back/forward list of the web view, in which
every load succeeds. A URL that is unwrapped by force and is nil ends the run.
-/

namespace BookShelf

/-- Where Swift separates the Characters of a string, given the scalars before and after the
place. Adjacent ASCII scalars belong to different Characters, but for a line break. -/
structure Segmentation where
  boundary : List Char → List Char → Bool
  boundary_first : ∀ after, boundary [] after = true
  boundary_last : ∀ before, boundary before [] = true
  boundary_ascii : ∀ before after c d, c.val < 128 → d.val < 128 → ¬ (c = '\r' ∧ d = '\n') →
    boundary (before ++ [c]) (d :: after) = true

namespace Segmentation

/-- Line breaks, and the accents of the first block of combining marks. -/
def accents : Segmentation where
  boundary before after :=
    match before.getLast?, after.head? with
    | some c, some d => !(c = '\r' ∧ d = '\n') && !('\u0300' ≤ d ∧ d ≤ '\u036f')
    | _, _ => true
  boundary_first := by simp
  boundary_last := by intro before; cases before.getLast? <;> simp
  boundary_ascii := by
    intro before after c d _ hd hbreak
    have hlow : ¬ '\u0300' ≤ d := fun h => absurd (UInt32.lt_of_le_of_lt h hd) (by decide)
    simp [hbreak, hlow]

variable (swift : Segmentation)

/-- `starts(with:)` for an ASCII prefix, Character by Character. -/
def starts (string : String) (pre : String) : Bool :=
  pre.toList.isPrefixOf string.toList &&
    swift.boundary pre.toList (string.toList.drop pre.toList.length)

/-- `hasSuffix` for an ASCII suffix. -/
def hasSuffix (string : String) (suffix : String) : Bool :=
  suffix.toList.isSuffixOf string.toList &&
    swift.boundary (string.toList.take (string.toList.length - suffix.toList.length)) suffix.toList

end Segmentation

/-- The back/forward list, both sides nearest first. -/
structure WebView where
  back : List URL
  current : Option URL
  forward : List URL
deriving DecidableEq, Repr

namespace WebView

def load (view : WebView) (url : URL) : WebView where
  back := view.current.toList ++ view.back
  current := some url
  forward := []

def canGoBack (view : WebView) : Bool :=
  !view.back.isEmpty

def canGoForward (view : WebView) : Bool :=
  !view.forward.isEmpty

def goBack (view : WebView) : WebView :=
  match view.back with
  | [] => view
  | url :: back => ⟨back, some url, view.current.toList ++ view.forward⟩

def goForward (view : WebView) : WebView :=
  match view.forward with
  | [] => view
  | url :: forward => ⟨view.current.toList ++ view.back, some url, forward⟩

/-- The entry stays the same. -/
def reload (view : WebView) : WebView :=
  view

end WebView

structure Browser where
  webView : WebView
  /-- `searchController.searchBar.text`. -/
  searchBarText : Option String
deriving DecidableEq, Repr

/-- The two URLs that are unwrapped by force. -/
inductive BrowserTrap
  | loadUrl
  | openPage
deriving DecidableEq, Repr

inductive BrowserEvent
  | changeSearchText (text : String)
  | searchBarSearchButtonClicked
  | bookmark (website : String)
  | backButtonPressed
  | forwardButtonPressed
  | refreshButtonPressed
deriving DecidableEq, Repr

namespace BrowserVC

def websites : List String :=
  ["google", "amazon", "facebook", "youtube", "twitter", "apple"]

def loadUrl (urlString : String) (b : Browser) : Except BrowserTrap Browser :=
  match URL.ofString urlString with
  | none => .error .loadUrl
  | some myURL => .ok { webView := b.webView.load myURL, searchBarText := some urlString }

/-- The three branches of `searchBarSearchButtonClicked`. -/
inductive Route
  | address
  | site
  | google
deriving DecidableEq, Repr

def route (swift : Segmentation) (urlString : String) : Route :=
  if swift.starts urlString "http://" || swift.starts urlString "https://" then .address
  else if swift.starts urlString "www." && swift.hasSuffix urlString ".com" then .site
  else .google

/-- The string that `searchBarSearchButtonClicked` passes to `loadUrl`. -/
def destination (swift : Segmentation) (urlString : String) : String :=
  match route swift urlString with
  | .address => urlString
  | .site => "https://" ++ urlString
  | .google => "https://www.google.com/search?q=" ++ urlString

def searchBarSearchButtonClicked (swift : Segmentation) (b : Browser) :
    Except BrowserTrap Browser :=
  match b.searchBarText with
  | none => .ok b
  | some urlString => loadUrl (destination swift urlString) b

/-- `capitalized`, for a single word. -/
def capitalized (website : String) : String :=
  match website.toList with
  | [] => ""
  | c :: rest => String.ofList (c.toUpper :: rest.map Char.toLower)

def openPage (title : String) (b : Browser) : Except BrowserTrap Browser :=
  match URL.ofString ("https://www." ++ title ++ ".com") with
  | none => .error .openPage
  | some url => .ok { b with webView := b.webView.load url }

/-- A choice from the sheet of bookmarks; there is no action for other websites. -/
def bookmark (website : String) (b : Browser) : Except BrowserTrap Browser :=
  if website ∈ websites then openPage (capitalized website) b else .ok b

def backButtonPressed (b : Browser) : Browser :=
  if b.webView.canGoBack then { b with webView := b.webView.goBack } else b

def forwardButtonPressed (b : Browser) : Browser :=
  if b.webView.canGoForward then { b with webView := b.webView.goForward } else b

def refreshButtonPressed (b : Browser) : Browser :=
  { b with webView := b.webView.reload }

def viewDidLoad : Except BrowserTrap Browser :=
  loadUrl "https://www.google.com" ⟨⟨[], none, []⟩, none⟩

end BrowserVC

def browserMachine (swift : Segmentation) : Machine Browser BrowserEvent BrowserTrap where
  step b
    | .changeSearchText text => .ok { b with searchBarText := some text }
    | .searchBarSearchButtonClicked => BrowserVC.searchBarSearchButtonClicked swift b
    | .bookmark website => BrowserVC.bookmark website b
    | .backButtonPressed => .ok (BrowserVC.backButtonPressed b)
    | .forwardButtonPressed => .ok (BrowserVC.forwardButtonPressed b)
    | .refreshButtonPressed => .ok (BrowserVC.refreshButtonPressed b)

namespace BrowserVC

theorem loadUrl_eq_ok {urlString : String} {b b' : Browser} :
    loadUrl urlString b = .ok b' ↔ ∃ url, URL.ofString urlString = some url ∧
      b' = { webView := b.webView.load url, searchBarText := some urlString } := by
  unfold loadUrl
  cases URL.ofString urlString <;> simp [eq_comm]

theorem viewDidLoad_loads : ∃ b, viewDidLoad = .ok b ∧
    b.webView.back = [] ∧ b.searchBarText = some "https://www.google.com" ∧
      b.webView.current.map URL.absoluteString = some "https://www.google.com" :=
  ⟨_, rfl, rfl, rfl, rfl⟩

theorem bookmark_loads (website : String) (b : Browser) : ∃ b', bookmark website b = .ok b' := by
  have hlegal : ∀ website ∈ websites,
      (URL.ofString ("https://www." ++ capitalized website ++ ".com")).isSome = true := by
    decide
  unfold bookmark openPage
  split
  · next hwebsite =>
    obtain ⟨url, hurl⟩ := Option.isSome_iff_exists.mp (hlegal website hwebsite)
    exact ⟨_, by rw [hurl]⟩
  · exact ⟨b, rfl⟩

end BrowserVC

end BookShelf
