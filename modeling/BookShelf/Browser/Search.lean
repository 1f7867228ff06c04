import BookShelf.Browser.Page
import BookShelf.Library.FormQuery

/-!
# Searches

The text of the search bar goes into a URL as it stands. Which texts make the unwrapped URL nil,
and which ones the search engine reads back as they were typed.
-/

namespace BookShelf

open URLSyntax FormQuery

namespace BrowserVC

variable (swift : Segmentation)

theorem legalURL_destination (text : String) :
    legalURL (destination swift text).toList = legalTail text.toList := by
  unfold destination
  split
  · next hroute =>
    have hne : text.toList ≠ [] := by
      intro hempty
      simp [route, Segmentation.starts, Segmentation.hasSuffix, hempty] at hroute
    simp [legalURL, hne]
  · rw [String.toList_append]
    exact legalURL_append (by decide) (by decide) (by decide) (by decide) text.toList
  · rw [String.toList_append]
    exact legalURL_append (by decide) (by decide) (by decide) (by decide) text.toList

private theorem clicked_ok_iff (b : Browser) (text : String) :
    (∃ b', searchBarSearchButtonClicked swift { b with searchBarText := some text } = .ok b') ↔
      legalTail text.toList = true := by
  rw [← legalURL_destination swift text, ← URL.ofString_isSome, Option.isSome_iff_exists]
  simp only [searchBarSearchButtonClicked, loadUrl_eq_ok]
  constructor
  · rintro ⟨-, url, hurl, -⟩
    exact ⟨url, hurl⟩
  · rintro ⟨url, hurl⟩
    exact ⟨_, url, hurl, rfl⟩

/-- The search does not trap just if the text may stand at the end of a URL: all its characters
are legal, its escapes are complete, and it has at most one hash sign. -/
theorem search_never_traps_iff (b : Browser) (text : String) :
    (∃ b', searchBarSearchButtonClicked swift { b with searchBarText := some text } = .ok b') ↔
      wellEscaped text.toList = true ∧ text.toList.count '#' ≤ 1 := by
  rw [clicked_ok_iff, legalTail]
  simp

theorem search_traps_on_two_words :
    searchBarSearchButtonClicked .accents ⟨⟨[], none, []⟩, some "two words"⟩ = .error .loadUrl := by
  decide

/-- The search button is pressed with a text that may stand at the end of a URL. -/
def SearchesLegally (b : Browser) (e : BrowserEvent) : Prop :=
  e = .searchBarSearchButtonClicked → ∀ text ∈ b.searchBarText, legalTail text.toList = true

private theorem step_ok_iff (b : Browser) (e : BrowserEvent) :
    (∃ b', (browserMachine swift).step b e = .ok b') ↔ SearchesLegally b e := by
  cases e with
  | searchBarSearchButtonClicked =>
      cases htext : b.searchBarText with
      | none => simp [browserMachine, searchBarSearchButtonClicked, SearchesLegally, htext]
      | some text =>
          have hb : { b with searchBarText := some text } = b := by rw [← htext]
          have hsearch := clicked_ok_iff swift b text
          rw [hb] at hsearch
          simpa [browserMachine, SearchesLegally, htext] using hsearch
  | bookmark website => simpa [browserMachine, SearchesLegally] using bookmark_loads website b
  | _ => simp [browserMachine, SearchesLegally]

/-- Nothing but a search ever ends the life of the browser. -/
theorem browser_run_ok_iff (b : Browser) (events : List BrowserEvent) :
    (∃ b', (browserMachine swift).run b events = .ok b') ↔
      (browserMachine swift).Meets SearchesLegally b events :=
  Machine.run_ok_iff_meets (step_ok_iff swift) b events

variable {swift}

/-- The search button, with this text in the Google branch, makes the web view load the URL. -/
structure Requests (swift : Segmentation) (text : String) (url : URL) : Prop where
  google : route swift text = .google
  loaded : ∃ b b' : Browser,
    searchBarSearchButtonClicked swift { b with searchBarText := some text } = .ok b' ∧
      b'.webView.current = some url

theorem Requests.absoluteString {text : String} {url : URL} (h : Requests swift text url) :
    url.absoluteString = "https://www.google.com/search?q=" ++ text := by
  obtain ⟨hgoogle, b, b', hclicked, hcurrent⟩ := h
  obtain ⟨loaded, hloaded, rfl⟩ := loadUrl_eq_ok.mp hclicked
  obtain rfl : loaded = url := Option.some.inj hcurrent
  rw [URL.ofString_eq_some.mp hloaded, destination, hgoogle]

theorem Requests.parameters_iff {text : String} {url : URL} (h : Requests swift text url) :
    parameters url.absoluteString = some [("q", text)] ↔ ∀ c ∈ text.toList, ¬ reserved c := by
  have hurl : url.absoluteString =
      "https://www.google.com/search" ++ "?" ++ "q" ++ "=" ++ text := h.absoluteString
  have hlegal : legalTail text.toList = true := by
    rw [← legalURL_destination swift, destination, h.google, ← h.absoluteString]
    exact url.legal
  rw [legalTail, Bool.and_eq_true] at hlegal
  rw [hurl]
  exact parameters_eq_singleton (by decide) (by decide) (by simp [reserved]) hlegal.1

/-- The search engine reads a text as it was typed just if none of its characters has a meaning
in a query. Two such texts never make the same search. -/
theorem search_query_survives_iff {text : String} {url : URL} (h : Requests swift text url) :
    (parameters url.absoluteString = some [("q", text)] ↔ ∀ c ∈ text.toList, ¬ reserved c) ∧
      ∀ text' url', Requests swift text' url' → (∀ c ∈ text.toList, ¬ reserved c) →
        (∀ c ∈ text'.toList, ¬ reserved c) →
        parameters url.absoluteString = parameters url'.absoluteString → text = text' := by
  refine ⟨h.parameters_iff, ?_⟩
  intro text' url' h' hplain hplain' hsame
  rw [h.parameters_iff.mpr hplain, h'.parameters_iff.mpr hplain'] at hsame
  simpa using hsame

private theorem requests_books :
    Requests .accents "books" ⟨"https://www.google.com/search?q=books", by decide⟩ where
  google := by decide
  loaded := ⟨⟨⟨[], none, []⟩, none⟩, _, rfl, rfl⟩

theorem search_query_survives_books :
    parameters "https://www.google.com/search?q=books" = some [("q", "books")] :=
  (search_query_survives_iff requests_books).1.mpr (by simp [reserved])

/-- An ampersand ends the query, and a plus sign searches for what an escaped space does. -/
theorem search_query_lost :
    (∃ url, Requests .accents "a&b" url ∧ parameters url.absoluteString ≠ some [("q", "a&b")]) ∧
      ∃ url url', Requests .accents "a+b" url ∧ Requests .accents "a%20b" url' ∧
        parameters url.absoluteString = parameters url'.absoluteString := by
  let b : Browser := ⟨⟨[], none, []⟩, none⟩
  refine ⟨⟨⟨_, by decide⟩, ⟨by decide, b, _, rfl, rfl⟩, by decide⟩, ?_⟩
  exact ⟨⟨_, by decide⟩, ⟨_, by decide⟩, ⟨by decide, b, _, rfl, rfl⟩, ⟨by decide, b, _, rfl, rfl⟩,
    by decide⟩

end BrowserVC

end BookShelf
