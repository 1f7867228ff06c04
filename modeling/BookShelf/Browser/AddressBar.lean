import BookShelf.Browser.Page

/-!
# The address bar

What a search makes of its text, and whether the search bar goes on telling which page is shown.
Only `loadUrl` writes the bar; bookmarks and the back and forward buttons load a page without it.
-/

namespace BookShelf

namespace Segmentation

variable (swift : Segmentation)

theorem prefix_of_starts {string pre : String} (h : swift.starts string pre = true) :
    pre.toList <+: string.toList := by
  rw [starts, Bool.and_eq_true] at h
  exact List.isPrefixOf_iff_prefix.mp h.1

/-- A prefix that ends before an ASCII character is one Character by Character too. -/
theorem starts_of_ascii {string pre : String} (front rest : List Char) {c d : Char}
    (hpre : pre.toList = front ++ [c]) (hstring : string.toList = front ++ c :: d :: rest)
    (hc : c.val < 128) (hd : d.val < 128) (hbreak : c ≠ '\r') :
    swift.starts string pre = true := by
  have happend : string.toList = pre.toList ++ d :: rest := by
    rw [hpre, hstring, List.append_assoc, List.singleton_append]
  have hdrop : string.toList.drop pre.toList.length = d :: rest := by
    rw [happend, List.drop_left]
  have hprefix : pre.toList <+: string.toList := happend ▸ List.prefix_append _ _
  rw [starts, hdrop, Bool.and_eq_true]
  refine ⟨List.isPrefixOf_iff_prefix.mpr hprefix, ?_⟩
  rw [hpre]
  exact swift.boundary_ascii front rest c d hc hd fun h => hbreak h.1

end Segmentation

namespace BrowserVC

variable (swift : Segmentation)

/-- The string starts like the address of a web page, Character by Character. -/
def WebAddress (string : String) : Prop :=
  swift.starts string "http://" = true ∨ swift.starts string "https://" = true

theorem destination_of_webAddress {text : String} (h : WebAddress swift text) :
    destination swift text = text := by
  have hroute : route swift text = .address := by
    rw [route, if_pos]
    simpa [WebAddress] using h
  rw [destination, hroute]

theorem webAddress_destination (text : String) : WebAddress swift (destination swift text) := by
  have hsite (rest : List Char) (string : String)
      (hstring : string.toList = "https://www.".toList ++ rest) : WebAddress swift string := by
    refine .inr (swift.starts_of_ascii "https:/".toList ("ww.".toList ++ rest) (c := '/') (d := 'w')
      rfl ?_ (by decide) (by decide) (by decide))
    rw [hstring]
    rfl
  unfold destination
  split
  · next hroute =>
    unfold route at hroute
    split at hroute
    · next hscheme => simpa [WebAddress] using hscheme
    · split at hroute <;> cases hroute
  · next hroute =>
    unfold route at hroute
    split at hroute
    · cases hroute
    · split at hroute
      · next hwww =>
        rw [Bool.and_eq_true] at hwww
        obtain ⟨rest, hrest⟩ := swift.prefix_of_starts hwww.1
        refine hsite rest _ ?_
        rw [String.toList_append, ← hrest]
        rfl
      · cases hroute
  · refine hsite ("google.com/search?q=".toList ++ text.toList) _ ?_
    rw [String.toList_append]
    rfl

theorem scheme_of_webAddress {url : URL} (h : WebAddress swift url.absoluteString) :
    url.scheme = "http" ∨ url.scheme = "https" := by
  rcases h with h | h
  · obtain ⟨rest, hrest⟩ := swift.prefix_of_starts h
    exact .inl (URL.scheme_of_prefix "http".toList ("//".toList ++ rest)
      (by decide) hrest.symm)
  · obtain ⟨rest, hrest⟩ := swift.prefix_of_starts h
    exact .inr (URL.scheme_of_prefix "https".toList ("//".toList ++ rest)
      (by decide) hrest.symm)

theorem clicked_eq_ok {b b' : Browser} {text : String} :
    searchBarSearchButtonClicked swift { b with searchBarText := some text } = .ok b' ↔
      ∃ url, URL.ofString (destination swift text) = some url ∧
        b' = { webView := b.webView.load url, searchBarText := some (destination swift text) } :=
  loadUrl_eq_ok

/-- Every search leads to the address of a web page, and the text that it leaves in the search bar
leads there again. -/
theorem addresses_are_normal (text : String) :
    WebAddress swift (destination swift text) ∧
      destination swift (destination swift text) = destination swift text ∧
      ∀ b b' : Browser,
        searchBarSearchButtonClicked swift { b with searchBarText := some text } = .ok b' →
        (∀ url ∈ b'.webView.current, url.scheme = "http" ∨ url.scheme = "https") ∧
          ∃ b'', searchBarSearchButtonClicked swift b' = .ok b'' ∧
            b''.webView.current = b'.webView.current := by
  have hweb := webAddress_destination swift text
  have hnormal := destination_of_webAddress swift hweb
  refine ⟨hweb, hnormal, ?_⟩
  intro b b' hclicked
  obtain ⟨url, hurl, rfl⟩ := (clicked_eq_ok swift).mp hclicked
  constructor
  · rintro loaded ⟨⟩
    apply scheme_of_webAddress swift
    rw [URL.ofString_eq_some.mp hurl]
    exact hweb
  · refine ⟨_, (clicked_eq_ok swift (b := ⟨b.webView.load url, none⟩)).mpr ⟨url, ?_, rfl⟩, rfl⟩
    rw [hnormal]
    exact hurl

end BrowserVC

/-- What the user does with the browser tab. A search is typed and then submitted. -/
inductive BrowserPress
  | search (text : String)
  | openPage (website : String)
  | back
  | forward
  | refresh
deriving DecidableEq, Repr

def BrowserPress.events : BrowserPress → List BrowserEvent
  | .search text => [.changeSearchText text, .searchBarSearchButtonClicked]
  | .openPage website => [.bookmark website]
  | .back => [.backButtonPressed]
  | .forward => [.forwardButtonPressed]
  | .refresh => [.refreshButtonPressed]

/-- The browser, press by press. -/
def pressMachine (swift : Segmentation) : Machine Browser BrowserPress BrowserTrap where
  step b press := (browserMachine swift).run b press.events

namespace BrowserVC

/-- The search bar shows the address of the current page. -/
def AddressShown (b : Browser) : Prop :=
  b.searchBarText = b.webView.current.map URL.absoluteString

instance (b : Browser) : Decidable (AddressShown b) :=
  inferInstanceAs (Decidable (_ = _))

/-- The entry to which a press takes the web view past `loadUrl`. -/
def leadsTo (b : Browser) : BrowserPress → Option URL
  | .openPage website =>
      if website ∈ websites then URL.ofString ("https://www." ++ capitalized website ++ ".com")
      else none
  | .back => b.webView.back.head?
  | .forward => b.webView.forward.head?
  | .search _ | .refresh => none

/-- A press that does not go through `loadUrl` leads to no entry with another address. -/
def KeepsAddress (b : Browser) (press : BrowserPress) : Prop :=
  ∀ url ∈ leadsTo b press, b.webView.current.map URL.absoluteString = some url.absoluteString

variable {swift : Segmentation} {b b' : Browser}

private theorem step_search {text : String}
    (hstep : (pressMachine swift).step b (.search text) = .ok b') : AddressShown b' := by
  have hrun : (browserMachine swift).run b
      [.changeSearchText text, .searchBarSearchButtonClicked] = .ok b' := hstep
  obtain ⟨typed, htyped, hrest⟩ := Machine.run_cons_eq_ok.mp hrun
  cases htyped
  obtain ⟨clicked, hclicked, hend⟩ := Machine.run_cons_eq_ok.mp hrest
  cases hend
  obtain ⟨url, hurl, rfl⟩ := (clicked_eq_ok swift).mp hclicked
  rw [AddressShown, ← URL.ofString_eq_some.mp hurl]
  rfl

private theorem step_openPage (swift : Segmentation) (b : Browser) (website : String) :
    ∃ b', (pressMachine swift).step b (.openPage website) = .ok b' ∧
      b'.searchBarText = b.searchBarText ∧
      b'.webView.current = (leadsTo b (.openPage website)).or b.webView.current := by
  obtain ⟨b', hb'⟩ := bookmark_loads website b
  refine ⟨b', Machine.run_cons_of_step hb' [], ?_⟩
  unfold bookmark at hb'
  split at hb'
  · next hwebsite =>
    unfold openPage at hb'
    rw [leadsTo, if_pos hwebsite]
    split at hb'
    · cases hb'
    · next url hurl =>
      cases hb'
      rw [hurl]
      exact ⟨rfl, rfl⟩
  · next hwebsite =>
    cases hb'
    rw [leadsTo, if_neg hwebsite]
    exact ⟨rfl, rfl⟩

private theorem step_cases {press : BrowserPress}
    (hstep : (pressMachine swift).step b press = .ok b') :
    (leadsTo b press = none ∧ AddressShown b') ∨ (b'.searchBarText = b.searchBarText ∧
      b'.webView.current = (leadsTo b press).or b.webView.current) := by
  cases press with
  | search text => exact .inl ⟨rfl, step_search hstep⟩
  | openPage website =>
      obtain ⟨after, hafter, htext, hcurrent⟩ := step_openPage swift b website
      obtain rfl : after = b' := Except.ok.inj (hafter.symm.trans hstep)
      exact .inr ⟨htext, hcurrent⟩
  | back =>
      obtain rfl : backButtonPressed b = b' := Except.ok.inj hstep
      refine .inr ?_
      rw [leadsTo, backButtonPressed, WebView.canGoBack]
      cases hback : b.webView.back <;> simp [WebView.goBack, hback]
  | forward =>
      obtain rfl : forwardButtonPressed b = b' := Except.ok.inj hstep
      refine .inr ?_
      rw [leadsTo, forwardButtonPressed, WebView.canGoForward]
      cases hforward : b.webView.forward <;> simp [WebView.goForward, hforward]
  | refresh =>
      obtain rfl : refreshButtonPressed b = b' := Except.ok.inj hstep
      exact .inr ⟨rfl, rfl⟩

theorem addressShown_step {press : BrowserPress} (h : AddressShown b)
    (hstep : (pressMachine swift).step b press = .ok b') :
    AddressShown b' ↔ KeepsAddress b press := by
  rcases step_cases hstep with ⟨hnowhere, hshown⟩ | ⟨htext, hcurrent⟩
  · rw [KeepsAddress, hnowhere]
    exact iff_of_true hshown (by simp)
  · rw [AddressShown, htext, hcurrent, h, KeepsAddress]
    cases leadsTo b press <;> simp

private theorem keepsAddress_of_trap {press : BrowserPress} {trap : BrowserTrap}
    (hstep : (pressMachine swift).step b press = .error trap) : KeepsAddress b press := by
  cases press with
  | search text => simp [KeepsAddress, leadsTo]
  | openPage website =>
      obtain ⟨after, hafter, -⟩ := step_openPage swift b website
      cases hafter.symm.trans hstep
  | _ => cases hstep

/-- From the first page on the search bar always shows the address of the current page just if no
bookmark and no back or forward press leads to an entry with another address. -/
theorem address_bar_follows_iff (swift : Segmentation) (presses : List BrowserPress) :
    ∃ b, viewDidLoad = .ok b ∧
      ((pressMachine swift).Always AddressShown b presses ↔
        (pressMachine swift).Meets KeepsAddress b presses) := by
  obtain ⟨b, hload, -, htext, hcurrent⟩ := viewDidLoad_loads
  refine ⟨b, hload, ?_⟩
  refine Machine.always_iff_meets (I := fun _ => True) (fun _ _ _ _ _ => trivial)
    (fun _ _ _ _ h hstep => addressShown_step h hstep)
    (fun _ _ _ hstep => keepsAddress_of_trap hstep) trivial ?_
  exact htext.trans hcurrent.symm

/-- After a search the back button shows the first page again, and a bookmark shows a new one. -/
theorem address_bar_lags :
    (∃ b b', viewDidLoad = .ok b ∧
      (pressMachine .accents).run b [.search "books", .back] = .ok b' ∧
      b'.webView.current.map URL.absoluteString = some "https://www.google.com" ∧
      b'.searchBarText = some "https://www.google.com/search?q=books" ∧ ¬ AddressShown b') ∧
    ∃ b b', viewDidLoad = .ok b ∧ (pressMachine .accents).run b [.openPage "apple"] = .ok b' ∧
      b'.webView.current.map URL.absoluteString = some "https://www.Apple.com" ∧
      b'.searchBarText = some "https://www.google.com" ∧ ¬ AddressShown b' :=
  ⟨⟨_, _, rfl, rfl, rfl, rfl, by decide⟩, ⟨_, _, rfl, rfl, rfl, rfl, by decide⟩⟩

end BrowserVC

end BookShelf
