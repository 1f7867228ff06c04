import BookShelf.Library.Overwrite
import BookShelf.Listeners.Posts

/-!
# What the post lists show

Over any sequence of calls, the feed and the profile show the posts of the last snapshot that
was not empty. The profile's counter follows its list only while every such snapshot holds a
post that decodes.
-/

namespace BookShelf

namespace SnapshotEvent

/-- The documents of a successful snapshot. -/
def documents? : SnapshotEvent → Option (List Document)
  | .snapshot documents => some documents
  | _ => none

/-- The documents of a successful snapshot that is not empty. -/
def content (e : SnapshotEvent) : Option (List Document) :=
  e.documents?.filter fun documents => !documents.isEmpty

@[simp]
theorem documents?_eq_some {e : SnapshotEvent} {documents : List Document} :
    e.documents? = some documents ↔ e = .snapshot documents := by
  cases e <;> simp [documents?]

end SnapshotEvent

/-- The last snapshot that was not empty; no documents before there is one. -/
def latestContent (events : List SnapshotEvent) : List Document :=
  (events.filterMap SnapshotEvent.content).getLast?.getD []

/-- The last successful snapshot; no documents before there is one. -/
def latestSnapshot (events : List SnapshotEvent) : List Document :=
  (events.filterMap SnapshotEvent.documents?).getLast?.getD []

private theorem foldl_latestContent {σ β : Type} {getDatas : σ → SnapshotEvent → σ}
    (shown : σ → List β) {decode : Document → Option β}
    (hskip : ∀ list e, e.documents? = none → shown (getDatas list e) = shown list)
    (hread : ∀ list documents, shown (getDatas list (.snapshot documents)) =
      LogReader.read (List.filterMap decode) (shown list) documents)
    {list : σ} (hlist : shown list = []) (events : List SnapshotEvent) :
    shown (events.foldl getDatas list) = (latestContent events).filterMap decode := by
  let write : List β → List Document → List β := fun _ documents => documents.filterMap decode
  have hwrite : ∀ posts documents documents',
      write (write posts documents) documents' = write posts documents' := fun _ _ _ => rfl
  have hturn (list : σ) (e : SnapshotEvent) :
      Overwrite.turn SnapshotEvent.content write (shown list) e = shown (getDatas list e) := by
    cases hdocuments : e.documents? with
    | none => simp [hskip list e hdocuments, Overwrite.turn, SnapshotEvent.content, hdocuments]
    | some documents =>
        rw [SnapshotEvent.documents?_eq_some] at hdocuments
        rw [hdocuments, hread]
        cases documents <;> simp [LogReader.read, Overwrite.turn, SnapshotEvent.content,
          SnapshotEvent.documents?, Option.filter, write]
  have hfold : events.foldl (Overwrite.turn SnapshotEvent.content write) (shown list) =
      shown (events.foldl getDatas list) := List.foldl_hom shown hturn
  rw [← hfold, Overwrite.foldl_turn hwrite, hlist, latestContent]
  cases (events.filterMap SnapshotEvent.content).getLast? <;> simp [write]

/-- After any sequence of calls both arrays are the decoding of the last successful snapshot that
was not empty, in its order. -/
theorem lists_mirror_latest_content (events : List SnapshotEvent) :
    (events.foldl FeedVC.getDatas .initial).postArray =
        (latestContent events).filterMap FeedVC.decodePost ∧
      (events.foldl ProfileVC.getDatas .initial).userPosts =
        (latestContent events).filterMap ProfileVC.decodePost := by
  constructor
  · apply foldl_latestContent FeedVC.PostList.postArray
    · intro list e he
      cases e <;> simp [FeedVC.getDatas, SnapshotEvent.documents?] at he ⊢
    · exact FeedVC.getDatas_snapshot
    · simp [FeedVC.PostList.initial]
  · apply foldl_latestContent ProfileVC.PostGrid.userPosts
    · intro grid e he
      cases e <;> simp [ProfileVC.getDatas, SnapshotEvent.documents?] at he ⊢
    · exact ProfileVC.getDatas_snapshot
    · simp [ProfileVC.PostGrid.initial]

/-- The last post disappears from the collection, but not from the lists. -/
theorem lists_keep_last_post :
    let document : Document :=
      ⟨"p1", [("imageUrl", .string "u"), ("caption", .string "c"), ("email", .string "a@x")]⟩
    let events := [SnapshotEvent.snapshot [document], .snapshot []]
    (events.foldl FeedVC.getDatas .initial).postArray ≠
        (latestSnapshot events).filterMap FeedVC.decodePost ∧
      (events.foldl ProfileVC.getDatas .initial).userPosts ≠
        (latestSnapshot events).filterMap ProfileVC.decodePost := by
  decide

private theorem toString_inj {m n : Nat} (h : toString m = toString n) : m = n := by
  have hdigits := congrArg (fun text : String => Nat.ofDigitChars 10 text.toList 0) h
  simpa using hdigits

namespace ProfileVC

/-- `collectionView(_:numberOfItemsInSection:)`. -/
def numberOfItemsInSection (grid : PostGrid) : Nat :=
  grid.userPosts.length

/-- The label shows how many items the collection view does. -/
def PostGrid.CountRight (grid : PostGrid) : Prop :=
  grid.postCountLabel = toString (numberOfItemsInSection grid)

/-- Some document of the snapshot becomes a post. -/
def HasPost (documents : List Document) : Prop :=
  ∃ document ∈ documents, decodePost document ≠ none

instance (documents : List Document) : Decidable (HasPost documents) :=
  inferInstanceAs (Decidable (∃ document ∈ documents, _))

theorem hasPost_cons {document : Document} {documents : List Document} :
    HasPost (document :: documents) ↔ decodePost document ≠ none ∨ HasPost documents := by
  simp [HasPost]

theorem hasPost_iff {documents : List Document} :
    HasPost documents ↔ documents.filterMap decodePost ≠ [] := by
  simp [HasPost]

/-- A document that does not decode leaves the grid alone, any other one sets the label. -/
theorem appendPost_cases (grid : PostGrid) (document : Document) :
    (decodePost document = none ∧ appendPost grid document = grid) ∨
      (decodePost document ≠ none ∧ (appendPost grid document).CountRight) := by
  unfold appendPost decodePost
  cases document.string? "imageUrl" <;> cases document.string? "caption" <;>
    simp [PostGrid.CountRight, numberOfItemsInSection]

theorem foldl_appendPost_cases (grid : PostGrid) (documents : List Document) :
    (¬ HasPost documents ∧ documents.foldl appendPost grid = grid) ∨
      (HasPost documents ∧ (documents.foldl appendPost grid).CountRight) := by
  induction documents generalizing grid with
  | nil => exact .inl ⟨by simp [HasPost], rfl⟩
  | cons document documents ih =>
      rw [List.foldl_cons, hasPost_cons]
      rcases appendPost_cases grid document with ⟨hnone, hgrid⟩ | ⟨hsome, hright⟩
      · rw [hgrid]
        simpa [hnone] using ih grid
      · rcases ih (appendPost grid document) with ⟨-, hgrid⟩ | ⟨-, hrest⟩
        · rw [hgrid]
          exact .inr ⟨.inl hsome, hright⟩
        · exact .inr ⟨.inl hsome, hrest⟩

/-- The label is right, and there is a post. -/
def PostGrid.Counted (grid : PostGrid) : Prop :=
  grid.CountRight ∧ grid.userPosts ≠ []

theorem counted_of_hasPost {documents : List Document} (h : HasPost documents)
    (grid : PostGrid) : (getDatas grid (.snapshot documents)).Counted := by
  have hne : documents ≠ [] := by
    rintro rfl
    simp [HasPost] at h
  constructor
  · rcases foldl_appendPost_cases { grid with userPosts := [] } documents with
      ⟨hnot, -⟩ | ⟨-, hright⟩
    · exact absurd h hnot
    · simpa [getDatas, hne, PostGrid.CountRight, numberOfItemsInSection] using hright
  · rw [getDatas_snapshot, LogReader.read, if_neg (by simpa using hne)]
    exact hasPost_iff.mp h

theorem getDatas_of_not_hasPost {documents : List Document} (hne : documents ≠ [])
    (h : ¬ HasPost documents) (grid : PostGrid) :
    (getDatas grid (.snapshot documents)).userPosts = [] ∧
      (getDatas grid (.snapshot documents)).postCountLabel = grid.postCountLabel := by
  rcases foldl_appendPost_cases { grid with userPosts := [] } documents with
    ⟨-, hgrid⟩ | ⟨hpost, -⟩
  · simp [getDatas, hne, hgrid]
  · exact absurd hpost h

/-- The event is no snapshot whose documents are all skipped. -/
def KeepsCount (e : SnapshotEvent) : Prop :=
  ∀ documents ∈ e.content, HasPost documents

instance (e : SnapshotEvent) : Decidable (KeepsCount e) :=
  inferInstanceAs (Decidable (∀ documents ∈ e.content, HasPost documents))

theorem PostGrid.Counted.step {grid : PostGrid} (h : grid.Counted) {e : SnapshotEvent}
    (he : KeepsCount e) : (getDatas grid e).Counted := by
  cases e with
  | error => exact h
  | nilSnapshot => exact h
  | snapshot documents =>
      by_cases hempty : documents = []
      · simpa [getDatas, hempty] using h
      · apply counted_of_hasPost
        apply he
        simp [SnapshotEvent.content, SnapshotEvent.documents?, Option.filter, hempty]

theorem PostGrid.Counted.keepsCount {grid : PostGrid} (h : grid.Counted) {e : SnapshotEvent}
    (hright : (getDatas grid e).CountRight) : KeepsCount e := by
  intro documents hdocuments
  obtain ⟨hsnapshot, hne⟩ := Option.filter_eq_some_iff.mp hdocuments
  rw [SnapshotEvent.documents?_eq_some] at hsnapshot
  by_contra hnot
  obtain ⟨hposts, hlabel⟩ := getDatas_of_not_hasPost (by simpa using hne) hnot grid
  rw [hsnapshot, CountRight, numberOfItemsInSection, hposts, hlabel, h.1] at hright
  have hlength := toString_inj hright
  exact h.2 (List.length_eq_zero_iff.mp hlength)

theorem countRight_from_counted {grid : PostGrid} (h : grid.Counted)
    (events : List SnapshotEvent) :
    (∀ seen, seen <+: events → (seen.foldl getDatas grid).CountRight) ↔
      ∀ e ∈ events, KeepsCount e := by
  induction events generalizing grid with
  | nil => simpa using h.1
  | cons e events ih =>
      rw [List.forall_mem_cons]
      constructor
      · intro hright
        have he := h.keepsCount (hright [e] (by simp))
        refine ⟨he, (ih (h.step he)).mp ?_⟩
        intro seen hseen
        exact hright (e :: seen) (by simpa using hseen)
      · rintro ⟨he, hevents⟩ seen hseen
        rcases List.prefix_cons_iff.mp hseen with rfl | ⟨rest, rfl, hrest⟩
        · exact h.1
        · exact (ih (h.step he)).mpr hevents rest hrest

private theorem not_countRight_first {documents : List Document} (hnot : ¬ HasPost documents) :
    ¬ (getDatas .initial (.snapshot documents)).CountRight := by
  have hfirst : (getDatas .initial (.snapshot documents)).userPosts = [] ∧
      (getDatas .initial (.snapshot documents)).postCountLabel = "170" := by
    by_cases hempty : documents = []
    · simp [getDatas, hempty, PostGrid.initial]
    · exact getDatas_of_not_hasPost hempty hnot .initial
  rw [PostGrid.CountRight, numberOfItemsInSection, hfirst.1, hfirst.2]
  decide

private theorem countRight_from_first (documents : List Document) (events : List SnapshotEvent) :
    (∀ seen, seen <+: events →
      (seen.foldl getDatas (getDatas .initial (.snapshot documents))).CountRight) ↔
      HasPost documents ∧ ∀ e ∈ events, KeepsCount e := by
  by_cases hpost : HasPost documents
  · rw [countRight_from_counted (counted_of_hasPost hpost .initial)]
    simp [hpost]
  · have hnot := not_countRight_first hpost
    simp only [hpost, false_and, iff_false]
    exact fun hright => hnot (hright [] List.nil_prefix)

/-- From the first successful snapshot on the counter is right after every call just if that
snapshot has a post, and so has every later one that is not empty. -/
theorem post_counter_right_iff (events : List SnapshotEvent) :
    (∀ seen, seen <+: events → (∃ documents, .snapshot documents ∈ seen) →
      (seen.foldl getDatas .initial).postCountLabel =
        toString (numberOfItemsInSection (seen.foldl getDatas .initial))) ↔
      (∀ documents ∈ events.findSome? SnapshotEvent.documents?, HasPost documents) ∧
        ∀ e ∈ events, KeepsCount e := by
  induction events with
  | nil => simp
  | cons e events ih =>
      rw [List.forall_mem_cons]
      cases hdocuments : e.documents? with
      | none =>
          have hsame : getDatas .initial e = .initial := by
            cases e <;> simp [getDatas, SnapshotEvent.documents?] at hdocuments ⊢
          have hkeeps : KeepsCount e := by simp [KeepsCount, SnapshotEvent.content, hdocuments]
          have hne : ∀ documents, .snapshot documents ≠ e := by
            rintro documents rfl
            simp [SnapshotEvent.documents?] at hdocuments
          rw [List.findSome?_cons, hdocuments]
          simp only [hkeeps, true_and]
          rw [← ih]
          constructor
          · intro hright seen hseen ⟨documents, hmem⟩
            have hafter := hright (e :: seen) (by simpa using hseen)
              ⟨documents, List.mem_cons_of_mem e hmem⟩
            rwa [List.foldl_cons, hsame] at hafter
          · intro hright seen hseen ⟨documents, hmem⟩
            rcases List.prefix_cons_iff.mp hseen with rfl | ⟨rest, rfl, hrest⟩
            · cases hmem
            · rw [List.foldl_cons, hsame]
              exact hright rest hrest
                ⟨documents, (List.mem_cons.mp hmem).resolve_left (hne documents)⟩
      | some documents =>
          rw [List.findSome?_cons, hdocuments]
          rw [SnapshotEvent.documents?_eq_some] at hdocuments
          subst hdocuments
          have hkeeps : HasPost documents → KeepsCount (.snapshot documents) := by
            intro hpost kept hkept
            obtain ⟨hsnapshot, -⟩ := Option.filter_eq_some_iff.mp hkept
            cases hsnapshot
            exact hpost
          have hfirst := countRight_from_first documents events
          constructor
          · intro hright
            have hafter := hfirst.mp fun seen hseen =>
              hright (.snapshot documents :: seen) (by simpa using hseen)
                ⟨documents, List.mem_cons_self⟩
            exact ⟨by simpa using hafter.1, hkeeps hafter.1, hafter.2⟩
          · rintro ⟨hpost, -, hevents⟩ seen hseen ⟨other, hmem⟩
            rcases List.prefix_cons_iff.mp hseen with rfl | ⟨rest, rfl, hrest⟩
            · cases hmem
            · exact hfirst.mpr ⟨hpost documents rfl, hevents⟩ rest hrest

/-- An account without posts keeps the counter of the storyboard; one whose only post loses its
picture keeps the old count. -/
theorem post_counter_of_no_posts :
    let none := [SnapshotEvent.snapshot []].foldl getDatas .initial
    let lost := [SnapshotEvent.snapshot
        [⟨"p1", [("imageUrl", .string "u"), ("caption", .string "c")]⟩],
      .snapshot [⟨"p1", [("caption", .string "c")]⟩]].foldl getDatas .initial
    (none.postCountLabel = "170" ∧ numberOfItemsInSection none = 0 ∧
      none.postCountLabel ≠ toString (numberOfItemsInSection none)) ∧
      lost.postCountLabel = "1" ∧ numberOfItemsInSection lost = 0 ∧
      lost.postCountLabel ≠ toString (numberOfItemsInSection lost) := by
  decide

end ProfileVC

end BookShelf
