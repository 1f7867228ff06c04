import BookShelf.Feed.Table
import BookShelf.Library.RowSource
import BookShelf.Listeners.Mirror

/-!
# The rows of the two lists

The table of the feed and the collection view of the profile as data sources: no callback ends
with a changed array and no reload, so no row that is asked for is out of range.
-/

namespace BookShelf

namespace FeedVC

/-- `tableView(_:numberOfRowsInSection:)`. -/
def numberOfRowsInSection (t : Table) : Nat :=
  t.list.postArray.length

theorem cellForRowAt_eq_error {t : Table} {cell row : Nat} {trap : TableTrap}
    (h : t.cellForRowAt cell row = .error trap) : numberOfRowsInSection t ≤ row := by
  unfold Table.cellForRowAt at h
  split at h
  · next hrow => exact List.getElem?_eq_none_iff.mp hrow
  · cases h

theorem cellForRowAt_list {t t' : Table} {cell row : Nat}
    (h : t.cellForRowAt cell row = .ok t') : t'.list = t.list := by
  unfold Table.cellForRowAt at h
  split at h
  · cases h
  · cases h
    rfl

theorem users_list (t : Table) (l : Nat) (event : SnapshotEvent) :
    (t.users l event).list = t.list := by
  unfold Table.users
  split
  · rfl
  · split <;> rfl

theorem getDatas_of_reloads {list : PostList} {event : SnapshotEvent}
    (h : (getDatas list event).reloads = list.reloads) : getDatas list event = list := by
  cases event with
  | error => rfl
  | nilSnapshot => rfl
  | snapshot documents =>
      unfold getDatas at h ⊢
      dsimp only at h ⊢
      split at h
      · next hempty => rw [if_pos hempty]
      · simp at h

/-- The feed table; only `cellForRowAt` asks for a row. -/
def rowSource : RowSource Table TableEvent TableTrap where
  toMachine := tableMachine
  count := numberOfRowsInSection
  reloads t := t.list.reloads
  row
    | .cellForRowAt _ row => some row
    | _ => none
  trap_out_of_range := by
    intro t e trap hstep
    cases e with
    | cellForRowAt cell row => exact ⟨row, rfl, cellForRowAt_eq_error hstep⟩
    | _ => cases hstep
  count_of_reloads := by
    intro t e t' hstep hreloads
    cases e with
    | posts event =>
        cases hstep
        exact congrArg (List.length ∘ PostList.postArray) (getDatas_of_reloads hreloads)
    | cellForRowAt cell row =>
        exact congrArg (List.length ∘ PostList.postArray) (cellForRowAt_list hstep)
    | users l event =>
        cases hstep
        exact congrArg (List.length ∘ PostList.postArray) (users_list t l event)

end FeedVC

namespace ProfileVC

/-- The list of the profile, with the pictures of its reusable `postCell`s, by number. -/
structure Grid where
  list : PostGrid
  userPostImages : Nat → Picture

def Grid.initial : Grid where
  list := .initial
  userPostImages := fun _ => .asset "Logo"

inductive GridEvent
  | posts (event : SnapshotEvent)
  | cellForItemAt (cell row : Nat)
deriving DecidableEq, Repr

inductive GridTrap
  | rowOutOfRange
deriving DecidableEq, Repr

/-- `collectionView(_:cellForItemAt:)`, the dequeued cell being `cell`. -/
def Grid.cellForItemAt (g : Grid) (cell row : Nat) : Except GridTrap Grid :=
  match g.list.userPosts[row]? with
  | none => .error .rowOutOfRange
  | some post => .ok
      { g with
        userPostImages := Function.update g.userPostImages cell (.url post.imageUrl) }

def gridMachine : Machine Grid GridEvent GridTrap where
  step g
    | .posts event => .ok { g with list := getDatas g.list event }
    | .cellForItemAt cell row => g.cellForItemAt cell row

theorem cellForItemAt_eq_error {g : Grid} {cell row : Nat} {trap : GridTrap}
    (h : g.cellForItemAt cell row = .error trap) : numberOfItemsInSection g.list ≤ row := by
  unfold Grid.cellForItemAt at h
  split at h
  · next hrow => exact List.getElem?_eq_none_iff.mp hrow
  · cases h

theorem cellForItemAt_list {g g' : Grid} {cell row : Nat}
    (h : g.cellForItemAt cell row = .ok g') : g'.list = g.list := by
  unfold Grid.cellForItemAt at h
  split at h
  · cases h
  · cases h
    rfl

theorem appendPost_reloads (grid : PostGrid) (document : Document) :
    (appendPost grid document).reloads = grid.reloads := by
  unfold appendPost
  split
  · rfl
  · split <;> rfl

theorem foldl_appendPost_reloads (grid : PostGrid) (documents : List Document) :
    (documents.foldl appendPost grid).reloads = grid.reloads := by
  induction documents generalizing grid with
  | nil => rfl
  | cons document documents ih => rw [List.foldl_cons, ih, appendPost_reloads]

theorem getDatas_of_reloads {grid : PostGrid} {event : SnapshotEvent}
    (h : (getDatas grid event).reloads = grid.reloads) : getDatas grid event = grid := by
  cases event with
  | error => rfl
  | nilSnapshot => rfl
  | snapshot documents =>
      unfold getDatas at h ⊢
      dsimp only at h ⊢
      split at h
      · next hempty => rw [if_pos hempty]
      · simp [foldl_appendPost_reloads] at h

/-- The collection view; only `cellForItemAt` asks for a row. -/
def rowSource : RowSource Grid GridEvent GridTrap where
  toMachine := gridMachine
  count g := numberOfItemsInSection g.list
  reloads g := g.list.reloads
  row
    | .cellForItemAt _ row => some row
    | _ => none
  trap_out_of_range := by
    intro g e trap hstep
    cases e with
    | cellForItemAt cell row => exact ⟨row, rfl, cellForItemAt_eq_error hstep⟩
    | posts event => cases hstep
  count_of_reloads := by
    intro g e g' hstep hreloads
    cases e with
    | posts event =>
        cases hstep
        exact congrArg numberOfItemsInSection (getDatas_of_reloads hreloads)
    | cellForItemAt cell row => exact congrArg numberOfItemsInSection (cellForItemAt_list hstep)

end ProfileVC

/-- Whatever the listeners deliver and whatever rows the two views ask for, in any order, no
subscript is out of range, and the views never go by another number of rows than there are. -/
theorem row_subscripts_in_range
    (events : List (RowEvent FeedVC.TableEvent ⊕ RowEvent ProfileVC.GridEvent)) :
    ∃ feed profile, (FeedVC.rowSource.view.interleave ProfileVC.rowSource.view).run
        (⟨.initial, none⟩, ⟨.initial, none⟩) events = .ok (feed, profile) ∧
      (∀ n ∈ feed.rows, n = feed.source.list.postArray.length) ∧
      ∀ n ∈ profile.rows, n = profile.source.list.userPosts.length := by
  obtain ⟨⟨feed, profile⟩, hrun, hfeed, hprofile⟩ :=
    Machine.interleave_total (I := FeedVC.rowSource.Fresh) (J := ProfileVC.rowSource.Fresh)
      RowSource.view_step RowSource.view_step
      (s := (⟨.initial, none⟩, ⟨.initial, none⟩)) (by rintro n ⟨⟩) (by rintro n ⟨⟩) events
  exact ⟨feed, profile, hrun, hfeed, hprofile⟩

end BookShelf
