import BookShelf.Library.Machine
import BookShelf.Listeners.Posts
import BookShelf.Listeners.Users
import Mathlib.Logic.Function.Basic

/-!
# The feed table

`FeedVC` as a machine: the post listener replaces `postArray` and reloads the table, the data
source binds new or recycled cells to rows, and each binding registers one more listener on
`Users` that keeps the cell it was called with. No listener is ever removed.
-/

namespace BookShelf.FeedVC

/-- A listener registered by `getUserInfo(userEmail:cell:)`, and whether it has been called
with a snapshot yet. -/
structure UsersListener where
  userEmail : String
  cell : Nat
  delivered : Bool
deriving DecidableEq, Repr

/-- The row a cell was last bound to: its author and the listener registered on that occasion. -/
structure Binding where
  author : String
  listener : Nat
deriving DecidableEq, Repr

/-- Cells and listeners are known by number. Two history variables: `usersSeen`, the documents that
were in `Users` when some snapshot was taken, and `writtenBy`, the email of the listener that last
wrote the author of a cell. -/
structure Table where
  list : PostList
  cells : Nat → FeedCell
  bound : Nat → Option Binding
  listeners : List UsersListener
  usersSeen : List Document
  writtenBy : Nat → Option String

def Table.initial : Table where
  list := .initial
  cells := fun _ => .storyboard
  bound := fun _ => none
  listeners := []
  usersSeen := []
  writtenBy := fun _ => none

/-- `users listener event` calls one listener; a snapshot is given by the contents of the whole
`Users` collection, from which the listener receives the result of its own query. -/
inductive TableEvent
  | posts (event : SnapshotEvent)
  | cellForRowAt (cell row : Nat)
  | users (listener : Nat) (event : SnapshotEvent)
deriving DecidableEq, Repr

inductive TableTrap
  | rowOutOfRange
deriving DecidableEq, Repr

/-- The snapshot that a query delivers, given the collection. -/
def ofQuery (query : List Document → List Document) : SnapshotEvent → SnapshotEvent
  | .error => .error
  | .nilSnapshot => .nilSnapshot
  | .snapshot collection => .snapshot (query collection)

/-- The listener of `getDatas`. Reloading sends every cell back to the reuse pool. -/
def Table.posts (t : Table) (event : SnapshotEvent) : Table :=
  let list := getDatas t.list event
  { t with
    list := list
    bound := if list.reloads = t.list.reloads then t.bound else fun _ => none }

/-- `tableView(_:cellForRowAt:)`, the dequeued cell being `cell`. -/
def Table.cellForRowAt (t : Table) (cell row : Nat) : Except TableTrap Table :=
  match t.list.postArray[row]? with
  | none => .error .rowOutOfRange
  | some post => .ok
      { t with
        listeners := t.listeners ++ [⟨post.email, cell, false⟩]
        bound := Function.update t.bound cell (some ⟨post.email, t.listeners.length⟩)
        cells := Function.update t.cells cell
          { t.cells cell with captionLabel := post.caption, postImage := .url post.imageUrl } }

/-- A call of the `Users` listener number `l`. An error is the last call that Firestore makes. -/
def Table.users (t : Table) (l : Nat) (event : SnapshotEvent) : Table :=
  match t.listeners[l]? with
  | none => t
  | some listener =>
      let cell := getUserInfo (t.cells listener.cell)
        (ofQuery (whereField "email" listener.userEmail) event)
      match event with
      | .snapshot collection =>
          { t with
            cells := Function.update t.cells listener.cell cell
            listeners := t.listeners.set l { listener with delivered := true }
            usersSeen := t.usersSeen ++ collection
            writtenBy :=
              if (shownUser (whereField "email" listener.userEmail collection)).isSome then
                Function.update t.writtenBy listener.cell (some listener.userEmail)
              else t.writtenBy }
      | _ => { t with cells := Function.update t.cells listener.cell cell }

def tableMachine : Machine Table TableEvent TableTrap where
  step t
    | .posts event => .ok (t.posts event)
    | .cellForRowAt cell row => t.cellForRowAt cell row
    | .users listener event => .ok (t.users listener event)

end BookShelf.FeedVC
