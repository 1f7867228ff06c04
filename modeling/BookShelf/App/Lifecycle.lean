import BookShelf.App.Machine

/-!
# The app across its launches

The process ends at any moment and starts again; other installations write to the same
collections.
-/

namespace BookShelf

/-- The process starts again. Its screens and its completions are gone; Firebase Auth has kept
the session, and the servers have kept what they had accepted. -/
def App.relaunch (s : App) : App :=
  { s with ui := .root (SceneDelegate.scene s.currentUser), requests := [] }

/-- A document that this process has not written is added. -/
def App.arrive (s : App) (added : Added) : App :=
  if ∃ other ∈ s.collection added.collection,
      other.document.documentID = added.document.documentID then s
  else { s with documents := s.documents ++ [added] }

inductive LifeEvent
  | app (e : Event)
  | relaunch
  | arrive (added : Added)
deriving DecidableEq, Repr

def lifeMachine (P : Platform) : Machine App LifeEvent Trap where
  step s
    | .app e => (appMachine P).step s e
    | .relaunch => .ok s.relaunch
    | .arrive added => .ok (s.arrive added)

theorem step_arrive_cases {P : Platform} {s s' : App} {added : Added}
    (hstep : (lifeMachine P).step s (.arrive added) = .ok s') :
    s' = s ∨ s' = { s with documents := s.documents ++ [added] } := by
  cases hstep
  unfold App.arrive
  split
  · exact .inl rfl
  · exact .inr rfl

end BookShelf
