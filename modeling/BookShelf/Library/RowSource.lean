import BookShelf.Library.Machine

/-!
# Data sources and the views that show them

A view asks its data source how many rows there are, remembers the answer until it is told to
reload, and asks only for rows below it. A data source whose number of rows changes only when it
tells the view to reload is never asked for a row that it does not have.
-/

/-- A machine that answers how many rows it has, some of whose events ask for a row. It traps only
when asked for a row that it does not have, and the number of its rows changes only together with
the number of its reloads. -/
structure RowSource (State Event Trap : Type*) extends Machine State Event Trap where
  count : State → Nat
  reloads : State → Nat
  row : Event → Option Nat
  trap_out_of_range : ∀ s e trap, step s e = .error trap → ∃ i ∈ row e, count s ≤ i
  count_of_reloads : ∀ s e s', step s e = .ok s' → reloads s' = reloads s → count s' = count s

/-- A data source with the number of rows that its view remembers. -/
structure RowView (State : Type*) where
  source : State
  rows : Option Nat
deriving DecidableEq, Repr

/-- The view lays itself out, or something happens to the source. -/
inductive RowEvent (Event : Type*)
  | layout
  | source (event : Event)
deriving DecidableEq, Repr

namespace RowSource

variable {State Event Trap : Type*} (S : RowSource State Event Trap)

/-- The number of rows that the view goes by; it asks if it does not remember. -/
def rows (v : RowView State) : Nat :=
  v.rows.getD (S.count v.source)

/-- An event of the source. If it reloads the view, the view forgets the number of rows. -/
def call (v : RowView State) (e : Event) : Except Trap (RowView State) :=
  match S.step v.source e with
  | .ok s => .ok ⟨s, if S.reloads s = S.reloads v.source then v.rows else none⟩
  | .error trap => .error trap

/-- The source as its view uses it: rows that the view does not know of are not asked for. -/
def view : Machine (RowView State) (RowEvent Event) Trap where
  step v
    | .layout => .ok { v with rows := some (S.rows v) }
    | .source e =>
        match S.row e with
        | none => S.call v e
        | some i =>
            let v := { v with rows := some (S.rows v) }
            if i < S.rows v then S.call v e else .ok v

/-- The view remembers the number of rows that there are. -/
def Fresh (v : RowView State) : Prop :=
  ∀ n ∈ v.rows, n = S.count v.source

variable {S} {v : RowView State}

theorem Fresh.rows_eq (h : S.Fresh v) : S.rows v = S.count v.source := by
  unfold rows
  cases hrows : v.rows with
  | none => rfl
  | some n => exact h n hrows

theorem Fresh.asked (h : S.Fresh v) : S.Fresh { v with rows := some (S.rows v) } := by
  rintro n ⟨⟩
  exact h.rows_eq

theorem Fresh.call (h : S.Fresh v) {e : Event} (hrow : ∀ i ∈ S.row e, i < S.count v.source) :
    ∃ v', S.call v e = .ok v' ∧ S.Fresh v' := by
  unfold RowSource.call
  cases hstep : S.step v.source e with
  | error trap =>
      obtain ⟨i, hi, hle⟩ := S.trap_out_of_range _ _ _ hstep
      exact absurd (hrow i hi) (Nat.not_lt.mpr hle)
  | ok s =>
      refine ⟨_, rfl, ?_⟩
      intro n hn
      dsimp only at hn
      split at hn
      · next hreloads => rw [h n hn, S.count_of_reloads _ _ _ hstep hreloads]
      · cases hn

theorem view_step (v : RowView State) (e : RowEvent Event) (h : S.Fresh v) :
    ∃ v', S.view.step v e = .ok v' ∧ S.Fresh v' := by
  cases e with
  | layout => exact ⟨_, rfl, h.asked⟩
  | source e =>
      simp only [view]
      cases hrow : S.row e with
      | none => exact h.call (by simp [hrow])
      | some i =>
          dsimp only
          split
          · next hlt =>
            rw [h.asked.rows_eq] at hlt
            refine h.asked.call ?_
            rw [hrow]
            rintro _ ⟨⟩
            exact hlt
          · exact ⟨_, rfl, h.asked⟩

end RowSource
