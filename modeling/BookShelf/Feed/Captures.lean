import BookShelf.Feed.Table

/-!
# The listeners that keep a cell

`addSnapshotListener` returns a registration that nobody keeps, and no listener is ever removed.
So a cell is captured once for every row that it was ever bound to.
-/

namespace BookShelf.FeedVC

/-- The cell that the data source is asked to bind. -/
def TableEvent.cell? : TableEvent → Option Nat
  | .cellForRowAt cell _ => some cell
  | _ => none

/-- The cells that a run binds, again and again when they are recycled. -/
def boundCells (events : List TableEvent) : List Nat :=
  events.filterMap TableEvent.cell?

namespace Table

/-- The cells that the live `Users` listeners captured, each with the author that the listener is
for, in the order of their registration. -/
def captures (t : Table) : List (Nat × String) :=
  t.listeners.map fun listener => (listener.cell, listener.userEmail)

/-- The authors for whom live listeners captured the cell. -/
def capturedFor (t : Table) (cell : Nat) : List String :=
  (t.captures.filter fun capture => capture.1 = cell).map Prod.snd

/-- The cell and the author that an event brings together. -/
def binding (t : Table) : TableEvent → Option (Nat × String)
  | .cellForRowAt cell row => t.list.postArray[row]?.map fun post => (cell, post.email)
  | _ => none

theorem users_captures (t : Table) (l : Nat) (event : SnapshotEvent) :
    (t.users l event).captures = t.captures := by
  unfold users
  cases hl : t.listeners[l]? with
  | none => rfl
  | some listener =>
      cases event with
      | error => rfl
      | nilSnapshot => rfl
      | snapshot collection =>
          have hget : t.captures[l]? = some (listener.cell, listener.userEmail) := by
            rw [captures, List.getElem?_map, hl]
            rfl
          obtain ⟨hlt, hsame⟩ := List.getElem?_eq_some_iff.mp hget
          simp only [captures, List.map_set] at hlt hsame ⊢
          rw [← hsame]
          exact List.set_getElem_self hlt

end Table

section

variable {t t' : Table} {e : TableEvent}

/-- A step registers one listener for the cell and author that it brings together, and removes
none. -/
theorem captures_step (hstep : tableMachine.step t e = .ok t') :
    t'.captures = t.captures ++ (t.binding e).toList ∧
      (t.binding e).map Prod.fst = e.cell? := by
  cases e with
  | posts event =>
      cases hstep
      exact ⟨(List.append_nil _).symm, rfl⟩
  | users l event =>
      cases hstep
      refine ⟨?_, rfl⟩
      rw [Table.users_captures]
      exact (List.append_nil _).symm
  | cellForRowAt cell row =>
      have hcell : t.cellForRowAt cell row = .ok t' := hstep
      unfold Table.cellForRowAt at hcell
      unfold Table.binding
      cases hrow : t.list.postArray[row]? with
      | none => simp [hrow] at hcell
      | some post =>
          simp only [hrow, Except.ok.injEq] at hcell
          subst hcell
          simp [Table.captures, TableEvent.cell?, hrow]

theorem capturedFor_step (hstep : tableMachine.step t e = .ok t') {cell : Nat}
    (hcell : e.cell? ≠ some cell) : t'.capturedFor cell = t.capturedFor cell := by
  obtain ⟨hcaptures, hbinding⟩ := captures_step hstep
  rw [Table.capturedFor, hcaptures, List.filter_append]
  cases hb : t.binding e with
  | none => simp [Table.capturedFor]
  | some capture =>
      have hne : capture.1 ≠ cell := by
        intro heq
        rw [hb, Option.map_some, heq] at hbinding
        exact hcell hbinding.symm
      simp [Table.capturedFor, hne]

end

theorem captures_of_run {events : List TableEvent} {t : Table}
    (hrun : tableMachine.run .initial events = .ok t) :
    t.captures.map Prod.fst = boundCells events := by
  refine Machine.history_induction (H := fun events t => t.captures.map Prod.fst =
    boundCells events) rfl ?_ hrun
  intro events e t t' hrun ih hstep
  obtain ⟨hcaptures, hbinding⟩ := captures_step hstep
  rw [hcaptures, List.map_append, ih, boundCells, boundCells, List.filterMap_append]
  congr 1
  rw [List.filterMap_cons, List.filterMap_nil, ← hbinding]
  cases t.binding e <;> rfl

/-- Binding a cell makes the author of the row the last one for whom it is captured. -/
theorem getLast?_capturedFor {t t' : Table} {cell row : Nat}
    (hstep : tableMachine.step t (.cellForRowAt cell row) = .ok t') :
    ∃ post, t.list.postArray[row]? = some post ∧
      (t'.capturedFor cell).getLast? = some post.email := by
  obtain ⟨hcaptures, hbinding⟩ := captures_step hstep
  obtain ⟨capture, hcapture, -⟩ := Option.map_eq_some_iff.mp hbinding
  obtain ⟨post, hpost, rfl⟩ := Option.map_eq_some_iff.mp hcapture
  refine ⟨post, hpost, ?_⟩
  rw [Table.capturedFor, hcaptures, hcapture]
  simp

/-- Every cell is captured once for each time that it was bound, last for the author of the row to
which it was bound last, and there are as many live listeners as there were bindings. No cell is
captured twice just as long as none has been recycled. -/
theorem one_listener_per_binding (events : List TableEvent) (t : Table)
    (hrun : tableMachine.run .initial events = .ok t) :
    t.listeners.length = (boundCells events).length ∧
      ((∀ cell, (t.capturedFor cell).length ≤ 1) ↔ (boundCells events).Nodup) ∧
      ∀ cell, (t.capturedFor cell).length = (boundCells events).count cell ∧
        ∀ before row after, events = before ++ .cellForRowAt cell row :: after →
          cell ∉ boundCells after →
          ∃ mid post, tableMachine.run .initial before = .ok mid ∧
            mid.list.postArray[row]? = some post ∧
            (t.capturedFor cell).getLast? = some post.email := by
  have hcount (cell : Nat) : (t.capturedFor cell).length = (boundCells events).count cell := by
    rw [← captures_of_run hrun, Table.capturedFor, List.length_map, List.count_eq_countP,
      List.countP_map, ← List.countP_eq_length_filter]
    apply List.countP_congr
    simp
  refine ⟨?_, ?_, fun cell => ⟨hcount cell, ?_⟩⟩
  · rw [← captures_of_run hrun, Table.captures, List.length_map, List.length_map]
  · simp only [hcount, List.nodup_iff_count_le_one]
  · rintro before row after rfl hafter
    obtain ⟨mid, hmid, hrest⟩ := Machine.exists_of_run_append hrun
    obtain ⟨bound, hbound, hlater⟩ := Machine.run_cons_eq_ok.mp hrest
    obtain ⟨post, hpost, hlast⟩ := getLast?_capturedFor hbound
    refine ⟨mid, post, hmid, hpost, ?_⟩
    have hsame : t.capturedFor cell = bound.capturedFor cell := by
      refine Machine.run_induction_of_meets (C := fun _ e => e.cell? ≠ some cell)
        (P := fun t => t.capturedFor cell = bound.capturedFor cell)
        (fun _ _ _ h hne hstep => (capturedFor_step hstep hne).trans h) rfl ?_ hlater
      apply Machine.meets_of_forall
      intro e he _ hcell
      exact hafter (List.mem_filterMap.mpr ⟨e, he, hcell⟩)
    rw [hsame, hlast]

private def twoAuthors : List Document :=
  [⟨"p1", [("imageUrl", .string "u1"), ("caption", .string "one"), ("email", .string "a@x")]⟩,
    ⟨"p2", [("imageUrl", .string "u2"), ("caption", .string "two"), ("email", .string "b@x")]⟩]

/-- One cell goes from the row of `a@x` to the row of `b@x`. -/
private def recycledOnce : List TableEvent :=
  [.posts (.snapshot twoAuthors), .cellForRowAt 0 0, .cellForRowAt 0 1]

theorem one_listener_per_binding_recycled :
    ∃ t, tableMachine.run .initial recycledOnce = .ok t ∧ t.listeners.length = 2 ∧
      (t.capturedFor 0).length = 2 ∧ (t.capturedFor 0).getLast? = some "b@x" := by
  refine ⟨_, rfl, ?_⟩
  have h := one_listener_per_binding recycledOnce _ rfl
  refine ⟨h.1, (h.2.2 0).1, ?_⟩
  obtain ⟨mid, post, hmid, hpost, hlast⟩ :=
    (h.2.2 0).2 [.posts (.snapshot twoAuthors), .cellForRowAt 0 0] 1 [] rfl (by decide)
  cases hmid
  cases hpost
  exact hlast

/-- One cell, recycled once, is captured by the listeners of two authors. -/
theorem recycled_cell_captured_twice :
    ∃ t, tableMachine.run .initial recycledOnce = .ok t ∧
      t.capturedFor 0 = ["a@x", "b@x"] ∧ ¬ (t.capturedFor 0).length ≤ 1 ∧
      ¬ t.listeners.length ≤ (boundCells recycledOnce).dedup.length :=
  ⟨_, rfl, rfl, by decide, by decide⟩

end BookShelf.FeedVC
