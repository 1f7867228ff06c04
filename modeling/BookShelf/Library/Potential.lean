import BookShelf.Library.Machine

/-!
# Paying for work

Some steps of a machine are work. If every step that works takes from a potential what other
steps have put in, then a run works no more than it was paid for; and if there is work as long as
the machine is not at rest, then it can be brought to rest.
-/

namespace Machine

variable {State Event Trap : Type*} (M : Machine State Event Trap)

/-- What the steps of the run come to together. -/
def sumSteps (weight : State → Event → Nat) : State → List Event → Nat
  | _, [] => 0
  | s, e :: es =>
      weight s e +
        match M.step s e with
        | .ok s' => sumSteps weight s' es
        | .error _ => 0

/-- How many steps of the run are of a kind. -/
def countSteps (kind : State → Event → Bool) (s : State) (es : List Event) : Nat :=
  M.sumSteps (fun s e => if kind s e then 1 else 0) s es

variable {M}

theorem sumSteps_add (weight weight' : State → Event → Nat) (s : State) (es : List Event) :
    M.sumSteps (fun s e => weight s e + weight' s e) s es =
      M.sumSteps weight s es + M.sumSteps weight' s es := by
  induction es generalizing s with
  | nil => rfl
  | cons e es ih =>
      simp only [sumSteps]
      cases M.step s e with
      | ok s' =>
          simp only [ih s']
          omega
      | error t => rfl

theorem sumSteps_mul (n : Nat) (weight : State → Event → Nat) (s : State) (es : List Event) :
    M.sumSteps (fun s e => n * weight s e) s es = n * M.sumSteps weight s es := by
  induction es generalizing s with
  | nil => rfl
  | cons e es ih =>
      simp only [sumSteps, Nat.mul_add]
      cases M.step s e with
      | ok s' => simp only [ih s']
      | error t => rfl

/-- In a run that goes through, events of a kind are counted as they stand in the list. -/
theorem countSteps_of_run {kind : Event → Bool} {s s' : State} {es : List Event}
    (hrun : M.run s es = .ok s') : M.countSteps (fun _ => kind) s es = es.countP kind := by
  induction es generalizing s with
  | nil => rfl
  | cons e es ih =>
      obtain ⟨mid, hstep, hrest⟩ := run_cons_eq_ok.mp hrun
      have hlater := ih hrest
      simp only [countSteps, sumSteps, hstep, List.countP_cons] at hlater ⊢
      rw [hlater, Nat.add_comm]

/-- The potential pays for the work. -/
theorem potential_add_sumSteps_le {work gain : State → Event → Nat} {P : State → Prop}
    {potential : State → Nat}
    (hkeep : ∀ s e s', P s → M.step s e = .ok s' → P s')
    (hpaid : ∀ s e s', P s → M.step s e = .ok s' →
      potential s' + work s e ≤ potential s + gain s e)
    {s s' : State} {es : List Event} (hs : P s) (hrun : M.run s es = .ok s') :
    potential s' + M.sumSteps work s es ≤ potential s + M.sumSteps gain s es := by
  induction es generalizing s with
  | nil =>
      cases hrun
      exact Nat.le_refl _
  | cons e es ih =>
      obtain ⟨mid, hstep, hrest⟩ := run_cons_eq_ok.mp hrun
      have hfirst := hpaid s e mid hs hstep
      have hlater := ih (hkeep s e mid hs hstep) hrest
      simp only [sumSteps, hstep]
      omega

/-- As long as something can be done that takes from the potential, the machine can be brought to
rest, in no more steps than the potential allows. -/
theorem exists_rest {P rest : State → Prop} {allowed : State → Event → Prop}
    {potential : State → Nat}
    (hprogress : ∀ s, P s → ¬ rest s → ∃ e s', allowed s e ∧ M.step s e = .ok s' ∧ P s' ∧
      potential s' < potential s)
    {s : State} (hs : P s) :
    ∃ es s', M.Meets allowed s es ∧ es.length ≤ potential s ∧ M.run s es = .ok s' ∧ P s' ∧
      rest s' := by
  induction hn : potential s using Nat.strongRecOn generalizing s with
  | ind n ih =>
      by_cases hrest : rest s
      · exact ⟨[], s, trivial, Nat.zero_le n, rfl, hs, hrest⟩
      · obtain ⟨e, mid, hallowed, hstep, hmid, hlt⟩ := hprogress s hs hrest
        obtain ⟨es, s', hes, hlength, hrun, hs'⟩ := ih _ (hn ▸ hlt) hmid rfl
        refine ⟨e :: es, s', ⟨hallowed, ?_⟩, ?_, ?_, hs'⟩
        · rw [hstep]
          exact hes
        · rw [List.length_cons]
          omega
        · rw [run_cons_of_step hstep]
          exact hrun

end Machine
