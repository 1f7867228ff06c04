import Mathlib.Logic.Basic

/-!
# Event-driven machines

A deterministic machine consumes a list of events; a step either yields the next state or
traps, and a trap ends the run. Runs are executable. Their invariants are proved from one
step lemma: for all runs, or for the runs whose every step meets a side condition that is
read off the state before the step.
-/

structure Machine (State Event Trap : Type*) where
  step : State → Event → Except Trap State

namespace Machine

variable {State Event Trap : Type*} (M : Machine State Event Trap)

/-- Consume the events in order, stopping at the first trap. -/
def run : State → List Event → Except Trap State
  | s, [] => .ok s
  | s, e :: es =>
      match M.step s e with
      | .ok s' => run s' es
      | .error trap => .error trap

/-- Two machines side by side; each event is for one of them. -/
def interleave {State' Event' Trap' : Type*} (N : Machine State' Event' Trap') :
    Machine (State × State') (Event ⊕ Event') (Trap ⊕ Trap') where
  step s
    | .inl e =>
        match M.step s.1 e with
        | .ok s' => .ok (s', s.2)
        | .error trap => .error (.inl trap)
    | .inr e =>
        match N.step s.2 e with
        | .ok s' => .ok (s.1, s')
        | .error trap => .error (.inr trap)

/-- The machine with a history variable, which keeps what `record` reads off every step. -/
def recording {Entry : Type*} (record : State → Event → List Entry) :
    Machine (State × List Entry) Event Trap where
  step s e := (M.step s.1 e).map fun s' => (s', s.2 ++ record s.1 e)

/-- Every step taken along the run meets `C`, which looks at the state before the step. -/
def Meets (C : State → Event → Prop) : State → List Event → Prop
  | _, [] => True
  | s, e :: es =>
      C s e ∧
        match M.step s e with
        | .ok s' => Meets C s' es
        | .error _ => True

/-- Every state the run visits, the first and the last included, satisfies `P`. -/
def Always (P : State → Prop) : State → List Event → Prop
  | s, [] => P s
  | s, e :: es =>
      P s ∧
        match M.step s e with
        | .ok s' => Always P s' es
        | .error _ => True

/-- At some moment of the run the state and the next event satisfy `Q`. -/
def Passes (Q : State → Event → Prop) (s : State) (es : List Event) : Prop :=
  ∃ before e after mid, es = before ++ e :: after ∧ M.run s before = .ok mid ∧ Q mid e

/-- Events of the allowed kind can bring the run to an end with `Q`. -/
def CanEnd (allowed : Event → Prop) (Q : Except Trap State → Prop) (s : State) : Prop :=
  ∃ more, (∀ e ∈ more, allowed e) ∧ Q (M.run s more)

instance decidableMeets (C : State → Event → Prop) [∀ s e, Decidable (C s e)] :
    ∀ s es, Decidable (M.Meets C s es)
  | _, [] => isTrue trivial
  | s, e :: es => by
      unfold Meets
      cases M.step s e with
      | ok s' =>
          have := decidableMeets C s' es
          exact inferInstanceAs (Decidable (C s e ∧ M.Meets C s' es))
      | error trap => exact inferInstanceAs (Decidable (C s e ∧ True))

@[simp]
theorem run_nil (s : State) : M.run s [] = .ok s :=
  rfl

variable {M}

theorem run_cons_of_step {s s' : State} {e : Event} (hstep : M.step s e = .ok s')
    (es : List Event) : M.run s (e :: es) = M.run s' es := by
  simp only [run, hstep]

theorem run_cons_of_trap {s : State} {e : Event} {trap : Trap} (hstep : M.step s e = .error trap)
    (es : List Event) : M.run s (e :: es) = .error trap := by
  simp only [run, hstep]

theorem run_cons_eq_ok {s s' : State} {e : Event} {es : List Event} :
    M.run s (e :: es) = .ok s' ↔ ∃ mid, M.step s e = .ok mid ∧ M.run mid es = .ok s' := by
  cases hstep : M.step s e <;> simp [run, hstep]

theorem run_append {s mid : State} {es : List Event} (hrun : M.run s es = .ok mid)
    (more : List Event) : M.run s (es ++ more) = M.run mid more := by
  induction es generalizing s with
  | nil =>
      cases hrun
      rfl
  | cons first es ih =>
      obtain ⟨next, hfirst, hrest⟩ := run_cons_eq_ok.mp hrun
      rw [List.cons_append, run_cons_of_step hfirst]
      exact ih hrest

theorem exists_of_run_append {s s' : State} {es more : List Event}
    (hrun : M.run s (es ++ more) = .ok s') :
    ∃ mid, M.run s es = .ok mid ∧ M.run mid more = .ok s' := by
  induction es generalizing s with
  | nil => exact ⟨s, rfl, hrun⟩
  | cons first es ih =>
      obtain ⟨next, hfirst, hrest⟩ := run_cons_eq_ok.mp hrun
      rw [run_cons_of_step hfirst]
      exact ih hrest

theorem run_concat {s mid s' : State} {e : Event} {es : List Event} (hrun : M.run s es = .ok mid)
    (hstep : M.step mid e = .ok s') : M.run s (es ++ [e]) = .ok s' := by
  rw [run_append hrun]
  exact run_cons_of_step hstep []

theorem Passes.concat {Q : State → Event → Prop} {s : State} {es : List Event}
    (h : M.Passes Q s es) (e : Event) : M.Passes Q s (es ++ [e]) := by
  obtain ⟨before, first, after, mid, rfl, hrun, hq⟩ := h
  exact ⟨before, first, after ++ [e], mid, by simp, hrun, hq⟩

theorem passes_last {Q : State → Event → Prop} {s mid : State} {es : List Event} {e : Event}
    (hrun : M.run s es = .ok mid) (hq : Q mid e) : M.Passes Q s (es ++ [e]) :=
  ⟨es, e, [], mid, rfl, hrun, hq⟩

theorem passes_concat {Q : State → Event → Prop} {s mid : State} {es : List Event} {e : Event}
    (hrun : M.run s es = .ok mid) :
    M.Passes Q s (es ++ [e]) ↔ M.Passes Q s es ∨ Q mid e := by
  constructor
  · rintro ⟨before, first, after, at', heq, hbefore, hq⟩
    rcases List.eq_nil_or_concat after with rfl | ⟨init, last, rfl⟩
    · obtain ⟨rfl, hlast⟩ := List.append_inj' heq rfl
      obtain rfl : e = first := (List.cons.inj hlast).1
      obtain rfl : mid = at' := Except.ok.inj (hrun.symm.trans hbefore)
      exact .inr hq
    · rw [List.concat_eq_append, ← List.cons_append, ← List.append_assoc] at heq
      obtain ⟨rfl, -⟩ := List.append_inj' heq rfl
      exact .inl ⟨before, first, init, at', rfl, hbefore, hq⟩
  · rintro (h | hq)
    · exact h.concat e
    · exact passes_last hrun hq

theorem CanEnd.of_step {allowed : Event → Prop} {Q : Except Trap State → Prop} {s s' : State}
    {e : Event} (hstep : M.step s e = .ok s') (he : allowed e) (h : M.CanEnd allowed Q s') :
    M.CanEnd allowed Q s := by
  obtain ⟨more, hmore, hQ⟩ := h
  refine ⟨e :: more, List.forall_mem_cons.mpr ⟨he, hmore⟩, ?_⟩
  rw [run_cons_of_step hstep]
  exact hQ

theorem CanEnd.mono {allowed : Event → Prop} {Q R : Except Trap State → Prop} {s : State}
    (h : M.CanEnd allowed Q s) (himp : ∀ outcome, Q outcome → R outcome) :
    M.CanEnd allowed R s := by
  obtain ⟨es, hes, hQ⟩ := h
  exact ⟨es, hes, himp _ hQ⟩

theorem CanEnd.of_allowed {allowed allowed' : Event → Prop} {Q : Except Trap State → Prop}
    {s : State} (h : M.CanEnd allowed Q s) (himp : ∀ e, allowed e → allowed' e) :
    M.CanEnd allowed' Q s := by
  obtain ⟨es, hes, hQ⟩ := h
  exact ⟨es, fun e he => himp e (hes e he), hQ⟩

theorem CanEnd.trans {allowed : Event → Prop} {Q R : Except Trap State → Prop} {s : State}
    (h : M.CanEnd allowed Q s)
    (hnext : ∀ outcome, Q outcome → ∃ s', outcome = .ok s' ∧ M.CanEnd allowed R s') :
    M.CanEnd allowed R s := by
  obtain ⟨es, hes, hQ⟩ := h
  obtain ⟨s', hrun, more, hmore, hR⟩ := hnext _ hQ
  refine ⟨es ++ more, ?_, ?_⟩
  · intro e he
    exact (List.mem_append.mp he).elim (hes e) (hmore e)
  · rw [run_append hrun]
    exact hR

/-- Induction over the growing run: `H` may speak about the events so far. -/
theorem history_induction {H : List Event → State → Prop} {start : State}
    (hstart : H [] start)
    (hkeep : ∀ es e s s', M.run start es = .ok s → H es s → M.step s e = .ok s' →
      H (es ++ [e]) s')
    {es : List Event} {s : State} (hrun : M.run start es = .ok s) : H es s := by
  suffices hgo : ∀ rest before mid, M.run start before = .ok mid → H before mid →
      M.run mid rest = .ok s → H (before ++ rest) s from hgo es [] start rfl hstart hrun
  intro rest
  induction rest with
  | nil =>
      intro before mid _ hbefore hrest
      cases hrest
      rwa [List.append_nil]
  | cons e rest ih =>
      intro before mid hmid hbefore hrest
      obtain ⟨next, hstep, hrest⟩ := run_cons_eq_ok.mp hrest
      rw [List.append_cons]
      exact ih _ next (run_concat hmid hstep) (hkeep before e mid next hmid hbefore hstep) hrest

theorem step_recording {Entry : Type*} {record : State → Event → List Entry}
    {s s' : State × List Entry} {e : Event} (hstep : (M.recording record).step s e = .ok s') :
    M.step s.1 e = .ok s'.1 ∧ s'.2 = s.2 ++ record s.1 e := by
  cases h : M.step s.1 e with
  | error trap =>
      simp only [recording, h, Except.map] at hstep
      cases hstep
  | ok next =>
      simp only [recording, h, Except.map] at hstep
      cases hstep
      exact ⟨rfl, rfl⟩

/-- Keeping a history changes no run. -/
theorem run_recording {Entry : Type*} (record : State → Event → List Entry) {s s' : State}
    {es : List Event} (hrun : M.run s es = .ok s') (before : List Entry) :
    ∃ after, (M.recording record).run (s, before) es = .ok (s', after) := by
  induction es generalizing s before with
  | nil =>
      cases hrun
      exact ⟨before, rfl⟩
  | cons e es ih =>
      obtain ⟨mid, hstep, hrest⟩ := run_cons_eq_ok.mp hrun
      obtain ⟨after, hafter⟩ := ih hrest (before ++ record s e)
      refine ⟨after, run_cons_eq_ok.mpr ⟨(mid, before ++ record s e), ?_, hafter⟩⟩
      simp only [recording, hstep, Except.map]

/-- A property kept by every step that meets `C` holds at the end of every run that
meets `C`. -/
theorem run_induction_of_meets {C : State → Event → Prop} {P : State → Prop}
    (hkeep : ∀ s e s', P s → C s e → M.step s e = .ok s' → P s')
    {s s' : State} {es : List Event} (hs : P s) (hmeets : M.Meets C s es)
    (hrun : M.run s es = .ok s') : P s' := by
  induction es generalizing s with
  | nil =>
      cases hrun
      exact hs
  | cons e es ih =>
      obtain ⟨mid, hstep, hrest⟩ := run_cons_eq_ok.mp hrun
      simp only [Meets, hstep] at hmeets
      exact ih (hkeep s e mid hs hmeets.1 hstep) hmeets.2 hrest

/-- A trap that ends a run that meets `C` is the trap of a step from a state with `P`. -/
theorem trap_of_meets {C : State → Event → Prop} {P : State → Prop} {Q : Trap → Prop}
    (hkeep : ∀ s e s', P s → C s e → M.step s e = .ok s' → P s')
    (htrap : ∀ s e trap, P s → C s e → M.step s e = .error trap → Q trap)
    {s : State} {es : List Event} {trap : Trap} (hs : P s) (hmeets : M.Meets C s es)
    (hrun : M.run s es = .error trap) : Q trap := by
  induction es generalizing s with
  | nil => cases hrun
  | cons e es ih =>
      cases hstep : M.step s e with
      | error first =>
          rw [run_cons_of_trap hstep, Except.error.injEq] at hrun
          rw [← hrun]
          exact htrap s e first hs hmeets.1 hstep
      | ok mid =>
          simp only [Meets, hstep] at hmeets
          rw [run_cons_of_step hstep] at hrun
          exact ih (hkeep s e mid hs hmeets.1 hstep) hmeets.2 hrun

theorem run_ok_iff_meets {C : State → Event → Prop}
    (hstep : ∀ s e, (∃ s', M.step s e = .ok s') ↔ C s e) (s : State) (es : List Event) :
    (∃ s', M.run s es = .ok s') ↔ M.Meets C s es := by
  induction es generalizing s with
  | nil => simp [Meets]
  | cons e es ih =>
      cases h : M.step s e with
      | error trap =>
          have hnot : ¬ C s e := by
            rw [← hstep, h]
            simp
          simp [run, Meets, h, hnot]
      | ok s' =>
          have hC : C s e := (hstep s e).mp ⟨s', h⟩
          simpa [run, Meets, h, hC] using ih s'

theorem run_ok_iff_meets_of_inv {I : State → Prop} {C : State → Event → Prop}
    (hkeep : ∀ s e s', I s → M.step s e = .ok s' → I s')
    (hstep : ∀ s e, I s → ((∃ s', M.step s e = .ok s') ↔ C s e))
    {s : State} (hs : I s) (es : List Event) :
    (∃ s', M.run s es = .ok s') ↔ M.Meets C s es := by
  induction es generalizing s with
  | nil => simp [Meets]
  | cons e es ih =>
      cases h : M.step s e with
      | error trap =>
          have hnot : ¬ C s e := by
            rw [← hstep s e hs, h]
            simp
          simp [run, Meets, h, hnot]
      | ok s' =>
          have hC : C s e := (hstep s e hs).mp ⟨s', h⟩
          simpa [run, Meets, h, hC] using ih (hkeep s e s' hs h)

/-- When each step from a state with the invariant goes through and keeps it, no run ends in a
trap. -/
theorem run_total {I : State → Prop} (hstep : ∀ s e, I s → ∃ s', M.step s e = .ok s' ∧ I s')
    {s : State} (hs : I s) (es : List Event) : ∃ s', M.run s es = .ok s' ∧ I s' := by
  induction es generalizing s with
  | nil => exact ⟨s, rfl, hs⟩
  | cons e es ih =>
      obtain ⟨mid, hmid, hI⟩ := hstep s e hs
      rw [run_cons_of_step hmid]
      exact ih hI

theorem interleave_total {State' Event' Trap' : Type*} {N : Machine State' Event' Trap'}
    {I : State → Prop} {J : State' → Prop}
    (hM : ∀ s e, I s → ∃ s', M.step s e = .ok s' ∧ I s')
    (hN : ∀ s e, J s → ∃ s', N.step s e = .ok s' ∧ J s') {s : State × State'} (hI : I s.1)
    (hJ : J s.2) (es : List (Event ⊕ Event')) :
    ∃ s', (M.interleave N).run s es = .ok s' ∧ I s'.1 ∧ J s'.2 := by
  refine run_total (I := fun s : State × State' => I s.1 ∧ J s.2) ?_ ⟨hI, hJ⟩ es
  rintro ⟨s, t⟩ e ⟨hI, hJ⟩
  cases e with
  | inl e =>
      obtain ⟨s', hstep, hI'⟩ := hM s e hI
      exact ⟨(s', t), by simp only [interleave, hstep], hI', hJ⟩
  | inr e =>
      obtain ⟨t', hstep, hJ'⟩ := hN t e hJ
      exact ⟨(s, t'), by simp only [interleave, hstep], hI, hJ'⟩

theorem always_head {P : State → Prop} {s : State} {es : List Event} (h : M.Always P s es) :
    P s := by
  cases es with
  | nil => exact h
  | cons e es => exact h.1

/-- When a step from a good state leads to a good one just if it meets `C`, the runs that visit
good states only are those that meet `C`. `I` holds of all states. -/
theorem always_iff_meets {I P : State → Prop} {C : State → Event → Prop}
    (hkeep : ∀ s e s', I s → M.step s e = .ok s' → I s')
    (hstep : ∀ s e s', I s → P s → M.step s e = .ok s' → (P s' ↔ C s e))
    (htrap : ∀ s e trap, M.step s e = .error trap → C s e)
    {s : State} {es : List Event} (hI : I s) (hP : P s) :
    M.Always P s es ↔ M.Meets C s es := by
  induction es generalizing s with
  | nil => exact iff_of_true hP trivial
  | cons e es ih =>
      cases h : M.step s e with
      | error trap =>
          simp only [Always, Meets, h, and_true]
          exact iff_of_true hP (htrap s e trap h)
      | ok s' =>
          simp only [Always, Meets, h]
          constructor
          · rintro ⟨-, hs'⟩
            have hgood := always_head hs'
            exact ⟨(hstep s e s' hI hP h).mp hgood, (ih (hkeep s e s' hI h) hgood).mp hs'⟩
          · rintro ⟨hC, hs'⟩
            have hgood := (hstep s e s' hI hP h).mpr hC
            exact ⟨hP, (ih (hkeep s e s' hI h) hgood).mpr hs'⟩

/-- A condition on events alone is met when every event of the run satisfies it. -/
theorem meets_of_forall {C : State → Event → Prop} {es : List Event}
    (h : ∀ e ∈ es, ∀ s, C s e) (s : State) : M.Meets C s es := by
  induction es generalizing s with
  | nil => trivial
  | cons e es ih =>
      refine ⟨h e (by simp) s, ?_⟩
      cases M.step s e with
      | ok s' => exact ih (fun e he => h e (List.mem_cons_of_mem _ he)) s'
      | error trap => trivial

theorem run_induction {P : State → Prop}
    (hkeep : ∀ s e s', P s → M.step s e = .ok s' → P s')
    {s s' : State} {es : List Event} (hs : P s) (hrun : M.run s es = .ok s') : P s' :=
  run_induction_of_meets (C := fun _ _ => True) (fun s e s' h _ => hkeep s e s' h) hs
    (meets_of_forall (fun _ _ _ => trivial) s) hrun

theorem exists_of_any (M : Machine State Event Trap) (s : State) (es : List Event)
    (p : State → Bool) (h : (M.run s es).toOption.any p = true) :
    ∃ s', M.run s es = .ok s' ∧ p s' = true := by
  cases hrun : M.run s es with
  | ok s' =>
      rw [hrun] at h
      exact ⟨s', rfl, h⟩
  | error trap =>
      rw [hrun] at h
      cases h

end Machine
