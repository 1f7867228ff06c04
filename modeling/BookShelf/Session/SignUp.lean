import BookShelf.App.Firebase
import BookShelf.Session.Records

/-!
# How a sign-up ends

A tap on Sign Up should end with an account, a session and a segue, or with an alert and
nothing else. Which of its last completions end it properly is decided when they run.
-/

namespace BookShelf

namespace SignUpEnd

/-- The tap has created its account, the session is that account, and the segue took place. -/
def Succeeded (s : App) (o : SignUpEnd) : Prop :=
  ⟨o.tap.credentials, o.tap.number⟩ ∈ s.accounts ∧
    o.session = some o.tap.credentials.email ∧ o.segued = true

/-- An alert came up, and the tap has neither created an account nor set the session. -/
def Failed (s : App) (o : SignUpEnd) : Prop :=
  o.alerted = true ∧ (∀ account ∈ s.accounts, account.tap ≠ o.tap.number) ∧
    o.tap.number ∉ s.sessionWrites

end SignUpEnd

/-- Every tap whose callbacks have fired ended in exactly one of the two ways. -/
def AllOrNothing (s : App) : Prop :=
  ∀ o ∈ s.signUpEnds, Xor (o.Succeeded s) (o.Failed s)

/-- The last completion of a tap finds its controller topmost; if it is the completion of the
nested `signIn`, that has succeeded and the session is the account of the tap. -/
def EndsUndisturbed (s : App) : Pending Request → Prop
  | ⟨.createUser tap, some false⟩ => s.ui.top = some tap.self
  | ⟨.signInAfterSignUp tap _, some true⟩ =>
      s.ui.top = some tap.self ∧ s.currentUser = some tap.credentials.email
  | ⟨.signInAfterSignUp _ _, some false⟩ => False
  | _ => True

instance (s : App) (x : Pending Request) : Decidable (EndsUndisturbed s x) := by
  unfold EndsUndisturbed
  split <;> infer_instance

def SignUpUndisturbed (s : App) (e : Event) : Prop :=
  ∀ x ∈ s.completing e, EndsUndisturbed s x

instance (s : App) (e : Event) : Decidable (SignUpUndisturbed s e) :=
  inferInstanceAs (Decidable (∀ x ∈ s.completing e, EndsUndisturbed s x))

theorem signUpUndisturbed_of_none {s : App} {e : Event} (h : s.completing e = none) :
    SignUpUndisturbed s e := by
  intro x hx
  rw [h] at hx
  cases hx

theorem signUpUndisturbed_deliver {s : App} {k : Nat} {x : Pending Request}
    (hk : s.requests[k]? = some x) : SignUpUndisturbed s (.deliver k) ↔ EndsUndisturbed s x := by
  simp [SignUpUndisturbed, App.completing, hk]

private theorem xor_congr {s s' : App} {o : SignUpEnd}
    (haccounts : ∀ account : Account, account.tap = o.tap.number →
      (account ∈ s'.accounts ↔ account ∈ s.accounts))
    (hwrites : o.tap.number ∈ s'.sessionWrites ↔ o.tap.number ∈ s.sessionWrites) :
    Xor (o.Succeeded s') (o.Failed s') ↔ Xor (o.Succeeded s) (o.Failed s) := by
  have hsucceeded : o.Succeeded s' ↔ o.Succeeded s := by
    unfold SignUpEnd.Succeeded
    rw [haccounts _ rfl]
  have hfailed : o.Failed s' ↔ o.Failed s := by
    unfold SignUpEnd.Failed
    rw [hwrites]
    refine and_congr_right fun _ => and_congr_left fun _ => ?_
    constructor <;> intro h account haccount heq
    · exact h account ((haccounts account heq).mpr haccount) heq
    · exact h account ((haccounts account heq).mp haccount) heq
  rw [hsucceeded, hfailed]

private theorem allOrNothing_same {s s' : App} (haccounts : SameAccounts s s')
    (hends : s'.signUpEnds = s.signUpEnds) : AllOrNothing s' ↔ AllOrNothing s := by
  obtain ⟨haccounts, hwrites⟩ := haccounts
  unfold AllOrNothing
  rw [hends]
  refine forall₂_congr fun o _ => xor_congr ?_ ?_
  · intro account _
    rw [haccounts]
  · rw [hwrites]

private theorem allOrNothing_registered {s s' : App} {x : Pending Request} {tap : SignUpTap}
    {new : List Account} (ht : Tracked s) (hx : x ∈ s.requests)
    (hxtap : x.request.signUpTap = some tap) (hnew : ∀ account ∈ new, account.tap = tap.number)
    (haccounts : s'.accounts = s.accounts ++ new)
    (hwrites : s'.sessionWrites = s.sessionWrites ++ [tap.number])
    (hends : s'.signUpEnds = s.signUpEnds) : AllOrNothing s' ↔ AllOrNothing s := by
  unfold AllOrNothing
  rw [hends]
  refine forall₂_congr fun o ho => ?_
  have hne : o.tap.number ≠ tap.number := by
    intro heq
    exact ht.ended_once o ho x hx (heq ▸ Request.tapNumber_of_signUpTap hxtap)
  refine xor_congr ?_ ?_
  · intro account haccount
    rw [haccounts, List.mem_append, or_iff_left]
    intro hmem
    exact hne (haccount.symm.trans (hnew account hmem))
  · rw [hwrites, List.mem_append, List.mem_singleton, or_iff_left hne]

private theorem xor_endOf {s s' : App} {k : Nat} {r : Request} {ok : Bool} {tap : SignUpTap}
    {screen : ScreenKind} (ht : Tracked s) (hk : s.requests[k]? = some ⟨r, some ok⟩)
    (hlast : Ends tap r ok screen) (haccounts : SameAccounts s s') :
    Xor ((endOf s tap screen).Succeeded s') ((endOf s tap screen).Failed s') ↔
      SignUpUndisturbed s (.deliver k) := by
  obtain ⟨haccounts, hwrites⟩ := haccounts
  have hmem := List.mem_of_getElem? hk
  cases hlast with
  | notCreated =>
      obtain ⟨hnone, hwrite⟩ := ht.waiting _ hmem tap rfl (by simp)
      have hnot : ¬ (endOf s tap .alert).Succeeded s' := by
        rintro ⟨haccount, -, -⟩
        exact hnone _ (haccounts ▸ haccount) rfl
      have hfailed : (endOf s tap .alert).Failed s' ↔ s.ui.top = some tap.self := by
        simp only [SignUpEnd.Failed, endOf, haccounts, hwrites]
        rw [and_iff_left ⟨hnone, hwrite⟩]
        simp
      rw [iff_false_intro hnot, xor_false, id, hfailed]
      exact (signUpUndisturbed_deliver hk).symm
  | signedUp credentials =>
      have haccount := ht.created _ hmem tap (.inr ⟨credentials, rfl⟩)
      have hnot : ¬ (endOf s tap .updateProfile).Failed s' := by
        rintro ⟨-, hnone, -⟩
        exact hnone _ (haccounts ▸ haccount) rfl
      have hsucceeded : (endOf s tap .updateProfile).Succeeded s' ↔
          s.ui.top = some tap.self ∧ s.currentUser = some tap.credentials.email := by
        simp only [SignUpEnd.Succeeded, endOf, haccounts]
        simp [haccount, and_comm]
      rw [xor_comm, iff_false_intro hnot, xor_false, id, hsucceeded]
      exact (signUpUndisturbed_deliver hk).symm
  | notSignedUp credentials =>
      have haccount := ht.created _ hmem tap (.inr ⟨credentials, rfl⟩)
      have hnot : ¬ (endOf s tap .alert).Failed s' := by
        rintro ⟨-, hnone, -⟩
        exact hnone _ (haccounts ▸ haccount) rfl
      have hnot' : ¬ (endOf s tap .alert).Succeeded s' := by
        rintro ⟨-, -, hsegued⟩
        simp [endOf] at hsegued
      rw [iff_false_intro hnot, iff_false_intro hnot', xor_self]
      exact (signUpUndisturbed_deliver hk).symm

/-- A step keeps all ends proper just if it is undisturbed. -/
theorem allOrNothing_step {s s' : App} {e : Event} (ht : Tracked s) (hs : AllOrNothing s)
    (hstep : SignUpStep s e s') : AllOrNothing s' ↔ SignUpUndisturbed s e := by
  cases hstep with
  | idle hsignUps haccounts htaps hends hevent =>
      refine iff_of_true ((allOrNothing_same haccounts hends).mpr hs) ?_
      intro x hx
      obtain ⟨k, rfl, hk⟩ := App.mem_completing.mp hx
      unfold EndsUndisturbed
      split
      · exact absurd (hevent k _ _ rfl hk) (by simp [Request.signUpTap])
      · exact absurd (hevent k _ _ rfl hk) (by simp [Request.signUpTap])
      · exact absurd (hevent k _ _ rfl hk) (by simp [Request.signUpTap])
      · trivial
  | tapped tap hevent hnumber hrequests haccounts htaps hends =>
      subst hevent
      exact iff_of_true ((allOrNothing_same haccounts hends).mpr hs) (signUpUndisturbed_of_none rfl)
  | accepted k tap stamp hevent hk hrequests haccounts hwrites htaps hends =>
      subst hevent
      refine iff_of_true ((allOrNothing_registered ht (List.mem_of_getElem? hk) rfl (by simp)
        haccounts hwrites hends).mpr hs) (signUpUndisturbed_of_none rfl)
  | admitted k tap credentials stamp hevent hk hrequests haccounts hwrites htaps hends =>
      subst hevent
      have hnone : s'.accounts = s.accounts ++ [] := by rw [haccounts, List.append_nil]
      exact iff_of_true ((allOrNothing_registered ht (List.mem_of_getElem? hk) rfl (by simp)
        hnone hwrites hends).mpr hs) (signUpUndisturbed_of_none rfl)
  | refused k r hevent hk hrequests haccounts htaps hends =>
      subst hevent
      exact iff_of_true ((allOrNothing_same haccounts hends).mpr hs) (signUpUndisturbed_of_none rfl)
  | created k tap credentials hevent hk hrequests haccounts htaps hends =>
      subst hevent
      refine iff_of_true ((allOrNothing_same haccounts hends).mpr hs) ?_
      exact (signUpUndisturbed_deliver hk).mpr trivial
  | ended k r ok tap screen hevent hk hlast hrequests haccounts htaps hends =>
      subst hevent
      rw [← xor_endOf ht hk hlast haccounts]
      have hold : ∀ o ∈ s.signUpEnds, Xor (o.Succeeded s') (o.Failed s') := by
        intro o ho
        refine (xor_congr ?_ ?_).mpr (hs o ho)
        · intro account _
          rw [haccounts.1]
        · rw [haccounts.2]
      unfold AllOrNothing
      rw [hends]
      constructor
      · intro h
        exact h _ (List.mem_append_right _ (List.mem_singleton_self _))
      · intro h o ho
        rcases List.mem_append.mp ho with ho | ho
        · exact hold o ho
        · rw [List.mem_singleton.mp ho]
          exact h

theorem undisturbed_of_trap {P : Platform} {s : App} {e : Event} {trap : Trap}
    (hstep : (appMachine P).step s e = .error trap) : SignUpUndisturbed s e := by
  obtain ⟨-, ⟨-, ⟨tab, rfl⟩, -⟩ | ⟨k, attempt, rfl, hk, -⟩⟩ := cause_of_trap hstep
  · exact signUpUndisturbed_of_none rfl
  · exact (signUpUndisturbed_deliver hk).mpr trivial

theorem tracked_of_run {P : Platform} {persisted : Option String} {events : List Event} {s : App}
    (hrun : (appMachine P).run (.launch persisted) events = .ok s) : Tracked s :=
  Machine.run_induction (fun _ _ _ h hstep => tracked_step h (SignUpStep.of_step hstep))
    (tracked_launch persisted) hrun

/-- Every tap on Sign Up has a callback to come or has ended, and all ends of a run are proper
if and only if every last completion runs undisturbed. -/
theorem sign_up_all_or_nothing_iff (P : Platform) (persisted : Option String)
    (events : List Event) :
    ((appMachine P).Always AllOrNothing (.launch persisted) events ↔
      (appMachine P).Meets SignUpUndisturbed (.launch persisted) events) ∧
    ∀ s, (appMachine P).run (.launch persisted) events = .ok s →
      ∀ tap ∈ s.taps, (∃ x ∈ s.requests, x.request.signUpTap = some tap) ∨
        ∃ o ∈ s.signUpEnds, o.tap = tap := by
  refine ⟨?_, fun s hrun => (tracked_of_run hrun).covered⟩
  refine Machine.always_iff_meets (I := Tracked)
    (fun _ _ _ h hstep => tracked_step h (SignUpStep.of_step hstep))
    (fun _ _ _ ht hs hstep => allOrNothing_step ht hs (SignUpStep.of_step hstep))
    (fun _ _ _ hstep => undisturbed_of_trap hstep) (tracked_launch persisted) ?_
  intro o ho
  cases ho

/-- One tap signs up while another one, for the same email, is refused. -/
private def signUpTwice : List Event :=
  [.ui (.segue .signUp), .ui (.editCredentials "a@x" "pw"), .signUpBtn, .signUpBtn, .fail 1,
    .deliver 1, .ui .closeAlert, .succeed 0 ⟨"", 0⟩, .deliver 0, .succeed 0 ⟨"", 0⟩, .deliver 0]

theorem sign_up_all_or_nothing_iff_twice :
    (appMachine .firebase).Always AllOrNothing (.launch none) signUpTwice ∧
      ∃ s, (appMachine .firebase).run (.launch none) signUpTwice = .ok s ∧
        s.signUpEnds.map SignUpEnd.segued = [false, true] ∧
        s.signUpEnds.map SignUpEnd.alerted = [true, false] :=
  ⟨(sign_up_all_or_nothing_iff .firebase none signUpTwice).1.mpr (by decide), _, rfl, rfl, rfl⟩

/-- The fields are edited while `createUser` is under way, and the nested `signIn` fails. -/
theorem fields_edited_during_sign_up :
    ∃ s o, (appMachine .firebase).run (.launch none)
        [.ui (.segue .signUp), .ui (.editCredentials "a@x" "pw"), .signUpBtn, .succeed 0 ⟨"", 0⟩,
          .ui (.editCredentials "b@x" "pw"), .deliver 0, .fail 0, .deliver 0] = .ok s ∧
      s.signUpEnds = [o] ∧ o.tap.credentials = ⟨"a@x", "pw"⟩ ∧ o.alerted = true ∧
      s.accounts = [⟨⟨"a@x", "pw"⟩, o.tap.number⟩] ∧ ¬ AllOrNothing s := by
  refine ⟨_, _, rfl, rfl, rfl, rfl, rfl, ?_⟩
  intro h
  rcases h _ List.mem_cons_self with ⟨⟨-, -, hsegued⟩, -⟩ | ⟨⟨-, hnone, -⟩, -⟩
  · cases hsegued
  · exact hnone _ List.mem_cons_self rfl

end BookShelf
