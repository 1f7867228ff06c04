import BookShelf.App.Firebase
import BookShelf.Session.Placed

/-!
# The session gate

A tab bar is never topmost without a session. The invariant covers the screens that a dismissal
may bring back, and the accepted sign-ins whose completions may still open a tab bar.
-/

namespace BookShelf

/-- Below alerts and pickers, the chain shows a screen that is meant for a signed-in user. -/
def needsSession : List Screen → Bool
  | [] => false
  | self :: below => self.kind.session ||
      (self.kind == .alert || self.kind == .imagePicker) && needsSession below

/-- The screens above every tab bar. -/
def uncovered (chain : List Screen) : List Screen :=
  chain.takeWhile fun self => self.kind ≠ .tabBar

structure Gated (s : App) : Prop where
  gate : needsSession s.ui.screens.chain = true → s.currentUser ≠ none
  admitted : ∀ self ∈ uncovered s.ui.screens.chain, s.Admitted self → s.currentUser ≠ none

theorem needsSession_cons {self : Screen} {below : List Screen}
    (h : needsSession (self :: below) = true) :
    self.kind.session = true ∨ needsSession below = true := by
  rw [needsSession, Bool.or_eq_true, Bool.and_eq_true] at h
  exact h.imp_right And.right

theorem needsSession_append {popped chain : List Screen}
    (htransient : ∀ f ∈ popped, f.kind.transient = true) (h : needsSession chain = true) :
    needsSession (popped ++ chain) = true := by
  induction popped with
  | nil => exact h
  | cons f popped ih =>
      have hrest := ih fun g hg => htransient g (List.mem_cons_of_mem f hg)
      have hf := htransient f List.mem_cons_self
      rw [List.cons_append, needsSession, hrest]
      revert hf
      cases f.kind <;> simp [ScreenKind.transient, ScreenKind.session]

theorem mem_uncovered_cons {self f : Screen} {chain : List Screen}
    (h : self ∈ uncovered (f :: chain)) : self = f ∨ f.kind ≠ .tabBar ∧ self ∈ uncovered chain := by
  unfold uncovered at h
  rw [List.takeWhile_cons] at h
  by_cases hf : f.kind = .tabBar
  · simp [hf] at h
  · rw [if_pos (by simpa using hf)] at h
    exact (List.mem_cons.mp h).imp_right fun h => ⟨hf, h⟩

theorem mem_uncovered_append {self : Screen} {popped chain : List Screen}
    (htransient : ∀ f ∈ popped, f.kind.transient = true) (h : self ∈ uncovered chain) :
    self ∈ uncovered (popped ++ chain) := by
  have hpopped : ∀ f ∈ popped, decide (f.kind ≠ .tabBar) = true := by
    intro f hf
    have := htransient f hf
    apply decide_eq_true
    intro hkind
    rw [hkind] at this
    cases this
  unfold uncovered
  rw [List.takeWhile_append_of_pos hpopped]
  exact List.mem_append_right popped h

private theorem admitted_below {s : App} {self : Screen} (hplaced : Placed s)
    (h : s.Admitted self) : self.id < s.ui.screens.fresh := by
  obtain ⟨x, hx, -, -, rfl⟩ := h
  exact hplaced.below x hx

private theorem admitted_not_tabBar {s : App} {self : Screen} (hplaced : Placed s)
    (h : s.Admitted self) : self.kind ≠ .tabBar := by
  obtain ⟨x, hx, hsignsIn, -, rfl⟩ := h
  rw [hplaced.kinds x hx]
  cases hr : x.request <;> simp [hr, Request.signsIn, Request.controller] at hsignsIn ⊢

private theorem Gated.session_of_opens {s : App} (h : Gated s) (hplaced : Placed s)
    {self : Screen} {kind : ScreenKind} (htop : s.ui.top = some self) (hopens : Opens s self kind)
    (hkind : kind.session = true) : s.currentUser ≠ none := by
  obtain ⟨below, hchain⟩ := List.head?_eq_some_iff.mp htop
  rcases hopens hkind with hself | hadmitted
  · apply h.gate
    rw [hchain, needsSession, hself, Bool.true_or]
  · refine h.admitted self ?_ hadmitted
    rw [hchain, uncovered, List.takeWhile_cons,
      if_pos (by simpa using admitted_not_tabBar hplaced hadmitted)]
    exact List.mem_cons_self

private theorem Gated.of_chain {s s' : App} (h : Gated s) (hplaced : Placed s)
    (hchain : ChainStep (Opens s) s.ui.screens s'.ui.screens)
    (huser : s'.currentUser = s.currentUser)
    (hadmitted : ∀ self, s'.Admitted self → s.Admitted self) : Gated s' := by
  cases hchain with
  | stay heq =>
      constructor
      · rw [heq, huser]
        exact h.gate
      · intro self hself ha
        rw [heq] at hself
        rw [huser]
        exact h.admitted self hself (hadmitted self ha)
  | push self kind htop hopens heq =>
      have hpushed : s'.ui.screens.chain = ⟨s.ui.screens.fresh, kind⟩ :: s.ui.screens.chain := by
        rw [heq]
        rfl
      constructor
      · intro hneeds
        rw [hpushed] at hneeds
        rw [huser]
        rcases needsSession_cons hneeds with hkind | hneeds
        · exact h.session_of_opens hplaced htop.1 hopens hkind
        · exact h.gate hneeds
      · intro other hother ha
        rw [hpushed] at hother
        rw [huser]
        rcases mem_uncovered_cons hother with rfl | ⟨-, hother⟩
        · exact absurd (admitted_below hplaced (hadmitted _ ha)) (lt_irrefl _)
        · exact h.admitted other hother (hadmitted other ha)
  | pop popped hpopped htransient hfresh =>
      constructor
      · intro hneeds
        rw [huser]
        apply h.gate
        rw [hpopped]
        exact needsSession_append htransient hneeds
      · intro self hself ha
        rw [huser]
        refine h.admitted self ?_ (hadmitted self ha)
        rw [hpopped]
        exact mem_uncovered_append htransient hself

private theorem admitted_of_effect {P : Platform} {s s' : App} {e : Event} (h : Effect P s e s')
    (haccepts : ∀ k stamp r, e = .succeed k stamp → s.requests[k]? = some ⟨r, none⟩ →
      r.signsIn = none) (self : Screen) : s'.Admitted self → s.Admitted self := by
  rintro ⟨x, hx, hsignsIn, hanswer, hself⟩
  cases origin_of_effect h hx with
  | kept hx => exact ⟨x, hx, hsignsIn, hanswer, hself⟩
  | answered hr haccepted =>
      obtain ⟨k, stamp, he, hk⟩ := haccepted (Option.some.inj hanswer)
      exact absurd (haccepts k stamp _ he hk) hsignsIn
  | tapped htop hkind => cases hanswer
  | continued hr hself hcontroller => cases hanswer

private theorem gated_of_session {s : App} {email : String} (h : s.currentUser = some email) :
    Gated s := by
  constructor <;> intros <;> simp [h]

private theorem gated_signOut {s : App} {self : Screen} (hplaced : Placed s)
    (htop : s.ui.top = some self) (hkind : self.kind = .tabBar) :
    Gated ({ s with currentUser := none }.present self .login) := by
  obtain ⟨below, hchain⟩ := List.head?_eq_some_iff.mp htop
  have hpushed : ({ s with currentUser := none }.present self .login).ui.screens.chain =
      ⟨s.ui.screens.fresh, .login⟩ :: s.ui.screens.chain := by
    apply Presentation.present_chain htop
    rw [hkind]
    rfl
  constructor
  · intro hneeds
    rw [hpushed] at hneeds
    cases hneeds
  · intro other hother ha
    rw [hpushed] at hother
    rcases mem_uncovered_cons hother with rfl | ⟨-, hother⟩
    · exact absurd (admitted_below hplaced ha) (lt_irrefl _)
    · rw [hchain, uncovered, List.takeWhile_cons, if_neg (by simp [hkind])] at hother
      cases hother

private theorem gated_accept {P : Platform} {s : App} {k : Nat} {r : Request} (stamp : Stamp)
    (h : Gated s) (hplaced : Placed s) (hk : s.requests[k]? = some ⟨r, none⟩) :
    Gated (s.accept k r stamp) := by
  have heffect : Effect P s (.succeed k stamp) (s.accept k r stamp) := .accept k r stamp hk
  have hchain := chain_of_effect hplaced heffect
  have hadmitted (hr : r.signsIn = none) (self : Screen) :
      (s.accept k r stamp).Admitted self → s.Admitted self := by
    apply admitted_of_effect heffect
    intro j _ other he hj
    cases he
    rw [hk] at hj
    cases hj
    exact hr
  cases hr : r.signsIn with
  | some email => exact gated_of_session (App.accept_signsIn hr stamp)
  | none => exact h.of_chain hplaced hchain (App.accept_currentUser hr stamp) (hadmitted hr)

theorem gated_effect {P : Platform} {s s' : App} {e : Event} (h : Gated s) (hplaced : Placed s)
    (hdrop : e ≠ .dropUser) (heffect : Effect P s e s') : Gated s' := by
  have hchain := chain_of_effect hplaced heffect
  have hadmitted (he : ∀ k stamp, e ≠ .succeed k stamp) :=
    admitted_of_effect heffect fun k stamp _ hk => absurd hk (he k stamp)
  cases heffect with
  | signOut self htop hkind hselected => exact gated_signOut hplaced htop hkind
  | upload e attempt hstarts =>
      refine h.of_chain hplaced hchain rfl (hadmitted ?_)
      intro k stamp
      rw [hstarts.tapped, Attempt.tap]
      split <;> simp
  | accept k r stamp hk => exact gated_accept (P := P) stamp h hplaced hk
  | deliver k r ok s' hk hdelivery =>
      exact h.of_chain hplaced hchain hdelivery.currentUser_eq (hadmitted (by simp))
  | dropUser => exact absurd rfl hdrop
  | _ => exact h.of_chain hplaced hchain rfl (hadmitted (by simp))

theorem gated_step {P : Platform} {s s' : App} {e : Event} (h : Placed s ∧ Gated s)
    (hdrop : e ≠ .dropUser) (hstep : (appMachine P).step s e = .ok s') : Placed s' ∧ Gated s' := by
  refine ⟨placed_step h.1 hstep, ?_⟩
  rcases effect_of_step hstep with rfl | heffect
  · exact h.2
  · exact gated_effect h.2 h.1 hdrop heffect

theorem gated_launch (persisted : Option String) : Gated (.launch persisted) := by
  cases persisted with
  | none =>
      constructor
      · intro hneeds
        cases hneeds
      · rintro self - ⟨x, hx, -⟩
        cases hx
  | some email => exact gated_of_session rfl

private theorem Gated.session_of_tabBar {s : App} (h : Gated s) {self : Screen}
    (htop : s.ui.top = some self) (hkind : self.kind = .tabBar) : s.currentUser ≠ none := by
  obtain ⟨below, hchain⟩ := List.head?_eq_some_iff.mp htop
  apply h.gate
  rw [hchain, needsSession, hkind]
  rfl

/-- Unless Firebase Auth drops the user by itself, a topmost tab bar has a session, and loading
the profile tab never traps. -/
theorem tab_bar_has_session (P : Platform) (persisted : Option String) (events : List Event)
    (hdrop : Event.dropUser ∉ events) :
    (∀ s, (appMachine P).run (.launch persisted) events = .ok s →
      ∀ self, s.ui.top = some self → self.kind = .tabBar → s.currentUser ≠ none) ∧
    (appMachine P).run (.launch persisted) events ≠ .error .profileGetUserInfo ∧
    (appMachine P).run (.launch persisted) events ≠ .error .profileGetDatas := by
  have hmeets : (appMachine P).Meets (fun _ e => e ≠ .dropUser) (.launch persisted) events := by
    apply Machine.meets_of_forall
    rintro e he _ rfl
    exact hdrop he
  have hlaunch := And.intro (placed_launch persisted) (gated_launch persisted)
  refine ⟨?_, ?_⟩
  · intro s hrun self htop hkind
    have hinv := Machine.run_induction_of_meets
      (fun _ _ _ h hc hstep => gated_step (P := P) h hc hstep) hlaunch hmeets hrun
    exact hinv.2.session_of_tabBar htop hkind
  · have htraps (trap : Trap) (hrun : (appMachine P).run (.launch persisted) events = .error trap) :
        trap ≠ .profileGetUserInfo ∧ trap ≠ .profileGetDatas := by
      refine Machine.trap_of_meets
        (Q := fun trap => trap ≠ .profileGetUserInfo ∧ trap ≠ .profileGetDatas)
        (fun _ _ _ h hc hstep => gated_step (P := P) h hc hstep) ?_ hlaunch hmeets hrun
      intro s e trap hinv _ hstep
      obtain ⟨hnone, ⟨-, -, self, htop, hkind⟩ | ⟨_, attempt, _, _, rfl⟩⟩ := cause_of_trap hstep
      · exact absurd hnone (hinv.2.session_of_tabBar htop hkind)
      · cases hform : attempt.form <;> simp [Attempt.trap, hform]
    exact ⟨fun hrun => (htraps _ hrun).1 rfl, fun hrun => (htraps _ hrun).2 rfl⟩

/-- Sign out of the profile tab, then log in again as somebody else. -/
private def signOutAndLogin : List Event :=
  [.openTab .profile, .signOut false, .ui (.segue .signIn), .ui (.editCredentials "b@x" "pw"),
    .loginBtnPressed, .succeed 0 ⟨"", 0⟩, .deliver 0, .openTab .profile]

theorem tab_bar_has_session_signOut_login :
    (∃ s self, (appMachine .firebase).run (.launch (some "a@x")) signOutAndLogin = .ok s ∧
      s.ui.top = some self ∧ self.kind = .tabBar ∧ s.currentUser ≠ none) ∧
    (appMachine .firebase).run (.launch (some "a@x")) signOutAndLogin ≠
      .error .profileGetUserInfo := by
  have h := tab_bar_has_session .firebase (some "a@x") signOutAndLogin (by decide)
  exact ⟨⟨_, _, rfl, rfl, rfl, h.1 _ rfl _ rfl rfl⟩, h.2.1⟩

end BookShelf
