import BookShelf.App.Effects

/-!
# What a step does to the sign-ups

Seen from the taps on Sign Up, an effect either does nothing, or moves one tap one stage
further.
-/

namespace BookShelf

def App.signUps (s : App) : List (Pending Request) :=
  s.requests.filter fun x => x.request.isSignUp

theorem App.mem_signUps {s : App} {x : Pending Request} :
    x ∈ s.signUps ↔ x ∈ s.requests ∧ x.request.signUpTap ≠ none := by
  rw [signUps, List.mem_filter, Request.isSignUp, Option.isSome_iff_ne_none]

theorem App.mem_requests_iff {s s' : App} (hsignUps : s'.signUps = s.signUps)
    {x : Pending Request} (hx : x.request.signUpTap ≠ none) :
    x ∈ s'.requests ↔ x ∈ s.requests := by
  have hmem := congrArg (x ∈ ·) hsignUps
  simpa [mem_signUps, hx] using hmem

def SameAccounts (s s' : App) : Prop :=
  s'.accounts = s.accounts ∧ s'.sessionWrites = s.sessionWrites

/-- The last completion of a tap, as `SignUpVC.finish` records it. -/
def endOf (s : App) (tap : SignUpTap) (screen : ScreenKind) : SignUpEnd where
  tap := tap
  session := s.currentUser
  segued := s.ui.top == some tap.self && screen == .updateProfile
  alerted := s.ui.top == some tap.self && screen == .alert

/-- Which completion is the last one, and what it presents. -/
inductive Ends (tap : SignUpTap) : Request → Bool → ScreenKind → Prop
  | notCreated : Ends tap (.createUser tap) false .alert
  | signedUp (credentials : Credentials) :
      Ends tap (.signInAfterSignUp tap credentials) true .updateProfile
  | notSignedUp (credentials : Credentials) :
      Ends tap (.signInAfterSignUp tap credentials) false .alert

inductive SignUpStep (s : App) (e : Event) (s' : App) : Prop
  | idle (hsignUps : s'.signUps = s.signUps) (haccounts : SameAccounts s s')
      (htaps : s'.taps = s.taps) (hends : s'.signUpEnds = s.signUpEnds)
      (hevent : ∀ k r ok, e = .deliver k → s.requests[k]? = some ⟨r, some ok⟩ →
        r.signUpTap = none)
  | tapped (tap : SignUpTap) (hevent : e = .signUpBtn) (hnumber : tap.number = s.taps.length)
      (hrequests : s'.requests = Pending.post s.requests (.createUser tap))
      (haccounts : SameAccounts s s') (htaps : s'.taps = s.taps ++ [tap])
      (hends : s'.signUpEnds = s.signUpEnds)
  | accepted (k : Nat) (tap : SignUpTap) (stamp : Stamp) (hevent : e = .succeed k stamp)
      (hk : s.requests[k]? = some ⟨.createUser tap, none⟩)
      (hrequests : s'.requests = Pending.settle s.requests k (.createUser tap) true)
      (haccounts : s'.accounts = s.accounts ++ [⟨tap.credentials, tap.number⟩])
      (hwrites : s'.sessionWrites = s.sessionWrites ++ [tap.number])
      (htaps : s'.taps = s.taps) (hends : s'.signUpEnds = s.signUpEnds)
  | admitted (k : Nat) (tap : SignUpTap) (credentials : Credentials) (stamp : Stamp)
      (hevent : e = .succeed k stamp)
      (hk : s.requests[k]? = some ⟨.signInAfterSignUp tap credentials, none⟩)
      (hrequests : s'.requests =
        Pending.settle s.requests k (.signInAfterSignUp tap credentials) true)
      (haccounts : s'.accounts = s.accounts)
      (hwrites : s'.sessionWrites = s.sessionWrites ++ [tap.number])
      (htaps : s'.taps = s.taps) (hends : s'.signUpEnds = s.signUpEnds)
  | refused (k : Nat) (r : Request) (hevent : e = .fail k) (hk : s.requests[k]? = some ⟨r, none⟩)
      (hrequests : s'.requests = Pending.settle s.requests k r false)
      (haccounts : SameAccounts s s') (htaps : s'.taps = s.taps)
      (hends : s'.signUpEnds = s.signUpEnds)
  | created (k : Nat) (tap : SignUpTap) (credentials : Credentials) (hevent : e = .deliver k)
      (hk : s.requests[k]? = some ⟨.createUser tap, some true⟩)
      (hrequests : s'.requests =
        Pending.post (s.requests.eraseIdx k) (.signInAfterSignUp tap credentials))
      (haccounts : SameAccounts s s') (htaps : s'.taps = s.taps)
      (hends : s'.signUpEnds = s.signUpEnds)
  | ended (k : Nat) (r : Request) (ok : Bool) (tap : SignUpTap) (screen : ScreenKind)
      (hevent : e = .deliver k) (hk : s.requests[k]? = some ⟨r, some ok⟩)
      (hlast : Ends tap r ok screen) (hrequests : s'.requests = s.requests.eraseIdx k)
      (haccounts : SameAccounts s s') (htaps : s'.taps = s.taps)
      (hends : s'.signUpEnds = s.signUpEnds ++ [endOf s tap screen])

namespace SignUpStep

variable {P : Platform} {s s' : App} {e : Event}

private theorem of_same (hrequests : s'.requests = s.requests) (haccounts : SameAccounts s s')
    (htaps : s'.taps = s.taps) (hends : s'.signUpEnds = s.signUpEnds)
    (hevent : ∀ k, e ≠ .deliver k) : SignUpStep s e s' := by
  refine .idle ?_ haccounts htaps hends fun k r ok he => absurd he (hevent k)
  rw [App.signUps, hrequests]
  rfl

private theorem of_post {r : Request} (hr : r.isSignUp = false)
    (hrequests : s'.requests = Pending.post s.requests r) (haccounts : SameAccounts s s')
    (htaps : s'.taps = s.taps) (hends : s'.signUpEnds = s.signUpEnds)
    (hevent : ∀ k, e ≠ .deliver k) : SignUpStep s e s' := by
  refine .idle ?_ haccounts htaps hends fun k r ok he => absurd he (hevent k)
  rw [App.signUps, hrequests, Pending.filter_post (p := Request.isSignUp) hr]
  rfl

private theorem of_settle {k : Nat} {r : Request} {ok : Bool} (hr : r.isSignUp = false)
    (hk : s.requests[k]? = some ⟨r, none⟩)
    (hrequests : s'.requests = Pending.settle s.requests k r ok) (haccounts : SameAccounts s s')
    (htaps : s'.taps = s.taps) (hends : s'.signUpEnds = s.signUpEnds)
    (hevent : ∀ k, e ≠ .deliver k) : SignUpStep s e s' := by
  refine .idle ?_ haccounts htaps hends fun k r ok he => absurd he (hevent k)
  rw [App.signUps, hrequests, Pending.filter_settle (p := Request.isSignUp) hk hr]
  rfl

private theorem of_other {k : Nat} {r : Request} {ok : Bool} (hr : r.isSignUp = false)
    (hk : s.requests[k]? = some ⟨r, some ok⟩)
    (hrequests : s'.requests = s.requests.eraseIdx k ∨
      ∃ next, next.isSignUp = false ∧ s'.requests = Pending.post (s.requests.eraseIdx k) next)
    (haccounts : SameAccounts s s') (htaps : s'.taps = s.taps)
    (hends : s'.signUpEnds = s.signUpEnds) : SignUpStep s (.deliver k) s' := by
  have herase := Pending.filter_erase (p := Request.isSignUp) hk hr
  refine .idle ?_ haccounts htaps hends ?_
  · rcases hrequests with hrequests | ⟨next, hnext, hrequests⟩
    · rw [App.signUps, hrequests]
      exact herase
    · rw [App.signUps, hrequests, Pending.filter_post (p := Request.isSignUp) hnext]
      exact herase
  · rintro j r' ok' hj hr'
    cases hj
    rw [hk] at hr'
    cases hr'
    exact Option.isSome_eq_false_iff.mp hr |> Option.isNone_iff_eq_none.mp

private theorem of_accept {k : Nat} {r : Request} {stamp : Stamp}
    (hk : s.requests[k]? = some ⟨r, none⟩) :
    SignUpStep s (.succeed k stamp) (s.accept k r stamp) := by
  cases r with
  | signIn self credentials => exact of_settle rfl hk rfl ⟨rfl, rfl⟩ rfl rfl (by simp)
  | createUser tap => exact .accepted k tap stamp rfl hk rfl rfl rfl rfl rfl
  | signInAfterSignUp tap credentials =>
      exact .admitted k tap credentials stamp rfl hk rfl rfl rfl rfl rfl
  | putData attempt => exact of_settle rfl hk rfl ⟨rfl, rfl⟩ rfl rfl (by simp)
  | downloadURL attempt => exact of_settle rfl hk rfl ⟨rfl, rfl⟩ rfl rfl (by simp)
  | addDocument attempt data =>
      rcases s.accept_addDocument_cases k attempt data stamp with h | ⟨-, h⟩ <;> rw [h]
      · exact of_same rfl ⟨rfl, rfl⟩ rfl rfl (by simp)
      · exact of_settle rfl hk rfl ⟨rfl, rfl⟩ rfl rfl (by simp)

private theorem of_delivery {k : Nat} {r : Request} {ok : Bool}
    (hk : s.requests[k]? = some ⟨r, some ok⟩)
    (h : Delivery P { s with requests := s.requests.eraseIdx k } r ok s') :
    SignUpStep s (.deliver k) s' := by
  cases h with
  | created tap => exact .created k tap _ rfl hk rfl ⟨rfl, rfl⟩ rfl rfl
  | notCreated tap => exact .ended k _ _ tap _ rfl hk .notCreated rfl ⟨rfl, rfl⟩ rfl rfl
  | signedUp tap credentials =>
      exact .ended k _ _ tap _ rfl hk (.signedUp credentials) rfl ⟨rfl, rfl⟩ rfl rfl
  | notSignedUp tap credentials =>
      exact .ended k _ _ tap _ rfl hk (.notSignedUp credentials) rfl ⟨rfl, rfl⟩ rfl rfl
  | uploaded attempt => exact of_other rfl hk (.inr ⟨_, rfl, rfl⟩) ⟨rfl, rfl⟩ rfl rfl
  | gotURL attempt email huser => exact of_other rfl hk (.inr ⟨_, rfl, rfl⟩) ⟨rfl, rfl⟩ rfl rfl
  | _ => exact of_other rfl hk (.inl rfl) ⟨rfl, rfl⟩ rfl rfl

theorem of_effect (h : Effect P s e s') : SignUpStep s e s' := by
  cases h with
  | login self htop hkind => exact of_post rfl rfl ⟨rfl, rfl⟩ rfl rfl (by simp)
  | signUp self htop hkind => exact .tapped _ rfl rfl rfl ⟨rfl, rfl⟩ rfl rfl
  | upload e attempt hstarts =>
      refine of_post rfl rfl ⟨rfl, rfl⟩ rfl rfl ?_
      intro k
      rw [hstarts.tapped, Attempt.tap]
      split <;> simp
  | accept k r stamp hk => exact of_accept hk
  | reject k r hk => exact .refused k r rfl hk rfl ⟨rfl, rfl⟩ rfl rfl
  | deliver k r ok s' hk hdelivery => exact of_delivery hk hdelivery
  | _ => exact of_same rfl ⟨rfl, rfl⟩ rfl rfl (by simp)

end SignUpStep

theorem SignUpStep.of_step {P : Platform} {s s' : App} {e : Event}
    (hstep : (appMachine P).step s e = .ok s') : SignUpStep s e s' := by
  by_cases hidle : ∃ k r ok, e = .deliver k ∧ s.requests[k]? = some ⟨r, some ok⟩
  · obtain ⟨k, r, ok, rfl, hk⟩ := hidle
    have hcomplete : App.complete P { s with requests := s.requests.eraseIdx k } ok r = .ok s' := by
      have hdeliver : s.deliver P k = .ok s' := hstep
      simpa only [App.deliver, hk] using hdeliver
    exact of_delivery hk (delivery_of_complete hcomplete)
  · rcases effect_of_step hstep with rfl | heffect
    · refine .idle rfl ⟨rfl, rfl⟩ rfl rfl ?_
      intro k r ok he hk
      exact absurd ⟨k, r, ok, he, hk⟩ hidle
    · exact of_effect heffect

end BookShelf
