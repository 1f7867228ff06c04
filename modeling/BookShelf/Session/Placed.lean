import BookShelf.App.Effects
import BookShelf.Session.Chain

/-!
# Requests and the screens they come from

The controller that a request captured is an earlier screen of the right kind. With that, every
effect is one move of the presentation chain.
-/

namespace BookShelf

structure Placed (s : App) : Prop where
  below : ∀ x ∈ s.requests, x.request.self.id < s.ui.screens.fresh
  kinds : ∀ x ∈ s.requests, x.request.self.kind = x.request.controller

/-- An accepted sign-in, not delivered yet, that `self` waits for. -/
def App.Admitted (s : App) (self : Screen) : Prop :=
  ∃ x ∈ s.requests, x.request.signsIn ≠ none ∧ x.answer = some true ∧ x.request.self = self

/-- A screen for a signed-in user is presented by another one, or by an accepted sign-in. -/
def Opens (s : App) (self : Screen) (kind : ScreenKind) : Prop :=
  kind.session = true → self.kind.session = true ∨ s.Admitted self

theorem opens_of_not_session {s : App} {self : Screen} {kind : ScreenKind}
    (hkind : kind.session = false) : Opens s self kind := by
  intro h
  rw [hkind] at h
  cases h

private theorem failedUI_chain {s : App} (attempt : Attempt) :
    ChainStep (Opens s) s.ui.screens (attempt.failedUI s.ui).screens := by
  unfold Attempt.failedUI
  split
  · exact .present fun _ => opens_of_not_session rfl
  · exact .stay rfl

private theorem addedUI_chain {s : App} {attempt : Attempt} (ok : Bool)
    (hkind : attempt.self.kind = attempt.form.controller) :
    ChainStep (Opens s) s.ui.screens (attempt.addedUI ok s.ui).screens := by
  unfold Attempt.addedUI
  split
  · next form hform => exact .dismiss_create (by rw [hkind, hform]; rfl)
  · exact .present fun _ => opens_of_not_session rfl
  · next form hform =>
    refine .present fun _ _ => .inl ?_
    rw [hkind, hform]
    rfl
  · exact .stay rfl

theorem chain_of_delivery {P : Platform} {s s' : App} {k : Nat} {r : Request} {ok : Bool}
    (hplaced : Placed s) (hk : s.requests[k]? = some ⟨r, some ok⟩)
    (h : Delivery P { s with requests := s.requests.eraseIdx k } r ok s') :
    ChainStep (Opens s) s.ui.screens s'.ui.screens := by
  have hmem : ⟨r, some ok⟩ ∈ s.requests := List.mem_of_getElem? hk
  cases h with
  | signedIn self credentials =>
      exact .present fun _ _ => .inr ⟨_, hmem, by simp [Request.signsIn], rfl, rfl⟩
  | notSignedIn self credentials => exact .present fun _ => opens_of_not_session rfl
  | created tap => exact .stay rfl
  | notCreated tap => exact .present fun _ => opens_of_not_session rfl
  | signedUp tap credentials =>
      exact .present fun _ _ => .inr ⟨_, hmem, by simp [Request.signsIn], rfl, rfl⟩
  | notSignedUp tap credentials => exact .present fun _ => opens_of_not_session rfl
  | uploaded attempt => exact .stay rfl
  | notUploaded attempt => exact failedUI_chain attempt
  | gotURL attempt email huser => exact .stay (attempt.clearedUI_screens s.ui)
  | noURL attempt => exact .stay rfl
  | added attempt data ok => exact addedUI_chain ok (hplaced.kinds _ hmem)

theorem accept_screens (s : App) (k : Nat) (r : Request) (stamp : Stamp) :
    (s.accept k r stamp).ui = s.ui := by
  cases r with
  | addDocument attempt data =>
      rcases s.accept_addDocument_cases k attempt data stamp with h | ⟨-, h⟩ <;> rw [h]
  | _ => rfl

theorem chain_of_effect {P : Platform} {s s' : App} {e : Event} (hplaced : Placed s)
    (h : Effect P s e s') : ChainStep (Opens s) s.ui.screens s'.ui.screens := by
  cases h with
  | ui action =>
      refine (s.ui.apply_chain action).mono ?_
      intro self kind _ hopens hsession
      exact .inl (by rw [hopens.2 hsession]; rfl)
  | login self htop hkind => exact .stay rfl
  | signUp self htop hkind => exact .stay rfl
  | selectTab self tab htop hkind => exact .stay rfl
  | loadProfile self email htop hkind huser => exact .stay rfl
  | signOutFailed self htop hkind hselected => exact .present fun _ => opens_of_not_session rfl
  | signOut self htop hkind hselected => exact .present fun _ => opens_of_not_session rfl
  | upload e attempt hstarts => exact .stay rfl
  | accept k r stamp hk => exact .stay (by rw [accept_screens])
  | reject k r hk => exact .stay rfl
  | deliver k r ok s' hk hdelivery => exact chain_of_delivery hplaced hk hdelivery
  | dropUser => exact .stay rfl

theorem accept_requests {s : App} {k : Nat} {r : Request} {stamp : Stamp} {x : Pending Request}
    (hx : x ∈ (s.accept k r stamp).requests) : x ∈ s.requests ∨ x = ⟨r, some true⟩ := by
  cases r with
  | addDocument attempt data =>
      rcases s.accept_addDocument_cases k attempt data stamp with h | ⟨-, h⟩ <;> rw [h] at hx
      · exact .inl hx
      · exact Pending.mem_settle hx
  | _ => exact Pending.mem_settle hx

/-- Where a request that is pending after an effect comes from. A new one comes from the topmost
screen, or continues the work of the request that has just been delivered. -/
inductive Origin (s : App) (e : Event) : Pending Request → Prop
  | kept {x : Pending Request} (hx : x ∈ s.requests) : Origin s e x
  | answered {r : Request} {ok : Bool} (hr : ⟨r, none⟩ ∈ s.requests)
      (haccepted : ok = true → ∃ k stamp, e = .succeed k stamp ∧ s.requests[k]? = some ⟨r, none⟩) :
      Origin s e ⟨r, some ok⟩
  | tapped {r : Request} (htop : s.ui.top = some r.self) (hkind : r.self.kind = r.controller) :
      Origin s e ⟨r, none⟩
  | continued {r next : Request} (hr : ⟨r, some true⟩ ∈ s.requests)
      (hself : next.self = r.self) (hcontroller : next.controller = r.controller) :
      Origin s e ⟨next, none⟩

private theorem origin_of_post {s : App} {e : Event} {r : Request} {x : Pending Request}
    (hx : x ∈ Pending.post s.requests r) (htop : s.ui.top = some r.self)
    (hkind : r.self.kind = r.controller) : Origin s e x := by
  rcases Pending.mem_post.mp hx with hx | rfl
  · exact .kept hx
  · exact .tapped htop hkind

private theorem origin_of_continue {s : App} {e : Event} {k : Nat} {r next : Request}
    {x : Pending Request} (hk : s.requests[k]? = some ⟨r, some true⟩)
    (hx : x ∈ Pending.post (s.requests.eraseIdx k) next)
    (hself : next.self = r.self) (hcontroller : next.controller = r.controller) :
    Origin s e x := by
  rcases Pending.mem_post.mp hx with hx | rfl
  · exact .kept (List.mem_of_mem_eraseIdx hx)
  · exact .continued (List.mem_of_getElem? hk) hself hcontroller

theorem origin_of_effect {P : Platform} {s s' : App} {e : Event} (h : Effect P s e s')
    {x : Pending Request} (hx : x ∈ s'.requests) : Origin s e x := by
  cases h with
  | login self htop hkind => exact origin_of_post hx htop hkind
  | signUp self htop hkind => exact origin_of_post hx htop hkind
  | upload e attempt hstarts => exact origin_of_post hx hstarts.top hstarts.submits.controller
  | accept k r stamp hk =>
      rcases accept_requests hx with hx | rfl
      · exact .kept hx
      · exact .answered (List.mem_of_getElem? hk) fun _ => ⟨k, stamp, rfl, hk⟩
  | reject k r hk =>
      rcases Pending.mem_settle hx with hx | rfl
      · exact .kept hx
      · exact .answered (List.mem_of_getElem? hk) fun hok => by cases hok
  | deliver k r ok s' hk hdelivery =>
      cases hdelivery with
      | created tap => exact origin_of_continue hk hx rfl rfl
      | uploaded attempt => exact origin_of_continue hk hx rfl rfl
      | gotURL attempt email huser => exact origin_of_continue hk hx rfl rfl
      | _ => exact .kept (List.mem_of_mem_eraseIdx hx)
  | _ => exact .kept hx

theorem placed_effect {P : Platform} {s s' : App} {e : Event} (hplaced : Placed s)
    (h : Effect P s e s') : Placed s' := by
  constructor
  · intro x hx
    apply lt_of_lt_of_le ?_ (chain_of_effect hplaced h).fresh_le
    cases origin_of_effect h hx with
    | kept hx => exact hplaced.below x hx
    | answered hr haccepted => exact hplaced.below ⟨_, none⟩ hr
    | tapped htop hkind => exact s.ui.screens.below_fresh _ (List.mem_of_mem_head? htop)
    | continued hr hself hcontroller =>
        rw [hself]
        exact hplaced.below _ hr
  · intro x hx
    cases origin_of_effect h hx with
    | kept hx => exact hplaced.kinds x hx
    | answered hr haccepted => exact hplaced.kinds ⟨_, none⟩ hr
    | tapped htop hkind => exact hkind
    | continued hr hself hcontroller =>
        rw [hself, hcontroller]
        exact hplaced.kinds _ hr

theorem placed_step {P : Platform} {s s' : App} {e : Event} (h : Placed s)
    (hstep : (appMachine P).step s e = .ok s') : Placed s' := by
  rcases effect_of_step hstep with rfl | heffect
  · exact h
  · exact placed_effect h heffect

theorem placed_launch (persisted : Option String) : Placed (.launch persisted) :=
  ⟨by simp [App.launch], by simp [App.launch]⟩

end BookShelf
