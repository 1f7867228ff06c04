import BookShelf.Session.Placed

/-!
# Which screen an event presents

The chain step of an event, exactly: the screen that comes up, or a suffix of the chain that
is left. Read off the state before the event.
-/

namespace BookShelf

/-- The screen that a completion presents, if its controller is topmost. -/
def Request.opens : Request → Bool → Option ScreenKind
  | .signIn _ _, ok => some (if ok then .tabBar else .alert)
  | .createUser _, ok => if ok then none else some .alert
  | .signInAfterSignUp _ _, ok => some (if ok then .updateProfile else .alert)
  | .putData attempt, ok =>
      match attempt.form with
      | .create _ => if ok then none else some .alert
      | .update _ => none
  | .downloadURL _, _ => none
  | .addDocument attempt _, ok =>
      match attempt.form with
      | .create _ => if ok then none else some .alert
      | .update _ => if ok then some .tabBar else none

namespace UI

/-- What a control of the given tab presents. -/
def offers (ui : UI) (tab : Tab) (kind : ScreenKind) : Option ScreenKind :=
  match ui.topOf .tabBar with
  | none => none
  | some self => if (ui.tabBars self.id).selected = tab then some kind else none

def opens (ui : UI) : UIAction → Option ScreenKind
  | .segue destination =>
      match ui.top with
      | none => none
      | some self => if buttonSegue self.kind destination then some destination else none
  | .editBtnPressed => ui.offers .profile .updateProfile
  | .showAlertWithDistructiveButton => ui.offers .profile .alert
  | .addBtnPressed => ui.offers .feed .create
  | .selectImage _ =>
      match ui.top with
      | none => none
      | some self =>
          match self.kind with
          | .create | .updateProfile => some .imagePicker
          | _ => none
  | _ => none

/-- The kinds of the screens in the chain, topmost first. -/
def kinds (ui : UI) : List ScreenKind :=
  ui.screens.chain.map Frame.kind

end UI

def App.opens (s : App) : Event → Option ScreenKind
  | .ui action => s.ui.opens action
  | .signOut throws => s.ui.offers .profile (if throws then .alert else .login)
  | .deliver k =>
      match s.requests[k]? with
      | some ⟨r, some ok⟩ => if s.ui.top = some r.self then r.opens ok else none
      | _ => none
  | _ => none

/-- The given screen has come up, or nothing has and some screens may have closed. -/
def Opened (p p' : Presentation presents) : Option ScreenKind → Prop
  | none => p'.chain <:+ p.chain
  | some kind => p'.chain = ⟨p.fresh, kind⟩ :: p.chain

namespace Opened

variable {p : Presentation presents} {self : Screen} {kind : ScreenKind}

theorem refl : Opened p p none :=
  List.suffix_refl _

theorem dismiss : Opened p (p.dismiss self) none :=
  Presentation.dismissed_suffix self p.chain

theorem present (htop : p.top = some self) (hk : presents self.kind kind = true) :
    Opened p (p.present self kind) (some kind) :=
  Presentation.present_chain htop hk

theorem present_of_ne (htop : p.top ≠ some self) : Opened p (p.present self kind) none := by
  rcases p.present_cases self kind with h | ⟨h, -⟩
  · rw [h]
    exact refl
  · exact absurd h.1 htop

theorem eq_some_of_pushed {p' : Presentation presents} {opened : Option ScreenKind}
    (h : Opened p p' opened) (hpushed : p'.chain = ⟨p.fresh, kind⟩ :: p.chain) :
    opened = some kind := by
  cases opened with
  | none =>
      have hlength := List.IsSuffix.length_le h
      rw [hpushed, List.length_cons] at hlength
      omega
  | some other =>
      have hframe : (⟨p.fresh, kind⟩ : Screen) = ⟨p.fresh, other⟩ :=
        (List.cons.inj (hpushed.symm.trans h)).1
      exact congrArg some (congrArg Frame.kind hframe).symm

theorem present_if (hk : presents self.kind kind = true) :
    Opened p (p.present self kind) (if p.top = some self then some kind else none) := by
  split
  · next htop => exact present htop hk
  · next htop => exact present_of_ne htop

end Opened

namespace UI

private theorem onTop_dismiss_opened (ui : UI) (kind : ScreenKind) :
    Opened ui.screens (ui.onTop kind ui.dismiss).screens none := by
  rcases ui.onTop_cases kind ui.dismiss with h | ⟨self, -, -, h⟩ <;> rw [h]
  · exact .refl
  · exact .dismiss

private theorem onTab_present_opened (ui : UI) (tab : Tab) {kind : ScreenKind}
    (hk : presents .tabBar kind = true) :
    Opened ui.screens (ui.onTab tab fun self => ui.present self kind).screens
      (ui.offers tab kind) := by
  unfold onTab onTop offers
  cases h : ui.topOf .tabBar with
  | none => exact .refl
  | some self =>
      obtain ⟨htop, hkind⟩ := topOf_eq_some.mp h
      dsimp only
      split
      · exact .present htop (by rw [hkind]; exact hk)
      · exact .refl

private theorem segue_opened (ui : UI) (destination : ScreenKind) :
    Opened ui.screens (ui.segue destination).screens (ui.opens (.segue destination)) := by
  simp only [segue, opens]
  cases htop : ui.top with
  | none => exact .refl
  | some self =>
      dsimp only
      split
      · next hsegue =>
        refine .present htop ?_
        revert hsegue
        cases self.kind <;> cases destination <;> simp [buttonSegue, presents]
      · exact .refl

private theorem selectImage_opened (ui : UI) (tag : Nat) :
    Opened ui.screens (ui.selectImage tag).screens (ui.opens (.selectImage tag)) := by
  simp only [selectImage, opens]
  cases htop : ui.top with
  | none => exact .refl
  | some self =>
      have hpicker (h : presents self.kind .imagePicker = true) :
          Opened ui.screens (ui.screens.present self .imagePicker) (some .imagePicker) :=
        .present htop h
      cases hkind : self.kind with
      | create =>
          simp only [hkind]
          exact hpicker (by rw [hkind]; rfl)
      | updateProfile =>
          simp only [hkind]
          exact hpicker (by rw [hkind]; rfl)
      | _ =>
          simp only [hkind]
          exact .refl

private theorem didFinishPickingMedia_opened (ui : UI) (image : Option UIImage) :
    Opened ui.screens (ui.didFinishPickingMedia image).screens none := by
  unfold didFinishPickingMedia
  split
  · split
    · split
      · exact .dismiss
      · exact .dismiss
      · exact .refl
    · exact .refl
  · exact .refl

private theorem cancelBtnPressed_opened (ui : UI) :
    Opened ui.screens ui.cancelBtnPressed.screens none := by
  unfold cancelBtnPressed
  split
  · exact .refl
  · split
    · exact .dismiss
    · exact .refl

theorem apply_opened (ui : UI) (action : UIAction) :
    Opened ui.screens (ui.apply action).screens (ui.opens action) := by
  have hstay (ui' : UI) (h : ui'.screens = ui.screens) : Opened ui.screens ui'.screens none := by
    rw [h]
    exact .refl
  cases action with
  | editCredentials email password => exact hstay _ (ui.editCredentials_screens _)
  | segue destination => exact ui.segue_opened destination
  | editBtnPressed => exact ui.onTab_present_opened .profile rfl
  | showAlertWithDistructiveButton => exact ui.onTab_present_opened .profile rfl
  | closeAlert => exact ui.onTop_dismiss_opened .alert
  | addBtnPressed => exact ui.onTab_present_opened .feed rfl
  | textViewDidBeginEditing => exact hstay _ (ui.onCreateForm_screens _)
  | changeCaption text => exact hstay _ (ui.onCreateForm_screens _)
  | textViewDidEndEditing => exact hstay _ (ui.onCreateForm_screens _)
  | selectImage tag => exact ui.selectImage_opened tag
  | didFinishPickingMedia image => exact ui.didFinishPickingMedia_opened image
  | cancelPicker => exact ui.onTop_dismiss_opened .imagePicker
  | editProfileFields username bio =>
      refine hstay _ ?_
      rcases ui.onTop_cases .updateProfile _ with h | ⟨self, -, -, h⟩ <;> rw [apply, h]
      rfl
  | cancelBtnPressed => exact ui.cancelBtnPressed_opened

end UI

variable {P : Platform} {s s' : App}

private theorem signOut_opened (throws : Bool) :
    Opened s.ui.screens (ProfileVC.signOut throws s).ui.screens (s.opens (.signOut throws)) := by
  unfold ProfileVC.signOut App.opens UI.offers
  cases h : s.ui.topOf .tabBar with
  | none => exact .refl
  | some self =>
      obtain ⟨htop, hkind⟩ := UI.topOf_eq_some.mp h
      dsimp only
      split
      · cases throws
        · exact .present htop (by simp [hkind, presents])
        · exact .present htop (by simp [hkind, presents])
      · exact .refl

private theorem uploads_opened {attempt : Attempt} (ok : Bool)
    (hkind : attempt.self.kind = attempt.form.controller) (data : Fields) :
    Opened s.ui.screens (attempt.failedUI s.ui).screens
      (if s.ui.top = some attempt.self then (Request.putData attempt).opens false else none) ∧
    Opened s.ui.screens (attempt.addedUI ok s.ui).screens
      (if s.ui.top = some attempt.self then (Request.addDocument attempt data).opens ok
        else none) := by
  cases hform : attempt.form with
  | create form =>
      have hcreate : attempt.self.kind = .create := by rw [hkind, hform]; rfl
      have halert : Opened s.ui.screens (s.ui.screens.present attempt.self .alert)
          (if s.ui.top = some attempt.self then some .alert else none) :=
        .present_if (by simp [hcreate, presents])
      cases ok <;> simp only [Attempt.failedUI, Attempt.addedUI, Request.opens, hform]
      · exact ⟨halert, halert⟩
      · refine ⟨halert, ?_⟩
        split <;> exact Opened.dismiss
  | update form =>
      have hupdate : attempt.self.kind = .updateProfile := by rw [hkind, hform]; rfl
      cases ok <;> simp only [Attempt.failedUI, Attempt.addedUI, Request.opens, hform, ite_self,
        Bool.false_eq_true, if_false, if_true]
      · exact ⟨.refl, .refl⟩
      · exact ⟨.refl, .present_if (by rw [hupdate]; rfl)⟩

private theorem opened_of_delivery {k : Nat} {r : Request} {ok : Bool} (hplaced : Placed s)
    (hk : s.requests[k]? = some ⟨r, some ok⟩)
    (h : Delivery P { s with requests := s.requests.eraseIdx k } r ok s') :
    Opened s.ui.screens s'.ui.screens (s.opens (.deliver k)) := by
  have hkind := hplaced.kinds _ (List.mem_of_getElem? hk)
  have hopens : s.opens (.deliver k) = if s.ui.top = some r.self then r.opens ok else none := by
    simp only [App.opens, hk]
  rw [hopens]
  cases h with
  | signedIn self credentials => exact .present_if (by rw [show self.kind = _ from hkind]; rfl)
  | notSignedIn self credentials => exact .present_if (by rw [show self.kind = _ from hkind]; rfl)
  | created tap =>
      simp only [Request.opens, if_true, ite_self]
      exact .refl
  | notCreated tap => exact .present_if (by rw [show tap.self.kind = _ from hkind]; rfl)
  | signedUp tap credentials => exact .present_if (by rw [show tap.self.kind = _ from hkind]; rfl)
  | notSignedUp tap credentials =>
      exact .present_if (by rw [show tap.self.kind = _ from hkind]; rfl)
  | uploaded attempt =>
      have hnone : (Request.putData attempt).opens true = none := by
        cases hform : attempt.form <;> simp [Request.opens, hform]
      simp only [hnone, ite_self]
      exact .refl
  | notUploaded attempt => exact (uploads_opened false hkind []).1
  | gotURL attempt email huser =>
      simp only [Request.opens, ite_self]
      have hscreens := attempt.clearedUI_screens s.ui
      change Opened s.ui.screens (attempt.clearedUI s.ui).screens none
      rw [hscreens]
      exact .refl
  | noURL attempt =>
      simp only [Request.opens, ite_self]
      exact .refl
  | added attempt data ok => exact (uploads_opened ok hkind data).2

private theorem deliver_opened {k : Nat} (hplaced : Placed s) (hdeliver : s.deliver P k = .ok s') :
    Opened s.ui.screens s'.ui.screens (s.opens (.deliver k)) := by
  unfold App.deliver at hdeliver
  split at hdeliver
  · next r ok hk => exact opened_of_delivery hplaced hk (delivery_of_complete hdeliver)
  · next hnot =>
    cases hdeliver
    have hnone : s.opens (.deliver k) = none := by simp only [App.opens]
    rw [hnone]
    exact .refl

theorem opened_of_step {e : Event} (hplaced : Placed s) (hstep : (appMachine P).step s e = .ok s') :
    Opened s.ui.screens s'.ui.screens (s.opens e) := by
  have hquiet (h : s.opens e = none) (hscreens : s'.ui.screens = s.ui.screens) :
      Opened s.ui.screens s'.ui.screens (s.opens e) := by
    rw [h, hscreens]
    exact .refl
  have heffect := effect_of_step hstep
  cases e with
  | ui action =>
      cases hstep
      exact s.ui.apply_opened action
  | signOut throws =>
      cases hstep
      exact signOut_opened throws
  | deliver k => exact deliver_opened hplaced hstep
  | succeed k stamp =>
      refine hquiet rfl ?_
      rcases heffect with rfl | heffect
      · rfl
      · cases heffect with
        | accept k r stamp hk => rw [accept_screens]
        | upload e attempt hstarts => rfl
  | _ =>
      refine hquiet rfl ?_
      rcases heffect with rfl | heffect
      · rfl
      · cases heffect <;> rfl

theorem opens_of_trap {e : Event} {trap : Trap} (hstep : (appMachine P).step s e = .error trap) :
    s.opens e = none := by
  obtain ⟨-, ⟨-, ⟨tab, rfl⟩, -⟩ | ⟨k, attempt, rfl, hk, -⟩⟩ := cause_of_trap hstep
  · rfl
  · simp [App.opens, hk, Request.opens]

end BookShelf
