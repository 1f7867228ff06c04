import BookShelf.App.Machine

/-!
# What a step does to the presentation chain

Every step leaves the chain alone, puts one screen on the topmost one, or takes screens of four
transient kinds off the top. Invariants about the chain are proved from this.
-/

namespace BookShelf

/-- The screens that are meant for a signed-in user. -/
def ScreenKind.session : ScreenKind → Bool
  | .tabBar | .updateProfile | .create => true
  | _ => false

/-- The screens that are ever dismissed. -/
def ScreenKind.transient : ScreenKind → Bool
  | .alert | .imagePicker | .updateProfile | .create => true
  | _ => false

/-- One move of the chain; `Opens self kind` holds of what may have been presented. -/
inductive ChainStep (Opens : Screen → ScreenKind → Prop) (p p' : Presentation presents) : Prop
  | stay (h : p' = p)
  | push (self : Screen) (kind : ScreenKind)
      (h : p.top = some self ∧ presents self.kind kind = true)
      (hopens : Opens self kind) (heq : p' = p.push self kind h)
  | pop (popped : List Screen) (hchain : p.chain = popped ++ p'.chain)
      (htransient : ∀ f ∈ popped, f.kind.transient = true) (hfresh : p'.fresh = p.fresh)

namespace ChainStep

variable {Opens : Screen → ScreenKind → Prop} {p : Presentation presents}

theorem present {self : Screen} {kind : ScreenKind} (hopens : p.top = some self → Opens self kind) :
    ChainStep Opens p (p.present self kind) := by
  rcases p.present_cases self kind with h | ⟨h, heq⟩
  · exact .stay h
  · exact .push self kind h (hopens h.1) heq

theorem dismiss_top {self : Screen} (htop : p.top = some self)
    (htransient : self.kind.transient = true) : ChainStep Opens p (p.dismiss self) := by
  obtain ⟨below, hchain⟩ := List.head?_eq_some_iff.mp htop
  cases below with
  | nil =>
      refine .pop [] ?_ (by simp) rfl
      rw [Presentation.dismiss_chain, hchain]
      rfl
  | cons g below =>
      refine .pop [self] ?_ (by simpa using htransient) rfl
      rw [Presentation.dismiss_chain, hchain, Presentation.dismissed_top]
      rfl

theorem dismiss_create {self : Screen} (hkind : self.kind = .create) :
    ChainStep Opens p (p.dismiss self) := by
  let K : ScreenKind → Prop := fun kind => kind = .create ∨ kind = .imagePicker ∨ kind = .alert
  have hclosed : ∀ k k', K k → presents k k' = true → K k' := by
    intro k k' hk hpresents
    rcases hk with rfl | rfl | rfl <;> cases k' <;> simp_all [K, presents]
  obtain ⟨popped, hchain, hpopped⟩ :=
    Presentation.exists_popped hclosed p (show K self.kind from .inl hkind)
  refine .pop popped hchain ?_ rfl
  intro f hf
  rcases hpopped f hf with h | h | h <;> rw [h] <;> rfl

theorem mono {Opens' : Screen → ScreenKind → Prop} {p' : Presentation presents}
    (h : ChainStep Opens p p')
    (himp : ∀ self kind, p.top = some self → Opens self kind → Opens' self kind) :
    ChainStep Opens' p p' := by
  cases h with
  | stay h => exact .stay h
  | push self kind h hopens heq => exact .push self kind h (himp self kind h.1 hopens) heq
  | pop popped hchain htransient hfresh => exact .pop popped hchain htransient hfresh

theorem fresh_le {p' : Presentation presents} (h : ChainStep Opens p p') : p.fresh ≤ p'.fresh := by
  cases h with
  | stay h => rw [h]
  | push self kind h hopens heq =>
      rw [heq]
      exact Nat.le_succ p.fresh
  | pop popped hchain htransient hfresh => rw [hfresh]

end ChainStep

/-- An action on the device never opens a tab bar, and opens the other screens of a signed-in
user from a tab bar only. -/
def OpensLocally (self : Screen) (kind : ScreenKind) : Prop :=
  kind ≠ .tabBar ∧ (kind.session = true → self.kind = .tabBar)

namespace UI

theorem onTop_cases (ui : UI) (kind : ScreenKind) (action : Screen → UI) :
    ui.onTop kind action = ui ∨
      ∃ self, ui.top = some self ∧ self.kind = kind ∧ ui.onTop kind action = action self := by
  unfold onTop
  cases h : ui.topOf kind with
  | none => exact .inl rfl
  | some self =>
      obtain ⟨htop, hkind⟩ := topOf_eq_some.mp h
      exact .inr ⟨self, htop, hkind, rfl⟩

theorem onTab_cases (ui : UI) (tab : Tab) (action : Screen → UI) :
    ui.onTab tab action = ui ∨
      ∃ self, ui.top = some self ∧ self.kind = .tabBar ∧ ui.onTab tab action = action self := by
  unfold onTab
  rcases ui.onTop_cases .tabBar _ with h | ⟨self, htop, hkind, h⟩
  · exact .inl h
  · by_cases hsel : (ui.tabBars self.id).selected = tab
    · exact .inr ⟨self, htop, hkind, by rw [h, if_pos hsel]⟩
    · exact .inl (by rw [h, if_neg hsel])

private theorem onTop_dismiss_chain (ui : UI) {kind : ScreenKind}
    (htransient : kind.transient = true) :
    ChainStep OpensLocally ui.screens (ui.onTop kind ui.dismiss).screens := by
  rcases ui.onTop_cases kind ui.dismiss with h | ⟨self, htop, hkind, h⟩
  · exact .stay (by rw [h])
  · rw [h]
    exact .dismiss_top htop (by rw [hkind]; exact htransient)

private theorem onTab_present_chain (ui : UI) (tab : Tab) {kind : ScreenKind}
    (hkind : kind ≠ .tabBar) :
    ChainStep OpensLocally ui.screens
      (ui.onTab tab fun self => ui.present self kind).screens := by
  rcases ui.onTab_cases tab _ with h | ⟨self, htop, htab, h⟩
  · exact .stay (by rw [h])
  · rw [h]
    exact .present fun _ => ⟨hkind, fun _ => htab⟩

theorem onCreateForm_screens (ui : UI) (change : CreateForm → CreateForm) :
    (ui.onCreateForm change).screens = ui.screens := by
  unfold onCreateForm
  rcases ui.onTop_cases .create _ with h | ⟨self, _, _, h⟩ <;> rw [h]
  rfl

theorem editCredentials_screens (ui : UI) (fields : Credentials) :
    (ui.editCredentials fields).screens = ui.screens := by
  unfold editCredentials
  split
  · rfl
  · split <;> simp [setCredentials]

private theorem segue_chain (ui : UI) (destination : ScreenKind) :
    ChainStep OpensLocally ui.screens (ui.segue destination).screens := by
  unfold segue
  split
  · exact .stay rfl
  · next self htop =>
    split
    · next hsegue =>
      refine .present fun _ => ?_
      revert hsegue
      cases self.kind <;> cases destination <;> simp [buttonSegue, OpensLocally, ScreenKind.session]
    · exact .stay rfl

private theorem selectImage_chain (ui : UI) (tag : Nat) :
    ChainStep OpensLocally ui.screens (ui.selectImage tag).screens := by
  have hpicker (self : Screen) : OpensLocally self .imagePicker := ⟨by simp, fun h => by cases h⟩
  unfold selectImage
  split
  · exact .stay rfl
  · next self htop =>
    split
    · exact .present fun _ => hpicker self
    · exact .present fun _ => hpicker self
    · exact .stay rfl

private theorem didFinishPickingMedia_chain (ui : UI) (image : Option UIImage) :
    ChainStep OpensLocally ui.screens (ui.didFinishPickingMedia image).screens := by
  unfold didFinishPickingMedia
  split
  · next picker owner below hchain =>
    split
    · next hpicker =>
      have hpop (ui' : UI) (hscreens : ui'.screens = ui.screens) (hne : picker ≠ owner) :
          ChainStep OpensLocally ui.screens (ui'.dismiss owner).screens := by
        refine .pop [picker] ?_ (by simp [hpicker, ScreenKind.transient]) ?_
        · simp only [dismiss, Presentation.dismiss_chain, hscreens, hchain,
            Presentation.dismissed_second hne, List.singleton_append]
        · simp only [dismiss, Presentation.dismiss_fresh, hscreens]
      split
      · next howner =>
        exact hpop (ui.setCreateForm owner _) rfl (fun h => by simp [h, howner] at hpicker)
      · next howner =>
        exact hpop (ui.setUpdateForm owner _) rfl (fun h => by simp [h, howner] at hpicker)
      · exact .stay rfl
    · exact .stay rfl
  · exact .stay rfl

private theorem cancelBtnPressed_chain (ui : UI) :
    ChainStep OpensLocally ui.screens ui.cancelBtnPressed.screens := by
  unfold cancelBtnPressed
  split
  · exact .stay rfl
  · next self htop =>
    split
    · next hkind =>
      refine .dismiss_top htop ?_
      rcases hkind with h | h <;> rw [h] <;> rfl
    · exact .stay rfl

theorem apply_chain (ui : UI) (action : UIAction) :
    ChainStep OpensLocally ui.screens (ui.apply action).screens := by
  cases action with
  | editCredentials email password => exact .stay (ui.editCredentials_screens _)
  | segue destination => exact ui.segue_chain destination
  | editBtnPressed => exact ui.onTab_present_chain .profile (by simp)
  | showAlertWithDistructiveButton => exact ui.onTab_present_chain .profile (by simp)
  | closeAlert => exact ui.onTop_dismiss_chain rfl
  | addBtnPressed => exact ui.onTab_present_chain .feed (by simp)
  | textViewDidBeginEditing => exact .stay (ui.onCreateForm_screens _)
  | changeCaption text => exact .stay (ui.onCreateForm_screens _)
  | textViewDidEndEditing => exact .stay (ui.onCreateForm_screens _)
  | selectImage tag => exact ui.selectImage_chain tag
  | didFinishPickingMedia image => exact ui.didFinishPickingMedia_chain image
  | cancelPicker => exact ui.onTop_dismiss_chain rfl
  | editProfileFields username bio =>
      refine .stay ?_
      rcases ui.onTop_cases .updateProfile _ with h | ⟨self, _, _, h⟩ <;> rw [apply, h]
      rfl
  | cancelBtnPressed => exact ui.cancelBtnPressed_chain

/-- An action presents and dismisses screens and fills in the forms of screens of the chain. What
all these keep, an action keeps. -/
theorem apply_frame {R : UI → Prop} {ui : UI} (hui : R ui)
    (hpresent : ∀ ui' self kind, R ui' → R (ui'.present self kind))
    (hdismiss : ∀ ui' self, R ui' → R (ui'.dismiss self))
    (hcredentials : ∀ self fields, R (ui.setCredentials self fields))
    (hcreate : ∀ self ∈ ui.screens.chain, ∀ form, R (ui.setCreateForm self form))
    (hupdate : ∀ self form, R (ui.setUpdateForm self form)) (action : UIAction) :
    R (ui.apply action) := by
  have htop (kind : ScreenKind) (change : Screen → UI)
      (h : ∀ self ∈ ui.screens.chain, R (change self)) : R (ui.onTop kind change) := by
    rcases ui.onTop_cases kind change with heq | ⟨self, hself, -, heq⟩ <;> rw [heq]
    · exact hui
    · exact h self (List.mem_of_mem_head? hself)
  have htab (tab : Tab) (kind : ScreenKind) :
      R (ui.onTab tab fun self => ui.present self kind) := by
    rcases ui.onTab_cases tab fun self => ui.present self kind with heq | ⟨self, -, -, heq⟩ <;>
      rw [heq]
    · exact hui
    · exact hpresent _ _ _ hui
  cases action with
  | editCredentials email password =>
      simp only [apply, editCredentials]
      split
      · exact hui
      · split
        · exact hcredentials _ _
        · exact hui
  | segue destination =>
      simp only [apply, segue]
      split
      · exact hui
      · split
        · exact hpresent _ _ _ hui
        · exact hui
  | editBtnPressed => exact htab _ _
  | showAlertWithDistructiveButton => exact htab _ _
  | closeAlert => exact htop _ _ fun self _ => hdismiss _ self hui
  | addBtnPressed => exact htab _ _
  | textViewDidBeginEditing => exact htop _ _ fun self hself => hcreate self hself _
  | changeCaption text => exact htop _ _ fun self hself => hcreate self hself _
  | textViewDidEndEditing => exact htop _ _ fun self hself => hcreate self hself _
  | selectImage tag =>
      simp only [apply, selectImage]
      split
      · exact hui
      · split
        · exact hpresent _ _ _ hui
        · exact hpresent _ _ _ (hupdate _ _)
        · exact hui
  | didFinishPickingMedia image =>
      simp only [apply, didFinishPickingMedia]
      split
      · next picker owner below hchain =>
        have howner : owner ∈ ui.screens.chain := by simp [hchain]
        split
        · split
          · exact hdismiss _ _ (hcreate owner howner _)
          · exact hdismiss _ _ (hupdate owner _)
          · exact hui
        · exact hui
      · exact hui
  | cancelPicker => exact htop _ _ fun self _ => hdismiss _ self hui
  | editProfileFields username bio => exact htop _ _ fun self _ => hupdate self _
  | cancelBtnPressed =>
      simp only [apply, cancelBtnPressed]
      split
      · exact hui
      · split
        · exact hdismiss _ _ hui
        · exact hui

end UI

end BookShelf
