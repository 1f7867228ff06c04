import BookShelf.App.Firebase
import BookShelf.Library.InBand
import BookShelf.Publish.Objects
import BookShelf.Session.Placed

/-!
# From the caption view to the document

`CreateVC` shows "no caption" as a text in the caption view, and reads it back at three places. A
caption gets through them unless it is that text itself.
-/

namespace BookShelf

/-- The empty caption and its placeholder. -/
def captionView : InBand String where
  blank := ""
  placeholder := captionPlaceholder
  placeholder_ne_blank := by decide

/-- The user action behind an edit of the caption view. -/
def captionAction : Edit String → UIAction
  | .beginEditing => .textViewDidBeginEditing
  | .change text => .changeCaption text
  | .endEditing => .textViewDidEndEditing

/-- The text that the user typed last into a composer that was just opened. -/
def lastTyped (typing : List (Edit String)) : String :=
  (typing.foldl Editor.next ⟨"", false⟩).text

namespace CreateForm

def edit (form : CreateForm) : Edit String → CreateForm
  | .beginEditing => form.textViewDidBeginEditing
  | .change text => if form.editing then { form with captionTextView := text } else form
  | .endEditing => form.textViewDidEndEditing

def editor (form : CreateForm) : Editor String :=
  ⟨form.captionTextView, form.editing⟩

/-- The caption that the completion of `downloadURL` publishes. -/
def caption (form : CreateForm) : String :=
  (CreateVC.clearPlaceholder form).captionTextView

theorem caption_eq_decode (form : CreateForm) :
    form.caption = captionView.decode form.captionTextView := by
  unfold caption CreateVC.clearPlaceholder
  split
  · next h => exact (if_pos h).symm
  · next h => exact (if_neg h).symm

theorem editor_edit (form : CreateForm) (e : Edit String) :
    (form.edit e).editor = captionView.next form.editor e := by
  cases e with
  | beginEditing => rfl
  | endEditing => rfl
  | change text =>
      by_cases hediting : form.editing
      · simp [edit, editor, InBand.next, Editor.next, hediting]
      · simp [edit, editor, InBand.next, Editor.next, hediting]

theorem editor_foldl_edit (form : CreateForm) (typing : List (Edit String)) :
    (typing.foldl edit form).editor = typing.foldl captionView.next form.editor := by
  induction typing generalizing form with
  | nil => rfl
  | cons e typing ih => rw [List.foldl_cons, List.foldl_cons, ih, editor_edit]

theorem caption_typed (typing : List (Edit String)) :
    (typing.foldl edit .storyboard).caption = captionView.decode (lastTyped typing) := by
  have hstart : captionView.Agrees CreateForm.storyboard.editor ⟨"", false⟩ :=
    ⟨by decide, rfl⟩
  have htyped := (hstart.foldl typing).1
  rw [← editor_foldl_edit] at htyped
  rw [caption_eq_decode]
  exact htyped

theorem caption_clearPlaceholder (form : CreateForm) :
    (CreateVC.clearPlaceholder form).caption = form.caption := by
  rw [caption_eq_decode (CreateVC.clearPlaceholder form)]
  change captionView.decode form.caption = form.caption
  rw [caption_eq_decode, InBand.decode_decode]

/-- Opening and closing the caption view changes nothing that would be published. -/
theorem caption_begin_end (form : CreateForm) :
    form.textViewDidBeginEditing.textViewDidEndEditing.caption = form.caption := by
  rw [caption_eq_decode, caption_eq_decode]
  change captionView.decode (captionView.encode (captionView.decode form.captionTextView)) =
    captionView.decode form.captionTextView
  rw [InBand.decode_encode, InBand.decode_decode]

end CreateForm

theorem UI.apply_captionAction {ui : UI} {self : Screen} (htop : ui.top = some self)
    (hkind : self.kind = .create) (e : Edit String) :
    ui.apply (captionAction e) = ui.setCreateForm self ((ui.createForms self.id).edit e) := by
  have hself : ui.topOf .create = some self := UI.topOf_eq_some.mpr ⟨htop, hkind⟩
  cases e <;> simp only [captionAction, UI.apply, UI.onCreateForm, UI.onTop, hself] <;> rfl

theorem run_typing (P : Platform) {s : App} {self : Screen} (htop : s.ui.top = some self)
    (hkind : self.kind = .create) (typing : List (Edit String)) :
    (appMachine P).run s (typing.map fun e => .ui (captionAction e)) =
      .ok { s with
        ui := s.ui.setCreateForm self
          (typing.foldl CreateForm.edit (s.ui.createForms self.id)) } := by
  induction typing generalizing s with
  | nil => simp [UI.setCreateForm]
  | cons e typing ih =>
      have hstep : (appMachine P).step s (.ui (captionAction e)) =
          .ok { s with ui := s.ui.setCreateForm self ((s.ui.createForms self.id).edit e) } := by
        rw [← UI.apply_captionAction htop hkind e]
        rfl
      rw [List.map_cons, Machine.run_cons_of_step hstep, ih]
      · simp [UI.setCreateForm]
      · exact htop

theorem UI.apply_createForms (ui : UI) (action : UIAction) {id : Nat}
    (hid : ui.screens.fresh ≤ id) : (ui.apply action).createForms id = ui.createForms id := by
  apply UI.apply_frame (R := fun ui' => ui'.createForms id = ui.createForms id) rfl
  · exact fun _ _ _ h => h
  · exact fun _ _ h => h
  · exact fun _ _ => rfl
  · intro self hself form
    have hlt := ui.screens.below_fresh self hself
    have hne : id ≠ self.id := by omega
    exact Function.update_of_ne hne form ui.createForms
  · exact fun _ _ => rfl

/-- Who writes to the forms of the composers: the user, the completion of a `downloadURL`, and
that of a successful `addDocument`. -/
inductive FormStep (s : App) (e : Event) (s' : App) : Prop
  | same (hforms : s'.ui.createForms = s.ui.createForms)
  | edited (action : UIAction) (hevent : e = .ui action) (hui : s'.ui = s.ui.apply action)
  | cleared (attempt : Attempt) (hlocated : attempt ∈ s.locating e)
      (hforms : s'.ui.createForms = (attempt.clearedUI s.ui).createForms)
  | finished (attempt : Attempt) (data : Fields)
      (hadded : ⟨.addDocument attempt data, some true⟩ ∈ s.requests)
      (hforms : s'.ui.createForms = (attempt.addedUI true s.ui).createForms)

theorem FormStep.of_effect {P : Platform} {s s' : App} {e : Event} (h : Effect P s e s') :
    FormStep s e s' := by
  cases h with
  | ui action => exact .edited action rfl rfl
  | accept k r stamp hk => exact .same (by rw [accept_screens])
  | deliver k r ok s' hk hdelivery =>
      cases hdelivery with
      | notUploaded attempt =>
          refine .same ?_
          cases hform : attempt.form <;> simp [Attempt.failedUI, hform, UI.present]
      | gotURL attempt email huser =>
          exact .cleared attempt (App.mem_locating.mpr ⟨k, rfl, hk⟩) rfl
      | added attempt data ok =>
          cases ok with
          | true => exact .finished attempt data (List.mem_of_getElem? hk) rfl
          | false =>
              refine .same ?_
              cases hform : attempt.form <;> simp [Attempt.addedUI, hform, UI.present]
      | _ => exact .same rfl
  | _ => exact .same rfl

theorem FormStep.of_step {P : Platform} {s s' : App} {e : Event}
    (hstep : (appMachine P).step s e = .ok s') : FormStep s e s' := by
  rcases effect_of_step hstep with rfl | heffect
  · exact .same rfl
  · exact .of_effect heffect

namespace Attempt

theorem clearedUI_createForms {attempt : Attempt} {id : Nat} (h : id ≠ attempt.self.id) (ui : UI) :
    (attempt.clearedUI ui).createForms id = ui.createForms id := by
  cases hform : attempt.form <;> simp [clearedUI, hform, UI.setCreateForm, h]

theorem addedUI_createForms {attempt : Attempt} {id : Nat} (h : id ≠ attempt.self.id) (ok : Bool)
    (ui : UI) : (attempt.addedUI ok ui).createForms id = ui.createForms id := by
  cases hform : attempt.form <;> cases ok <;>
    simp [addedUI, hform, UI.setCreateForm, UI.present, UI.dismiss, h]

theorem clearedUI_caption (attempt : Attempt) (ui : UI) (id : Nat) :
    ((attempt.clearedUI ui).createForms id).caption = (ui.createForms id).caption := by
  by_cases h : id = attempt.self.id
  · subst h
    cases hform : attempt.form <;>
      simp [clearedUI, hform, UI.setCreateForm, CreateForm.caption_clearPlaceholder]
  · rw [clearedUI_createForms h]

end Attempt

/-- The services change a caption only by reporting that a document of its composer is stored. -/
theorem FormStep.caption_of_service {s s' : App} {e : Event} (h : FormStep s e s')
    (hservice : e.fromService = true) {id : Nat}
    (hother : ∀ attempt data, ⟨.addDocument attempt data, some true⟩ ∈ s.requests →
      id ≠ attempt.self.id) :
    (s'.ui.createForms id).caption = (s.ui.createForms id).caption := by
  cases h with
  | same hforms => rw [hforms]
  | edited action hevent hui =>
      rw [hevent] at hservice
      cases hservice
  | cleared attempt hlocated hforms => rw [hforms, Attempt.clearedUI_caption]
  | finished attempt data hadded hforms =>
      rw [hforms, Attempt.addedUI_createForms (hother attempt data hadded)]

/-- The identities that are still free have never been written to, and nobody has published under
them. -/
structure Unused (s : App) : Prop where
  placed : Placed s
  forms : ∀ id, s.ui.screens.fresh ≤ id → s.ui.createForms id = .storyboard
  documents : ∀ added ∈ s.documents, added.attempt.self.id < s.ui.screens.fresh

theorem unused_step {P : Platform} {s s' : App} {e : Event} (h : Unused s)
    (hstep : (appMachine P).step s e = .ok s') : Unused s' := by
  have hfresh : s.ui.screens.fresh ≤ s'.ui.screens.fresh := by
    rcases effect_of_step hstep with rfl | heffect
    · exact le_refl _
    · exact (chain_of_effect h.placed heffect).fresh_le
  refine ⟨placed_step h.placed hstep, ?_, ?_⟩
  · intro id hid
    have hfree : s.ui.screens.fresh ≤ id := hfresh.trans hid
    rw [← h.forms id hfree]
    cases FormStep.of_step hstep with
    | same hforms => rw [hforms]
    | edited action hevent hui => rw [hui, UI.apply_createForms _ _ hfree]
    | cleared attempt hlocated hforms =>
        obtain ⟨k, -, hk⟩ := App.mem_locating.mp hlocated
        have hlt : attempt.self.id < _ := h.placed.below _ (List.mem_of_getElem? hk)
        rw [hforms, Attempt.clearedUI_createForms (by omega)]
    | finished attempt data hadded hforms =>
        have hlt : attempt.self.id < _ := h.placed.below _ hadded
        rw [hforms, Attempt.addedUI_createForms (by omega)]
  · intro added hadded
    refine lt_of_lt_of_le ?_ hfresh
    rcases (PublishStep.of_step hstep).document_cases hadded with hadded | hadds
    · exact h.documents added hadded
    · obtain ⟨data, stamp, hrequested, -⟩ := hadds.requested
      exact h.placed.below _ hrequested

theorem unused_of_run {P : Platform} {persisted : Option String} {events : List Event} {s : App}
    (hrun : (appMachine P).run (.launch persisted) events = .ok s) : Unused s := by
  refine Machine.run_induction (fun _ _ _ h hstep => unused_step h hstep) ?_ hrun
  exact ⟨placed_launch persisted, fun _ _ => rfl, by simp [App.launch]⟩

/-- The attempt is the only one of its composer, and carries the text to its document: the form
shows it until the URL is there, then the request holds it. -/
structure Carries (attempt : Attempt) (text : String) (s : App) : Prop where
  only : ∀ x ∈ s.requests, ∀ other, x.request.attempt = some other →
    other.self.id = attempt.self.id → other = attempt
  shown : ∀ x ∈ s.requests, x.request = .putData attempt ∨ x.request = .downloadURL attempt →
    (s.ui.createForms attempt.self.id).caption = text
  requested : ∀ x ∈ s.requests, ∀ data, x.request = .addDocument attempt data →
    data.lookup "caption" = some (.string text)
  documents : ∀ added ∈ s.documents, added.attempt.self.id = attempt.self.id →
    added.document.string? "caption" = some text

section

variable {P : Platform} {s s' : App} {e : Event} {attempt : Attempt} {text : String}

theorem Request.self_of_attempt {r : Request} (h : r.attempt = some attempt) :
    r.self = attempt.self := by
  cases r <;> cases h <;> rfl

theorem Event.not_starts (hservice : e.fromService = true) : ¬ s.Starts P e attempt := by
  intro hstarts
  rw [hstarts.tapped, Attempt.tap] at hservice
  split at hservice <;> cases hservice

private theorem Carries.caption_step (h : Carries attempt text s) (hdrawn : Drawn s)
    (hservice : e.fromService = true) (hstep : (appMachine P).step s e = .ok s')
    {x : Pending Request} (hx : x ∈ s.requests)
    (hwaits : x.request = .putData attempt ∨ x.request = .downloadURL attempt) :
    (s'.ui.createForms attempt.self.id).caption = text := by
  rw [← h.shown x hx hwaits]
  apply (FormStep.of_step hstep).caption_of_service hservice
  intro other data hadded hid
  have hother : other = attempt := h.only _ hadded other rfl hid.symm
  subst hother
  have hxattempt : x.request.attempt = some other := by
    rcases hwaits with hx | hx <;> rw [hx] <;> rfl
  have hsame := Pending.eq_of_key hdrawn.keys_nodup hx hadded
    (Request.uuid_of_attempt hxattempt) rfl
  rcases hwaits with hx | hx <;> rw [hsame] at hx <;> cases hx

theorem carries_step (hform : ∃ form, attempt.form = .create form) (h : Carries attempt text s)
    (hdrawn : Drawn s) (hservice : e.fromService = true)
    (hstep : (appMachine P).step s e = .ok s') : Carries attempt text s' := by
  have hpublish := PublishStep.of_step hstep
  constructor
  · intro x hx other hother hid
    rcases hpublish.attempt_cases hx hother with ⟨y, hy, hyother⟩ | hstarts
    · exact h.only y hy other hyother hid
    · exact absurd hstarts (Event.not_starts hservice)
  · intro x hx hwaits
    have hxattempt : x.request.attempt ≠ none := by
      rcases hwaits with hx | hx <;> simp [hx, Request.attempt]
    cases hpublish.arises hx hxattempt with
    | kept hx => exact h.caption_step hdrawn hservice hstep hx hwaits
    | answered hr hstored => exact h.caption_step hdrawn hservice hstep hr hwaits
    | started hstarts => exact absurd hstarts (Event.not_starts hservice)
    | asked hstored =>
        rcases hwaits with hx | hx <;> cases hx
        exact h.caption_step hdrawn hservice hstep hstored (.inl rfl)
    | written hlocated huser => rcases hwaits with hx | hx <;> cases hx
  · intro x hx data hxd
    rcases hpublish.requested_cases hx hxd with ⟨y, hy, hyd⟩ | ⟨hlocated, email, -, hdata⟩
    · exact h.requested y hy data hyd
    · obtain ⟨k, -, hk⟩ := App.mem_locating.mp hlocated
      obtain ⟨form, hform⟩ := hform
      have hcaption := h.shown _ (List.mem_of_getElem? hk) (.inr rfl)
      rw [hdata, ← hcaption]
      simp only [Attempt.fields, hform, firestorePost]
      rfl
  · intro added hadded hid
    rcases hpublish.document_cases hadded with hadded | hadds
    · exact h.documents added hadded hid
    · obtain ⟨data, stamp, hrequested, hdocument⟩ := hadds.requested
      have hattempt := h.only _ hrequested added.attempt rfl hid
      rw [hdocument, Document.string?_accepted,
        h.requested _ hrequested data (by rw [hattempt])]
      rfl

theorem carries_of_run (hform : ∃ form, attempt.form = .create form) {answers : List Event}
    (hdrawn : Drawn s) (h : Carries attempt text s)
    (hanswers : ∀ e ∈ answers, e.fromService = true)
    (hrun : (appMachine P).run s answers = .ok s') : Carries attempt text s' := by
  have hboth : Drawn s' ∧ Carries attempt text s' := by
    refine Machine.run_induction_of_meets (C := fun _ e => e.fromService = true)
      (P := fun s => Drawn s ∧ Carries attempt text s) ?_ ⟨hdrawn, h⟩
      (Machine.meets_of_forall (fun e he _ => hanswers e he) s) hrun
    intro s e s' ⟨hdrawn, h⟩ hservice hstep
    exact ⟨drawn_step hdrawn (.of_step hstep), carries_step hform h hdrawn hservice hstep⟩
  exact hboth.2

theorem Carries.of_first (hcaption : (s.ui.createForms attempt.self.id).caption = text)
    (hrequests : ∀ x ∈ s.requests,
      x.request.self.id < attempt.self.id ∨ x.request = .putData attempt)
    (hdocuments : ∀ added ∈ s.documents, added.attempt.self.id < attempt.self.id) :
    Carries attempt text s := by
  refine ⟨?_, fun _ _ _ => hcaption, ?_, ?_⟩
  · intro x hx other hother hid
    rcases hrequests x hx with hlt | hput
    · rw [Request.self_of_attempt hother] at hlt
      omega
    · rw [hput] at hother
      exact (Option.some.inj hother).symm
  · intro x hx data hxd
    rcases hrequests x hx with hlt | hput
    · rw [hxd] at hlt
      exact absurd hlt (Nat.lt_irrefl _)
    · rw [hxd] at hput
      cases hput
  · intro added hadded hid
    have hlt := hdocuments added hadded
    omega

theorem carries_share {self : Screen} {uuid : String} (htop : s.ui.top = some self)
    (hkind : self.kind = .create) (hrequests : ∀ x ∈ s.requests, x.request.self.id < self.id)
    (hdocuments : ∀ added ∈ s.documents, added.attempt.self.id < self.id)
    (hstep : (appMachine P).step s (.shareBtnPressed uuid) = .ok s') :
    ∃ attempt, attempt.self = self ∧ (∃ form, attempt.form = .create form) ∧
      Carries attempt (s.ui.createForms self.id).caption s' := by
  rcases effect_of_step hstep with rfl | heffect
  · refine ⟨⟨self, .create (s'.ui.createForms self.id), none, [], ⟨"", ""⟩⟩, rfl, ⟨_, rfl⟩, ?_⟩
    exact .of_first rfl (fun x hx => .inl (hrequests x hx)) hdocuments
  · cases heffect with
    | upload e attempt hstarts =>
        obtain rfl : self = attempt.self := Option.some.inj (htop.symm.trans hstarts.top)
        refine ⟨attempt, rfl, ?_, ?_⟩
        · cases hform : attempt.form with
          | create form => exact ⟨form, rfl⟩
          | update form =>
              have hcontroller := hstarts.submits.controller
              rw [hform, hkind] at hcontroller
              cases hcontroller
        · refine .of_first rfl ?_ hdocuments
          intro x hx
          rcases Pending.mem_post.mp hx with hx | rfl
          · exact .inl (hrequests x hx)
          · exact .inr rfl

end

/-- A user opens a composer, types and shares, and whatever document comes of it without another
tap has the text typed last as its caption, just if that text is not the placeholder. -/
theorem typed_caption_published_iff (P : Platform) (persisted : Option String)
    (before : List Event) (s : App) (typing : List (Edit String)) (uuid : String)
    (answers : List Event) (s' : App)
    (hbefore : (appMachine P).run (.launch persisted) before = .ok s)
    (hopens : (s.ui.apply .addBtnPressed).top = some ⟨s.ui.screens.fresh, .create⟩)
    (hanswers : ∀ e ∈ answers, e.fromService = true)
    (hrun : (appMachine P).run s (.ui .addBtnPressed :: typing.map (fun e => .ui (captionAction e))
      ++ .shareBtnPressed uuid :: answers) = .ok s') :
    (∀ added ∈ s'.collection "Post", added.attempt.self = ⟨s.ui.screens.fresh, .create⟩ →
      (added.document.string? "caption" = some (lastTyped typing) ↔
        lastTyped typing ≠ captionPlaceholder)) ∧
    ∀ form : CreateForm,
      form.textViewDidBeginEditing.textViewDidEndEditing.caption = form.caption := by
  refine ⟨?_, CreateForm.caption_begin_end⟩
  obtain ⟨typed, htyped, hrest⟩ := Machine.exists_of_run_append hrun
  obtain ⟨shared, hshare, hlater⟩ := Machine.run_cons_eq_ok.mp hrest
  have hdrawn : Drawn shared :=
    (objects_of_run (Machine.run_concat ((Machine.run_append hbefore _).trans htyped) hshare)).1
  have hunused := unused_of_run hbefore
  obtain ⟨opened, hopened, htyping⟩ := Machine.run_cons_eq_ok.mp htyped
  cases hopened
  rw [run_typing P hopens rfl] at htyping
  cases htyping
  obtain ⟨attempt, hself, hform, hcarries⟩ := carries_share hopens rfl hunused.placed.below
    hunused.documents hshare
  have hcaption := CreateForm.caption_typed typing
  rw [← hunused.forms _ (le_refl _), ← UI.apply_createForms s.ui .addBtnPressed (le_refl _)]
    at hcaption
  simp only [UI.setCreateForm, Function.update_self, hcaption] at hcarries
  have hend := carries_of_run hform hdrawn hcarries hanswers hlater
  intro added hadded hcomposer
  rw [hend.documents added (List.mem_of_mem_filter hadded) (by rw [hcomposer, hself]),
    Option.some.injEq]
  exact captionView.decode_eq_self_iff

/-- Every answer is a yes. -/
private def stored : List Event :=
  [.succeed 0 ⟨"", 0⟩, .deliver 0, .succeed 0 ⟨"", 0⟩, .deliver 0, .succeed 0 ⟨"p1", 1⟩]

/-- A caption typed in two goes. -/
private def goodBook : List (Edit String) :=
  [.beginEditing, .change "a book", .endEditing, .beginEditing, .change "a good book", .endEditing]

theorem typed_caption_published_good_book :
    ∃ s', (appMachine .firebase).run (.launch (some "a@x")) (.ui .addBtnPressed ::
        goodBook.map (fun e => .ui (captionAction e)) ++ .shareBtnPressed "A1" :: stored) =
          .ok s' ∧
      ∃ added ∈ s'.collection "Post", added.document.string? "caption" = some "a good book" := by
  refine ⟨_, rfl, _, List.mem_singleton_self _, ?_⟩
  exact ((typed_caption_published_iff .firebase (some "a@x") [] _ goodBook "A1" stored _ rfl rfl
    (by decide) rfl).1 _ (List.mem_singleton_self _) rfl).mpr (by decide)

/-- A user who types the placeholder publishes no caption. -/
theorem typed_placeholder_swallowed :
    ∃ s', (appMachine .firebase).run (.launch (some "a@x")) (.ui .addBtnPressed ::
        [.beginEditing, .change captionPlaceholder, .endEditing].map
          (fun e => .ui (captionAction e)) ++ .shareBtnPressed "A1" :: stored) = .ok s' ∧
      lastTyped [.beginEditing, .change captionPlaceholder, .endEditing] = captionPlaceholder ∧
      ∃ added ∈ s'.collection "Post", added.document.string? "caption" = some "" ∧
        added.document.string? "caption" ≠ some captionPlaceholder :=
  ⟨_, rfl, rfl, _, List.mem_singleton_self _, rfl, by decide⟩

end BookShelf
