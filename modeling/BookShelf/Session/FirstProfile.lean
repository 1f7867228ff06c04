import BookShelf.App.Firebase
import BookShelf.App.Lifecycle
import BookShelf.Publish.Steps
import BookShelf.Session.Profile
import BookShelf.Session.Segues

/-!
# A tab bar without a profile

Signing up leads to the tab bar through a profile form that can be cancelled. The login and the
launch lead there too, and look at the session only.
-/

namespace BookShelf

namespace App

/-- A `Users` document of the account that the readers of profiles can decode. -/
def HasProfile (s : App) (email : String) : Prop :=
  ∃ d ∈ s.users, d.string? "email" = some email ∧
    ∀ field ∈ ["profileImageURL", "bio", "username"], (d.string? field).isSome

instance (s : App) (email : String) : Decidable (s.HasProfile email) :=
  inferInstanceAs (Decidable (∃ d ∈ s.users, _ ∧ ∀ field ∈ ["profileImageURL", "bio", "username"],
    (d.string? field).isSome = true))

/-- Somebody is signed in, and has a profile. -/
def Profiled (s : App) : Prop :=
  ∃ email ∈ s.currentUser, s.HasProfile email

/-- A tab bar is in view, or under nothing but alerts, pickers and forms. -/
def TabBarLive (s : App) : Prop :=
  liveTab s.ui.screens.chain ≠ none

instance (s : App) : Decidable s.TabBarLive :=
  inferInstanceAs (Decidable (_ ≠ _))

end App

/-- An accepted login opens a tab bar for whoever is signed in by then. So does a profile document,
unless it is refused; that is harmless if it is the document of that very user. -/
def leadsToTabBar (user : Option String) : Pending Request → Bool
  | ⟨.signIn _ _, answer⟩ => answer = some true
  | ⟨.addDocument attempt data, answer⟩ =>
      attempt.form.collection = "Users" && answer ≠ some false &&
        (data.lookup "email").bind FieldValue.asString ≠ user
  | _ => false

namespace App

/-- A tab bar is live, or a completion may still open one, which is not the one of `user`'s own
profile form. -/
def TabBarAhead (s : App) (user : Option String) : Prop :=
  s.TabBarLive ∨ ∃ x ∈ s.requests, x.request.self ∈ liveScreens s.ui.screens.chain ∧
    leadsToTabBar user x = true

instance (s : App) (user : Option String) : Decidable (s.TabBarAhead user) :=
  inferInstanceAs (Decidable (_ ∨ ∃ x ∈ s.requests, _ ∧ _))

/-- The request at position `k` is a login from a screen that may come back into view. -/
def logsIn (s : App) (k : Nat) : Bool :=
  match s.requests[k]? with
  | some ⟨.signIn self _, none⟩ => self ∈ liveScreens s.ui.screens.chain
  | _ => false

end App

/-- The account whose profile an event brings into `Users`: the server accepts the document of a
profile form, or another installation has written a complete one. -/
def acceptedProfile (s : App) : LifeEvent → List String
  | .app (.succeed k stamp) =>
      match s.requests[k]? with
      | some ⟨.addDocument attempt data, none⟩ =>
          if attempt.form.collection = "Users" ∧
              ∀ other ∈ s.collection "Users", other.document.documentID ≠ stamp.documentID then
            ((data.lookup "email").bind FieldValue.asString).toList
          else []
      | _ => []
  | .arrive added =>
      if added.collection = "Users" ∧
          (∀ other ∈ s.collection "Users", other.document.documentID ≠ added.document.documentID) ∧
          ∀ field ∈ ["profileImageURL", "bio", "username"],
            (added.document.string? field).isSome then
        (added.document.string? "email").toList
      else []
  | _ => []

/-- An account whose first profile has not been accepted yet does not log in, is signed in by a
sign-up only while no tab bar is about to appear, and is not signed in when the app starts again.
Nobody is dropped while a tab bar is about to appear. The second component lists the accounts whose
profile has been accepted so far. -/
def KeepsProfiles (s : App × List String) : LifeEvent → Prop
  | .app (.succeed k _) => ∀ email ∈ s.1.signingIn k, email ∈ s.2 ∨
      s.1.logsIn k = false ∧ (s.1.currentUser = some email ∨ ¬ s.1.TabBarAhead (some email))
  | .app .dropUser => ¬ s.1.TabBarAhead none
  | .relaunch => ∀ email ∈ s.1.currentUser, email ∈ s.2
  | _ => True

instance (s : App × List String) (e : LifeEvent) : Decidable (KeepsProfiles s e) := by
  unfold KeepsProfiles
  split <;> infer_instance

variable {P : Platform} {s s' : App} {e : Event}

theorem App.hasProfile_iff {email : String} :
    s.HasProfile email ↔ ∃ added ∈ s.documents, added.collection = "Users" ∧
      added.document.string? "email" = some email ∧
      ∀ field ∈ ["profileImageURL", "bio", "username"], (added.document.string? field).isSome := by
  constructor
  · rintro ⟨d, hd, hprofile⟩
    obtain ⟨added, hadded, rfl⟩ := List.mem_map.mp hd
    obtain ⟨hadded, hcollection⟩ := List.mem_filter.mp hadded
    exact ⟨added, hadded, of_decide_eq_true hcollection, hprofile⟩
  · rintro ⟨added, hadded, hcollection, hprofile⟩
    refine ⟨added.document, ?_, hprofile⟩
    exact List.mem_map_of_mem (List.mem_filter.mpr ⟨hadded, decide_eq_true hcollection⟩)

/-- Profiles are never deleted. -/
theorem App.HasProfile.mono {email : String} (h : s.HasProfile email)
    (hdocuments : s.documents ⊆ s'.documents) : s'.HasProfile email := by
  obtain ⟨added, hadded, hprofile⟩ := App.hasProfile_iff.mp h
  exact App.hasProfile_iff.mpr ⟨added, hdocuments hadded, hprofile⟩

theorem App.hasProfile_append {email : String} {added : Added}
    (hdocuments : s'.documents = s.documents ++ [added]) :
    s'.HasProfile email ↔ s.HasProfile email ∨ added.collection = "Users" ∧
      added.document.string? "email" = some email ∧
      ∀ field ∈ ["profileImageURL", "bio", "username"],
        (added.document.string? field).isSome := by
  simp only [App.hasProfile_iff, hdocuments, List.mem_append, List.mem_singleton, or_and_right,
    exists_or, exists_eq_left]

theorem App.hasProfile_congr {email : String} (hdocuments : s'.documents = s.documents) :
    s'.HasProfile email ↔ s.HasProfile email := by
  rw [App.hasProfile_iff, App.hasProfile_iff, hdocuments]

theorem deliver_of_opens_tabBar (h : s.opens e = some .tabBar) : ∃ k, e = .deliver k := by
  cases e with
  | ui action =>
      exfalso
      have hoffers (tab : Tab) {kind : ScreenKind} (hkind : kind ≠ .tabBar) :
          s.ui.offers tab kind ≠ some .tabBar := by
        unfold UI.offers
        split
        · simp
        · split <;> simp [hkind]
      cases action with
      | segue destination =>
          simp only [App.opens, UI.opens] at h
          split at h
          · cases h
          · split at h
            · next self _ hsegue =>
              obtain rfl := Option.some.inj h
              revert hsegue
              cases self.kind <;> simp [buttonSegue]
            · cases h
      | editBtnPressed => exact hoffers .profile (by simp) h
      | showAlertWithDistructiveButton => exact hoffers .profile (by simp) h
      | addBtnPressed => exact hoffers .feed (by simp) h
      | selectImage tag =>
          simp only [App.opens, UI.opens] at h
          split at h
          · cases h
          · split at h <;> cases h
      | _ => cases h
  | signOut throws =>
      simp only [App.opens, UI.offers] at h
      split at h
      · cases h
      · split at h
        · cases throws <;> cases h
        · cases h
  | deliver k => exact ⟨k, rfl⟩
  | _ => cases h

/-- A tab bar can come back into view after a step only if it could before, or if the step has
opened it. -/
theorem tabBarLive_of_step (hplaced : Placed s) (hstep : (appMachine P).step s e = .ok s')
    (hlive : s'.TabBarLive) : s.TabBarLive ∨ s.opens e = some .tabBar := by
  rcases effect_of_step hstep with rfl | heffect
  · exact .inl hlive
  · unfold App.TabBarLive at hlive ⊢
    cases chain_of_effect hplaced heffect with
    | stay heq => exact .inl (heq ▸ hlive)
    | push self kind htop hopens heq =>
        have hpushed : s'.ui.screens.chain = ⟨s.ui.screens.fresh, kind⟩ :: s.ui.screens.chain := by
          rw [heq]
          rfl
        rw [hpushed, liveTab] at hlive
        by_cases hkind : kind = .tabBar
        · right
          rw [← hkind]
          exact (opened_of_step hplaced hstep).eq_some_of_pushed hpushed
        · rw [if_neg hkind] at hlive
          split at hlive
          · exact .inl hlive
          · exact absurd rfl hlive
    | pop popped hchain htransient hfresh =>
        left
        rwa [hchain, liveTab_append htransient]

theorem App.Profiled.mono (h : s.Profiled) (huser : s'.currentUser = s.currentUser)
    (hdocuments : s.documents ⊆ s'.documents) : s'.Profiled := by
  obtain ⟨email, hemail, hprofile⟩ := h
  exact ⟨email, by rw [huser]; exact hemail, hprofile.mono hdocuments⟩

/-- An accepted document holds the fields of its form and is in its collection. -/
structure Saved (P : Platform) (s : App) : Prop where
  fields : ∀ x ∈ s.requests, ∀ attempt data, x.request = .addDocument attempt data →
    ∃ ui email, data = attempt.fields P ui email
  added : ∀ attempt data, ⟨.addDocument attempt data, some true⟩ ∈ s.requests →
    ∃ added ∈ s.documents, added.collection = attempt.form.collection ∧
      ∃ stamp, added.document = .accepted data stamp

private theorem saved_fields (h : Saved P s) (hstep : PublishStep P s e s') :
    ∀ x ∈ s'.requests, ∀ attempt data, x.request = .addDocument attempt data →
      ∃ ui email, data = attempt.fields P ui email := by
  intro x hx attempt data hrequest
  rcases hstep.requested_cases hx hrequest with ⟨y, hy, hyd⟩ | ⟨-, email, -, hdata⟩
  · exact h.fields y hy attempt data hyd
  · exact ⟨s.ui, email, hdata⟩

private theorem added_cases (hstep : PublishStep P s e s') {attempt : Attempt} {data : Fields}
    (hx : ⟨.addDocument attempt data, some true⟩ ∈ s'.requests) :
    ⟨.addDocument attempt data, some true⟩ ∈ s.requests ∨
      ∃ stamp, ⟨attempt.form.collection, .accepted data stamp, attempt⟩ ∈ s'.documents := by
  cases hstep with
  | idle huploads hstores =>
      exact .inl (PublishStep.idle_mem huploads hx (by simp [Request.attempt]))
  | start other hstarts hrequests hstorage hdocuments huuids =>
      rw [hrequests] at hx
      rcases Pending.mem_post.mp hx with hx | heq
      · exact .inl hx
      · cases heq
  | stored k other hk hrequests hstorage hdocuments huuids =>
      rw [hrequests] at hx
      rcases Pending.mem_settle hx with hx | heq
      · exact .inl hx
      · cases heq
  | answered k r ok hk hr hrequests hstores =>
      rw [hrequests] at hx
      rcases Pending.mem_settle hx with hx | heq
      · exact .inl hx
      · cases heq
        rcases hr with ⟨other, hr⟩ | hr <;> cases hr
  | added k other data' stamp hevent hk hid hrequests hstorage hdocuments huuids =>
      rw [hrequests] at hx
      rcases Pending.mem_settle hx with hx | heq
      · exact .inl hx
      · cases heq
        right
        rw [hdocuments]
        exact ⟨stamp, List.mem_append_right _ (List.mem_singleton_self _)⟩
  | asked k other hk hrequests hstores =>
      rw [hrequests] at hx
      rcases Pending.mem_post.mp hx with hx | heq
      · exact .inl (List.mem_of_mem_eraseIdx hx)
      · cases heq
  | written k other email hevent hk huser hrequests hstores =>
      rw [hrequests] at hx
      rcases Pending.mem_post.mp hx with hx | heq
      · exact .inl (List.mem_of_mem_eraseIdx hx)
      · cases heq

theorem saved_step (h : Saved P s) (hstep : PublishStep P s e s') : Saved P s' := by
  refine ⟨saved_fields h hstep, ?_⟩
  intro attempt data hx
  rcases added_cases hstep hx with hx | ⟨stamp, hadded⟩
  · obtain ⟨added, hadded, hdocument⟩ := h.added attempt data hx
    exact ⟨added, hstep.documents_subset hadded, hdocument⟩
  · exact ⟨_, hadded, rfl, stamp, rfl⟩

/-- The document of a profile form is a complete profile of the account it was written for. -/
theorem Saved.complete (h : Saved P s) {x : Pending Request} {attempt : Attempt} {data : Fields}
    (hx : x ∈ s.requests) (hrequest : x.request = .addDocument attempt data)
    (hform : attempt.form.collection = "Users") (stamp : Stamp) :
    ∀ field ∈ ["profileImageURL", "bio", "username"],
      ((Document.accepted data stamp).string? field).isSome := by
  obtain ⟨ui, account, rfl⟩ := h.fields x hx attempt data hrequest
  intro field hfield
  rw [Document.string?_accepted]
  cases hupdate : attempt.form with
  | create form => simp [hupdate, Form.collection] at hform
  | update form =>
      simp only [List.mem_cons, List.not_mem_nil, or_false] at hfield
      rcases hfield with rfl | rfl | rfl <;>
        simp [Attempt.fields, hupdate, userInfo, List.lookup_cons, FieldValue.asString]

theorem Saved.profiled (h : Saved P s) {attempt : Attempt} {data : Fields} {email : String}
    (hx : ⟨.addDocument attempt data, some true⟩ ∈ s.requests)
    (hform : attempt.form.collection = "Users")
    (hemail : (data.lookup "email").bind FieldValue.asString = some email) :
    s.HasProfile email := by
  obtain ⟨added, hadded, hcollection, stamp, hdocument⟩ := h.added attempt data hx
  refine App.hasProfile_iff.mpr ⟨added, hadded, hcollection.trans hform, ?_, ?_⟩
  · rw [hdocument, Document.string?_accepted, hemail]
  · rw [hdocument]
    exact h.complete hx rfl hform stamp

/-- The profiles that can be decoded are those that were accepted. -/
theorem hasProfile_step (hsaved : Saved P s) (hstep : (appMachine P).step s e = .ok s')
    (email : String) :
    s'.HasProfile email ↔ s.HasProfile email ∨ email ∈ acceptedProfile s (.app e) := by
  rcases (PublishStep.of_step hstep).documents_cases with
    hsame | ⟨added, ⟨k, data, stamp, rfl, hk, hcollection, hdocument⟩, hmore, -, hid⟩
  · rw [App.hasProfile_congr hsame]
    suffices hnone : acceptedProfile s (.app e) = [] by simp [hnone]
    cases e with
    | succeed k stamp =>
        simp only [acceptedProfile]
        split
        · next attempt data hk =>
          split
          · next hfresh =>
            exfalso
            rw [step_succeed hk, Except.ok.injEq] at hstep
            rcases s.accept_addDocument_cases k attempt data stamp with heq | ⟨-, heq⟩
            · have hdocuments : (s.accept k (.addDocument attempt data) stamp).documents =
                  s.documents ++ [⟨attempt.form.collection, .accepted data stamp, attempt⟩] := by
                rw [App.accept, if_neg]
                rintro ⟨other, hother, hsameID⟩
                exact hfresh.2 other (hfresh.1 ▸ hother) hsameID
              rw [heq] at hdocuments
              simp at hdocuments
            · rw [← hstep, heq] at hsame
              simp at hsame
          · rfl
        · rfl
    | _ => rfl
  · rw [App.hasProfile_append hmore, acceptedProfile, hk]
    simp only [hdocument, Document.string?_accepted]
    by_cases husers : added.attempt.form.collection = "Users"
    · rw [if_pos ⟨husers, fun other hother => by
        rw [hcollection, husers] at hid
        have hne := hid other hother
        rwa [hdocument] at hne⟩, Option.mem_toList]
      have hcomplete := hsaved.complete (List.mem_of_getElem? hk) rfl husers stamp
      simp only [Document.string?_accepted] at hcomplete
      constructor
      · rintro (h | ⟨-, hemail, -⟩)
        · exact .inl h
        · exact .inr hemail
      · rintro (h | hemail)
        · exact .inl h
        · exact .inr ⟨hcollection.trans husers, hemail, hcomplete⟩
    · rw [if_neg fun h => husers h.1]
      simp [hcollection, husers]

private theorem hasProfile_arrive (s : App) (added : Added) (email : String) :
    (s.arrive added).HasProfile email ↔
      s.HasProfile email ∨ email ∈ acceptedProfile s (.arrive added) := by
  unfold App.arrive
  by_cases htaken : ∃ other ∈ s.collection added.collection,
      other.document.documentID = added.document.documentID
  · rw [if_pos htaken]
    suffices hnone : acceptedProfile s (.arrive added) = [] by simp [hnone]
    refine if_neg ?_
    rintro ⟨husers, hfresh, -⟩
    obtain ⟨other, hother, hsame⟩ := htaken
    exact hfresh other (husers ▸ hother) hsame
  · rw [if_neg htaken, App.hasProfile_append rfl]
    simp only [acceptedProfile]
    split
    · next haccepted =>
      rw [Option.mem_toList]
      exact or_congr_right ⟨fun h => h.2.1, fun h => ⟨haccepted.1, h, haccepted.2.2⟩⟩
    · next hrefused =>
      refine or_congr_right ⟨fun h => absurd ⟨h.1, ?_, h.2.2⟩ hrefused, fun h => by cases h⟩
      intro other hother hsame
      exact htaken ⟨other, h.1.symm ▸ hother, hsame⟩

theorem hasProfile_life {e : LifeEvent} (hsaved : Saved P s)
    (hstep : (lifeMachine P).step s e = .ok s') (email : String) :
    s'.HasProfile email ↔ s.HasProfile email ∨ email ∈ acceptedProfile s e := by
  cases e with
  | app e => exact hasProfile_step hsaved hstep email
  | relaunch =>
      cases hstep
      simp [App.hasProfile_iff, acceptedProfile, App.relaunch]
  | arrive added =>
      cases hstep
      exact hasProfile_arrive s added email

theorem liveScreens_step {Opens : Screen → ScreenKind → Prop} {p p' : Presentation presents}
    {self : Screen} (h : ChainStep Opens p p') (hlive : self ∈ liveScreens p'.chain) :
    self ∈ liveScreens p.chain ∨ self.id = p.fresh := by
  cases h with
  | stay heq => exact .inl (heq ▸ hlive)
  | push top kind htop hopens heq =>
      rw [heq] at hlive
      change self ∈ liveScreens (⟨p.fresh, kind⟩ :: p.chain) at hlive
      rw [liveScreens] at hlive
      split at hlive
      · rcases List.mem_cons.mp hlive with hself | hbelow
        · exact .inr (by rw [hself])
        · exact .inl hbelow
      · exact .inr (by rw [List.mem_singleton.mp hlive])
  | pop popped hchain htransient hfresh =>
      left
      rw [hchain]
      clear hchain
      induction popped with
      | nil => exact hlive
      | cons f popped ih =>
          rw [List.cons_append, liveScreens, if_pos (htransient f List.mem_cons_self)]
          exact List.mem_cons_of_mem f (ih fun g hg => htransient g (List.mem_cons_of_mem f hg))

theorem top_mem_liveScreens {self : Screen} (htop : s.ui.top = some self) :
    self ∈ liveScreens s.ui.screens.chain := by
  obtain ⟨below, hchain⟩ := List.head?_eq_some_iff.mp htop
  rw [hchain, liveScreens]
  split
  · exact List.mem_cons_self
  · exact List.mem_singleton_self self

theorem leadsToTabBar_addDocument {user : Option String} {attempt : Attempt} {data : Fields}
    {answer : Option Bool} :
    leadsToTabBar user ⟨.addDocument attempt data, answer⟩ = true ↔
      attempt.form.collection = "Users" ∧ answer ≠ some false ∧
        (data.lookup "email").bind FieldValue.asString ≠ user := by
  simp [leadsToTabBar, and_assoc]

/-- The completion that opens a tab bar belongs to a login, or to a profile form whose document
is there. -/
theorem opens_tabBar_cases (hsaved : Saved P s) (h : s.opens e = some .tabBar) :
    s.TabBarAhead s.currentUser ∨ s.Profiled := by
  obtain ⟨k, rfl⟩ := deliver_of_opens_tabBar h
  simp only [App.opens] at h
  split at h
  · next r ok hk =>
    split at h
    · next htop =>
      have hmem := List.mem_of_getElem? hk
      have hself := top_mem_liveScreens htop
      cases r with
      | signIn self credentials =>
          cases ok with
          | true => exact .inl (.inr ⟨_, hmem, hself, rfl⟩)
          | false => cases h
      | createUser tap => cases ok <;> cases h
      | signInAfterSignUp tap credentials => cases ok <;> cases h
      | putData attempt =>
          cases hform : attempt.form <;> cases ok <;> simp [Request.opens, hform] at h
      | downloadURL attempt => cases h
      | addDocument attempt data =>
          cases hform : attempt.form with
          | create form => cases ok <;> simp [Request.opens, hform] at h
          | update form =>
              have husers : attempt.form.collection = "Users" := by
                rw [hform]
                rfl
              cases ok with
              | false => simp [Request.opens, hform] at h
              | true =>
                  obtain ⟨ui, email, hdata⟩ := hsaved.fields _ hmem attempt data rfl
                  have hemail : (data.lookup "email").bind FieldValue.asString = some email := by
                    rw [hdata, attempt.fields_email]
                    rfl
                  by_cases huser : s.currentUser = some email
                  · exact .inr ⟨email, huser, hsaved.profiled hmem husers hemail⟩
                  · refine .inl (.inr ⟨_, hmem, hself, leadsToTabBar_addDocument.mpr ?_⟩)
                    exact ⟨husers, by simp, hemail ▸ Ne.symm huser⟩
    · cases h
  · cases h

private theorem pending_of_step {x : Pending Request}
    (heffect : Effect P s e s') (hx : x ∈ s'.requests)
    (hleads : leadsToTabBar s.currentUser x = true)
    (hlogin : ∀ k stamp, e = .succeed k stamp → s.signingIn k = none) :
    ∃ y ∈ s.requests, y.request = x.request ∧ leadsToTabBar s.currentUser y = true := by
  obtain ⟨r, answer⟩ := x
  cases r with
  | signIn self credentials =>
      cases origin_of_effect heffect hx with
      | kept hx => exact ⟨_, hx, rfl, hleads⟩
      | answered hr haccepted =>
          obtain ⟨k, stamp, hevent, hk⟩ := haccepted (by simpa [leadsToTabBar] using hleads)
          have hsigning := App.mem_signingIn.mpr ⟨_, hk, rfl⟩
          rw [hlogin k stamp hevent] at hsigning
          cases hsigning
      | tapped htop hkind => cases hleads
      | continued hr hself hcontroller => cases hleads
  | addDocument attempt data =>
      obtain ⟨husers, hanswer, hemail⟩ := leadsToTabBar_addDocument.mp hleads
      cases (PublishStep.of_effect heffect).arises hx (by simp [Request.attempt]) with
      | kept hx => exact ⟨_, hx, rfl, hleads⟩
      | answered hr hstored =>
          exact ⟨_, hr, rfl, leadsToTabBar_addDocument.mpr ⟨husers, by simp, hemail⟩⟩
      | written hlocated huser =>
          rw [attempt.fields_email, huser] at hemail
          exact absurd rfl hemail
  | _ => cases hleads

private theorem ahead_of_step (hplaced : Placed s) (hsaved : Saved P s)
    (hstep : (appMachine P).step s e = .ok s')
    (hlogin : ∀ k stamp, e = .succeed k stamp → s.signingIn k = none)
    (hahead : s'.TabBarAhead s.currentUser) : s.TabBarAhead s.currentUser ∨ s.Profiled := by
  rcases effect_of_step hstep with rfl | heffect
  · exact .inl hahead
  · rcases hahead with hlive | ⟨x, hx, hself, hleads⟩
    · rcases tabBarLive_of_step hplaced hstep hlive with hlive | hopens
      · exact .inl (.inl hlive)
      · exact opens_tabBar_cases hsaved hopens
    · obtain ⟨y, hy, hrequest, hleads⟩ := pending_of_step heffect hx hleads hlogin
      rcases liveScreens_step (chain_of_effect hplaced heffect) hself with hself | hfresh
      · exact .inl (.inr ⟨y, hy, by rw [hrequest]; exact hself, hleads⟩)
      · have hbelow := hplaced.below y hy
        rw [hrequest, hfresh] at hbelow
        exact absurd hbelow (Nat.lt_irrefl _)

/-- What holds between two events, `profiles` being the accounts whose profile was accepted. -/
structure ProfilesKept (P : Platform) (s : App × List String) : Prop where
  placed : Placed s.1
  saved : Saved P s.1
  accepted : ∀ email, s.1.HasProfile email ↔ email ∈ s.2
  ahead : s.1.TabBarAhead s.1.currentUser → s.1.Profiled

private theorem ahead_signedIn {profiles : List String} {k : Nat} {r : Request} {stamp : Stamp}
    {email : String} (h : ProfilesKept P (s, profiles))
    (hkeeps : KeepsProfiles (s, profiles) (.app (.succeed k stamp)))
    (hk : s.requests[k]? = some ⟨r, none⟩) (hr : r.signsIn = some email)
    (hahead : (s.accept k r stamp).TabBarAhead (some email)) : s.HasProfile email := by
  rcases hkeeps email (App.mem_signingIn.mpr ⟨r, hk, hr⟩) with hprofile | ⟨hlogsIn, hcalm⟩
  · exact (h.accepted email).mpr hprofile
  · have hbefore : s.TabBarAhead (some email) := by
      unfold App.TabBarAhead App.TabBarLive at hahead ⊢
      rw [accept_screens] at hahead
      refine hahead.imp_right ?_
      rintro ⟨x, hx, hself, hleads⟩
      rcases accept_requests hx with hx | rfl
      · exact ⟨x, hx, hself, hleads⟩
      · cases r with
        | signIn self credentials =>
            simp only [App.logsIn, hk, decide_eq_false_iff_not] at hlogsIn
            exact absurd hself hlogsIn
        | addDocument attempt data => cases hr
        | _ => cases hleads
    rcases hcalm with huser | hnone
    · obtain ⟨other, hother, hprofile⟩ := h.ahead (huser ▸ hbefore)
      obtain rfl : email = other := Option.some.inj (huser.symm.trans hother)
      exact hprofile
    · exact absurd hbefore hnone

private theorem not_ahead_signOut {self : Screen} (hplaced : Placed s)
    (htop : s.ui.top = some self) (hkind : self.kind = .tabBar) :
    ¬ ({ s with currentUser := none }.present self .login).TabBarAhead none := by
  have hpresents : presents self.kind .login = true := by
    rw [hkind]
    rfl
  have hchain : ({ s with currentUser := none }.present self .login).ui.screens.chain =
      ⟨s.ui.screens.fresh, .login⟩ :: s.ui.screens.chain :=
    Presentation.present_chain htop hpresents
  rintro (hlive | ⟨x, hx, hself, -⟩)
  · unfold App.TabBarLive at hlive
    rw [hchain] at hlive
    exact hlive rfl
  · rw [hchain] at hself
    have hid : x.request.self.id = s.ui.screens.fresh :=
      congrArg Frame.id (List.mem_singleton.mp hself)
    have hbelow := hplaced.below x hx
    omega

private theorem ahead_step {profiles : List String} (h : ProfilesKept P (s, profiles))
    (hkeeps : KeepsProfiles (s, profiles) (.app e))
    (hstep : (appMachine P).step s e = .ok s') (hahead : s'.TabBarAhead s'.currentUser) :
    s'.Profiled := by
  have hdocuments := (PublishStep.of_step hstep).documents_subset
  cases SessionStep.of_step hstep with
  | kept huser =>
      rw [huser] at hahead
      suffices hprofiled : s.Profiled from hprofiled.mono huser hdocuments
      by_cases hlogin : ∀ k stamp, e = .succeed k stamp → s.signingIn k = none
      · exact (ahead_of_step h.placed h.saved hstep hlogin hahead).elim h.ahead id
      · push Not at hlogin
        obtain ⟨k, stamp, rfl, hsigning⟩ := hlogin
        obtain ⟨email, hemail⟩ := Option.ne_none_iff_exists'.mp hsigning
        obtain ⟨r, hk, hr⟩ := App.mem_signingIn.mp hemail
        rw [step_succeed hk, Except.ok.injEq] at hstep
        subst hstep
        rw [App.accept_signsIn hr] at huser
        exact ⟨email, huser.symm, ahead_signedIn h hkeeps hk hr (huser ▸ hahead)⟩
  | signedIn k r stamp email hevent hk hr huser =>
      subst hevent
      rw [huser] at hahead
      rw [step_succeed hk, Except.ok.injEq] at hstep
      subst hstep
      exact ⟨email, huser, (ahead_signedIn h hkeeps hk hr hahead).mono hdocuments⟩
  | signedOut self hevent htop hkind hselected heq =>
      subst heq
      exact absurd hahead (not_ahead_signOut h.placed htop hkind)
  | dropped hevent heq =>
      subst hevent heq
      exact absurd hahead hkeeps

private theorem ahead_relaunch {profiles : List String} (h : ProfilesKept P (s, profiles))
    (hkeeps : KeepsProfiles (s, profiles) .relaunch)
    (hahead : s.relaunch.TabBarAhead s.currentUser) : s.relaunch.Profiled := by
  rcases hahead with hlive | ⟨x, hx, -⟩
  · have huser : s.currentUser ≠ none := by
      intro hnone
      simp only [App.TabBarLive, App.relaunch, hnone] at hlive
      exact hlive rfl
    obtain ⟨email, hemail⟩ := Option.ne_none_iff_exists'.mp huser
    have hprofile := (h.accepted email).mpr (hkeeps email hemail)
    exact ⟨email, hemail, hprofile.mono (List.Subset.refl _)⟩
  · cases hx

theorem profilesKept_step {t t' : App × List String} {e : LifeEvent} (h : ProfilesKept P t)
    (hkeeps : KeepsProfiles t e)
    (hstep : ((lifeMachine P).recording acceptedProfile).step t e = .ok t') :
    ProfilesKept P t' := by
  obtain ⟨s, profiles⟩ := t
  obtain ⟨s', profiles'⟩ := t'
  obtain ⟨hstep, hprofiles⟩ := Machine.step_recording hstep
  have haccepted (email : String) : s'.HasProfile email ↔ email ∈ profiles' := by
    rw [hasProfile_life h.saved hstep, h.accepted, show profiles' = _ from hprofiles,
      List.mem_append]
  cases e with
  | app e =>
      exact ⟨placed_step h.placed hstep, saved_step h.saved (PublishStep.of_step hstep), haccepted,
        ahead_step h hkeeps hstep⟩
  | relaunch =>
      cases hstep
      exact ⟨⟨by simp, by simp⟩, ⟨by simp, by simp⟩, haccepted, ahead_relaunch h hkeeps⟩
  | arrive added =>
      rcases step_arrive_cases hstep with rfl | rfl
      · exact ⟨h.placed, h.saved, haccepted, h.ahead⟩
      · refine ⟨⟨h.placed.below, h.placed.kinds⟩, ⟨h.saved.fields, ?_⟩, haccepted,
          fun hahead => (h.ahead hahead).mono rfl (List.subset_append_left _ _)⟩
        intro attempt data hx
        obtain ⟨other, hother, hdocument⟩ := h.saved.added attempt data hx
        exact ⟨other, List.mem_append_left _ hother, hdocument⟩

theorem profilesKept_launch : ProfilesKept P (.launch none, []) := by
  refine ⟨placed_launch none, ⟨by simp [App.launch], by simp [App.launch]⟩, ?_, ?_⟩
  · intro email
    simp [App.hasProfile_iff, App.launch]
  · rintro (hlive | ⟨x, hx, -⟩)
    · exact absurd rfl hlive
    · cases hx

/-- Closing screens and answering requests lead to a tab bar in view, in the same session, for
somebody without a profile. -/
def ShowsNoProfileLater (P : Platform) (s : App) : Prop :=
  (appMachine P).CanEnd (fun e => e.closes = true ∨ e.fromService = true)
    (fun outcome => ∃ s' self, outcome = .ok s' ∧ s'.currentUser = s.currentUser ∧
      s'.ui.top = some self ∧ self.kind = .tabBar ∧ ¬ s'.Profiled) s

private theorem presents_tabBar {self : Screen} (htop : s.ui.top = some self)
    (hpresents : presents self.kind .tabBar = true) :
    ∃ bar, (s.present self .tabBar).ui.top = some bar ∧ bar.kind = .tabBar := by
  have hchain : (s.present self .tabBar).ui.screens.chain =
      ⟨s.ui.screens.fresh, .tabBar⟩ :: s.ui.screens.chain :=
    Presentation.present_chain htop hpresents
  exact ⟨⟨s.ui.screens.fresh, .tabBar⟩, by rw [UI.top, Presentation.top, hchain]; rfl, rfl⟩

private theorem opens_of_login {self : Screen} {credentials : Credentials}
    (htop : s.ui.top = some self) (hkind : self.kind = .signIn) (hnot : ¬ s.Profiled)
    (hx : ⟨.signIn self credentials, some true⟩ ∈ s.requests) : ShowsNoProfileLater P s := by
  obtain ⟨j, hj⟩ := List.mem_iff_getElem?.mp hx
  obtain ⟨bar, hbar, hbarKind⟩ := presents_tabBar
    (s := { s with requests := s.requests.eraseIdx j }) htop (by rw [hkind]; rfl)
  exact .of_step (step_deliver hj) (.inr rfl)
    ⟨[], by simp, _, bar, rfl, rfl, hbar, hbarKind, hnot⟩

private theorem opens_of_added {attempt : Attempt} {data : Fields}
    (htop : s.ui.top = some attempt.self) (hkind : attempt.self.kind = .updateProfile)
    (hform : attempt.form.collection = "Users") (hnot : ¬ s.Profiled)
    (hx : ⟨.addDocument attempt data, some true⟩ ∈ s.requests) : ShowsNoProfileLater P s := by
  obtain ⟨j, hj⟩ := List.mem_iff_getElem?.mp hx
  obtain ⟨bar, hbar, hbarKind⟩ := presents_tabBar
    (s := { s with requests := s.requests.eraseIdx j }) htop (by rw [hkind]; rfl)
  have hadded : attempt.addedUI true s.ui = s.ui.present attempt.self .tabBar := by
    cases hupdate : attempt.form with
    | create form => simp [hupdate, Form.collection] at hform
    | update form => simp [Attempt.addedUI, hupdate]
  have hstep : (appMachine P).step s (.deliver j) =
      .ok ({ s with requests := s.requests.eraseIdx j }.present attempt.self .tabBar) := by
    rw [step_deliver hj, App.complete, attempt.added_eq, hadded]
    rfl
  exact .of_step hstep (.inr rfl) ⟨[], by simp, _, bar, rfl, rfl, hbar, hbarKind, hnot⟩

private theorem opens_of_document {attempt : Attempt} {data : Fields} {answer : Option Bool}
    (htop : s.ui.top = some attempt.self) (hkind : attempt.self.kind = .updateProfile)
    (hleads : leadsToTabBar s.currentUser ⟨.addDocument attempt data, answer⟩ = true)
    (hnot : ¬ s.Profiled) (hx : ⟨.addDocument attempt data, answer⟩ ∈ s.requests) :
    ShowsNoProfileLater P s := by
  obtain ⟨husers, hanswer, hother⟩ := leadsToTabBar_addDocument.mp hleads
  cases answer with
  | some ok =>
      cases ok with
      | false => exact absurd rfl hanswer
      | true => exact opens_of_added htop hkind husers hnot hx
  | none =>
      obtain ⟨j, hj⟩ := List.mem_iff_getElem?.mp hx
      obtain ⟨stamp, hfresh⟩ := exists_fresh_stamp s
      refine .of_step (step_succeed_addDocument hj hfresh) (.inr rfl)
        (opens_of_added htop hkind husers ?_
          (List.mem_of_getElem? (Pending.getElem?_settle hj _ true)))
      rintro ⟨email, hemail, hprofile⟩
      rcases (App.hasProfile_append rfl).mp hprofile with hprofile | ⟨-, hstring, -⟩
      · exact hnot ⟨email, hemail, hprofile⟩
      · rw [Document.string?_accepted] at hstring
        exact hother (hstring.trans (Eq.symm hemail))

private theorem showsNoProfileLater_of_ahead (hplaced : Placed s)
    (hahead : s.TabBarAhead s.currentUser) (hnot : ¬ s.Profiled) : ShowsNoProfileLater P s := by
  rcases hahead with hlive | ⟨⟨r, answer⟩, hx, hself, hleads⟩
  · obtain ⟨self, hself⟩ := Option.ne_none_iff_exists'.mp hlive
    refine ((closes_to_liveTab hself).of_allowed fun _ he => .inl he).mono ?_
    rintro outcome ⟨ui, rfl, htop, -⟩
    exact ⟨_, self, rfl, rfl, htop, liveTab_kind hself, hnot⟩
  · refine ((closes_to_liveScreen (P := P) hself).of_allowed fun _ he => .inl he).trans ?_
    rintro outcome ⟨ui, rfl, htop, -⟩
    have hkind := hplaced.kinds _ hx
    refine ⟨{ s with ui := ui }, rfl, ?_⟩
    cases r with
    | signIn self credentials =>
        obtain rfl : answer = some true := by simpa [leadsToTabBar] using hleads
        exact opens_of_login (s := { s with ui := ui }) htop hkind hnot hx
    | addDocument attempt data =>
        refine opens_of_document (s := { s with ui := ui }) htop ?_ hleads hnot hx
        obtain ⟨husers, -⟩ := leadsToTabBar_addDocument.mp hleads
        have hcontroller : attempt.self.kind = attempt.form.controller := hkind
        cases hupdate : attempt.form with
        | create form => simp [hupdate, Form.collection] at husers
        | update form => rw [hcontroller, hupdate]; rfl
    | _ => cases hleads

private theorem not_profiled_accept {k : Nat} {r : Request} {email : String} (stamp : Stamp)
    (hr : r.signsIn = some email) (hnot : ¬ s.HasProfile email) :
    ¬ (s.accept k r stamp).Profiled := by
  rintro ⟨other, hother, hprofile⟩
  obtain rfl : email = other :=
    Option.some.inj ((App.accept_signsIn hr stamp).symm.trans hother)
  apply hnot
  cases r with
  | signIn self credentials => exact hprofile
  | createUser tap => exact hprofile
  | signInAfterSignUp tap credentials => exact hprofile
  | _ => cases hr

private theorem accept_signsIn_requests {k : Nat} {r : Request} {email : String} (stamp : Stamp)
    (hr : r.signsIn = some email) :
    (s.accept k r stamp).requests = Pending.settle s.requests k r true := by
  cases r with
  | addDocument attempt data => cases hr
  | _ => rfl

private theorem ahead_accept {k : Nat} {r : Request} {stamp : Stamp} {email : String}
    (hk : s.requests[k]? = some ⟨r, none⟩) (hr : r.signsIn = some email)
    (h : s.logsIn k = true ∨ s.TabBarAhead (some email)) :
    (s.accept k r stamp).TabBarAhead (some email) := by
  unfold App.TabBarAhead App.TabBarLive
  rw [accept_screens, accept_signsIn_requests stamp hr]
  rcases h with hlogsIn | hlive | ⟨x, hx, hself, hleads⟩
  · cases r with
    | signIn self credentials =>
        simp only [App.logsIn, hk, decide_eq_true_eq] at hlogsIn
        exact .inr ⟨_, List.mem_of_getElem? (Pending.getElem?_settle hk _ true), hlogsIn, rfl⟩
    | _ => simp [App.logsIn, hk] at hlogsIn
  · exact .inl hlive
  · rcases Pending.mem_settle_or hk hx r true with rfl | hx
    · cases r with
      | addDocument attempt data => cases hr
      | _ => cases hleads
    · exact .inr ⟨x, hx, hself, hleads⟩

private theorem ahead_of_not_keeps {profiles : List String} {e : LifeEvent}
    (h : ProfilesKept P (s, profiles)) (hnot : ¬ KeepsProfiles (s, profiles) e) :
    ∃ s', (lifeMachine P).step s e = .ok s' ∧ Placed s' ∧ s'.TabBarAhead s'.currentUser ∧
      ¬ s'.Profiled := by
  cases e with
  | app e =>
      cases e with
      | succeed k stamp =>
          unfold KeepsProfiles at hnot
          push Not at hnot
          obtain ⟨email, hemail, hnew, hahead⟩ := hnot
          obtain ⟨r, hk, hr⟩ := App.mem_signingIn.mp hemail
          have hstep := step_succeed (P := P) hk stamp
          refine ⟨_, hstep, placed_step h.placed hstep, ?_,
            not_profiled_accept stamp hr fun hprofile => hnew ((h.accepted email).mp hprofile)⟩
          rw [App.accept_signsIn hr]
          refine ahead_accept hk hr ?_
          cases hlogsIn : s.logsIn k with
          | true => exact .inl rfl
          | false => exact .inr (hahead hlogsIn).2
      | dropUser =>
          refine ⟨_, rfl, ⟨h.placed.below, h.placed.kinds⟩, not_not.mp hnot, ?_⟩
          rintro ⟨email, hemail, -⟩
          cases hemail
      | _ => exact absurd trivial hnot
  | relaunch =>
      unfold KeepsProfiles at hnot
      push Not at hnot
      obtain ⟨email, huser, hnew⟩ := hnot
      refine ⟨_, rfl, ⟨by simp [App.relaunch], by simp [App.relaunch]⟩, .inl ?_, ?_⟩
      · simp only [App.TabBarLive, App.relaunch, show s.currentUser = some email from huser]
        exact Option.some_ne_none _
      · rintro ⟨other, hother, hprofile⟩
        obtain rfl : email = other := Option.some.inj (Eq.trans (Eq.symm huser) hother)
        exact hnew ((h.accepted email).mp (hprofile.mono (List.Subset.refl _)))
  | arrive added => exact absurd trivial hnot

/-- From its installation on, the app shows a tab bar to nobody without a profile, if until the
first profile of an account has been accepted nobody logs in as that account, no sign-up signs it
in while a tab bar is ahead, and the app does not start with it. Any step that breaks the condition
lets somebody without a profile see a tab bar. -/
theorem everyone_has_profile (P : Platform) (events : List LifeEvent) (s : App)
    (hkeeps : ((lifeMachine P).recording acceptedProfile).Meets KeepsProfiles (.launch none, [])
      events)
    (hrun : (lifeMachine P).run (.launch none) events = .ok s) :
    (∀ self, s.ui.top = some self → self.kind = .tabBar →
      ∃ email ∈ s.currentUser, s.HasProfile email) ∧
      ∃ profiles, ((lifeMachine P).recording acceptedProfile).run (.launch none, []) events =
          .ok (s, profiles) ∧
        ∀ e, ¬ KeepsProfiles (s, profiles) e →
          ∃ s', (lifeMachine P).step s e = .ok s' ∧ ShowsNoProfileLater P s' := by
  obtain ⟨profiles, hrecorded⟩ := Machine.run_recording acceptedProfile hrun []
  have hinv := Machine.run_induction_of_meets
    (fun _ _ _ h hc hstep => profilesKept_step (P := P) h hc hstep) profilesKept_launch hkeeps
    hrecorded
  constructor
  · intro self htop hkind
    refine hinv.ahead (.inl ?_)
    unfold App.TabBarLive
    rw [liveTab_of_top htop hkind]
    exact Option.some_ne_none _
  · refine ⟨profiles, hrecorded, ?_⟩
    intro e hnot
    obtain ⟨s', hstep, hplaced, hahead, hnobody⟩ := ahead_of_not_keeps hinv hnot
    exact ⟨s', hstep, showsNoProfileLater_of_ahead hplaced hahead hnobody⟩

/-- Sign up, create the profile, start the app again, sign out and log in. -/
private def signUpAndComeBack : List LifeEvent :=
  [.ui (.segue .signUp), .ui (.editCredentials "a@x" "pw"), .signUpBtn, .succeed 0 ⟨"", 0⟩,
    .deliver 0, .succeed 0 ⟨"", 0⟩, .deliver 0, .ui (.editProfileFields "ann" "reader"),
    .doneBtnPressed "A1", .succeed 0 ⟨"", 0⟩, .deliver 0, .succeed 0 ⟨"", 0⟩, .deliver 0,
    .succeed 0 ⟨"d1", 1⟩, .deliver 0].map LifeEvent.app ++ [.relaunch] ++
  [.openTab .profile, .signOut false, .ui (.segue .signIn), .ui (.editCredentials "a@x" "pw"),
    .loginBtnPressed, .succeed 0 ⟨"", 0⟩, .deliver 0].map LifeEvent.app

theorem everyone_has_profile_come_back :
    ∃ s self, (lifeMachine .firebase).run (.launch none) signUpAndComeBack = .ok s ∧
      s.ui.top = some self ∧ self.kind = .tabBar ∧ ∃ email ∈ s.currentUser, s.HasProfile email := by
  refine ⟨_, _, rfl, rfl, rfl, ?_⟩
  exact (everyone_has_profile .firebase signUpAndComeBack _ (by decide) rfl).1 _ rfl rfl

/-- The first profile form is cancelled, and then the account logs in, or the app starts again. -/
theorem tab_bar_without_profile :
    (∃ s, (lifeMachine .firebase).run (.launch none)
        ([.ui (.segue .signUp), .ui (.editCredentials "a@x" "pw"), .signUpBtn, .succeed 0 ⟨"", 0⟩,
          .deliver 0, .succeed 0 ⟨"", 0⟩, .deliver 0, .ui .cancelBtnPressed, .ui (.segue .signIn),
          .ui (.editCredentials "a@x" "pw"), .loginBtnPressed, .succeed 0 ⟨"", 0⟩,
          .deliver 0].map LifeEvent.app) = .ok s ∧
      (s.ui.topOf .tabBar).isSome ∧ s.currentUser = some "a@x" ∧ ¬ s.HasProfile "a@x") ∧
    ∃ s, (lifeMachine .firebase).run (.launch none)
        ([.ui (.segue .signUp), .ui (.editCredentials "a@x" "pw"), .signUpBtn, .succeed 0 ⟨"", 0⟩,
          .deliver 0, .succeed 0 ⟨"", 0⟩, .deliver 0].map LifeEvent.app ++ [.relaunch]) = .ok s ∧
      (s.ui.topOf .tabBar).isSome ∧ s.currentUser = some "a@x" ∧ ¬ s.HasProfile "a@x" := by
  constructor
  · exact ⟨_, rfl, rfl, rfl, by decide⟩
  · exact ⟨_, rfl, rfl, rfl, by decide⟩

end BookShelf
