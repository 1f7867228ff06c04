import BookShelf.Feed.Table

/-!
# Who a feed cell is attributed to

A recycled cell is captured by the listeners of all the rows it was ever bound to. The run
theorem says under which deliveries every bound cell still shows its own author.
-/

namespace BookShelf.FeedVC

/-- The username and picture of the prototype cell, never written yet. -/
def ShowsPlaceholder (cell : FeedCell) : Prop :=
  cell.userNameLabel = FeedCell.storyboard.userNameLabel ∧
    cell.userProfileImage = FeedCell.storyboard.userProfileImage

/-- The username and picture are those of some `Users` document of `author`. -/
def ShowsUserOf (seen : List Document) (author : String) (cell : FeedCell) : Prop :=
  ∃ document ∈ seen, document.get "email" = some (.string author) ∧
    (decodeUser document).map (fun user => (user.1, Picture.url user.2)) =
      some (cell.userNameLabel, cell.userProfileImage)

def ShowsAuthor (seen : List Document) (author : String) (cell : FeedCell) : Prop :=
  ShowsPlaceholder cell ∨ ShowsUserOf seen author cell

instance (cell : FeedCell) : Decidable (ShowsPlaceholder cell) :=
  inferInstanceAs (Decidable (_ ∧ _))

instance (seen : List Document) (author : String) (cell : FeedCell) :
    Decidable (ShowsUserOf seen author cell) :=
  inferInstanceAs (Decidable (∃ document ∈ seen, _ ∧ _))

instance (seen : List Document) (author : String) (cell : FeedCell) :
    Decidable (ShowsAuthor seen author cell) :=
  inferInstanceAs (Decidable (_ ∨ _))

/-- The listener number `l` has been called with a snapshot. -/
def Table.Delivered (t : Table) (l : Nat) : Prop :=
  ∃ listener, t.listeners[l]? = some listener ∧ listener.delivered = true

/-- Every bound cell whose newest listener has called back shows the author of its row. -/
def Attributed (t : Table) : Prop :=
  ∀ cell b, t.bound cell = some b → t.Delivered b.listener →
    ShowsAuthor t.usersSeen b.author (t.cells cell)

/-- A snapshot with a document that decodes must come from the author that its cell is bound
to, unless the cell still waits for its newest listener; when a snapshot without one reaches the
newest listener, nobody but listeners of that author may have been the last to write the cell. -/
def CellStillOurs (t : Table) : TableEvent → Prop
  | .users l (.snapshot collection) =>
      match t.listeners[l]? with
      | none => True
      | some listener =>
          match t.bound listener.cell with
          | none => True
          | some b =>
              match shownUser (whereField "email" listener.userEmail collection) with
              | some _ => b.author = listener.userEmail ∨
                  (b.listener ≠ l ∧ (t.listeners[b.listener]?).map (·.delivered) ≠ some true)
              | none => b.listener = l → ∀ writer ∈ t.writtenBy listener.cell, writer = b.author
  | _ => True

instance (t : Table) (event : TableEvent) : Decidable (CellStillOurs t event) := by
  unfold CellStillOurs
  repeat' split
  all_goals infer_instance

/-- The newest listener of a bound cell is the one of its author, and captured that cell. -/
def BoundToListener (t : Table) : Prop :=
  ∀ cell b, t.bound cell = some b →
    ∃ delivered, t.listeners[b.listener]? = some ⟨b.author, cell, delivered⟩

/-- What a cell shows of an author is what its last writer wrote. -/
def Signed (t : Table) : Prop :=
  ∀ cell,
    match t.writtenBy cell with
    | none => ShowsPlaceholder (t.cells cell)
    | some writer => ShowsUserOf t.usersSeen writer (t.cells cell)

theorem ShowsUserOf.mono {seen : List Document} {author : String} {cell : FeedCell}
    (h : ShowsUserOf seen author cell) (more : List Document) :
    ShowsUserOf (seen ++ more) author cell := by
  obtain ⟨document, hmem, h⟩ := h
  exact ⟨document, List.mem_append_left more hmem, h⟩

theorem ShowsAuthor.mono {seen : List Document} {author : String} {cell : FeedCell}
    (h : ShowsAuthor seen author cell) (more : List Document) :
    ShowsAuthor (seen ++ more) author cell :=
  h.imp_right fun hshows => hshows.mono more

/-- A document of the listener's query attributes the cell to the listener's email. -/
theorem showsUserOf_setUser {email : String} {collection : List Document}
    {user : String × String} (h : shownUser (whereField "email" email collection) = some user)
    (seen : List Document) (cell : FeedCell) :
    ShowsUserOf (seen ++ collection) email (setUser cell user) := by
  obtain ⟨document, hmem, hdecode⟩ := exists_of_shownUser h
  obtain ⟨hcoll, hemail⟩ := mem_whereField.mp hmem
  refine ⟨document, List.mem_append_right seen hcoll, hemail, ?_⟩
  rw [hdecode]
  rfl

theorem Signed.showsAuthor {t : Table} (h : Signed t) {cell : Nat} {author : String}
    (hwriter : ∀ writer ∈ t.writtenBy cell, writer = author) :
    ShowsAuthor t.usersSeen author (t.cells cell) := by
  have hcell := h cell
  cases hwritten : t.writtenBy cell with
  | none =>
      simp only [hwritten] at hcell
      exact .inl hcell
  | some writer =>
      simp only [hwritten] at hcell
      exact .inr (hwriter writer hwritten ▸ hcell)

theorem Signed.of_frame {t t' : Table} (h : Signed t) (hwritten : t'.writtenBy = t.writtenBy)
    (hseen : t'.usersSeen = t.usersSeen)
    (hcells : ∀ cell, (t'.cells cell).userNameLabel = (t.cells cell).userNameLabel ∧
      (t'.cells cell).userProfileImage = (t.cells cell).userProfileImage) : Signed t' := by
  intro cell
  have hcell := h cell
  obtain ⟨hname, hpicture⟩ := hcells cell
  rw [hwritten, hseen]
  cases hwriter : t.writtenBy cell with
  | none =>
      simp only [hwriter] at hcell ⊢
      rwa [ShowsPlaceholder, hname, hpicture]
  | some writer =>
      simp only [hwriter] at hcell ⊢
      rwa [ShowsUserOf, hname, hpicture]

private theorem posts_keeps {t : Table} (event : SnapshotEvent) (hb : BoundToListener t)
    (ha : Attributed t) : BoundToListener (t.posts event) ∧ Attributed (t.posts event) := by
  by_cases hreload : (getDatas t.list event).reloads = t.list.reloads
  · have hbound : (t.posts event).bound = t.bound := if_pos hreload
    constructor
    · intro cell b h
      exact hb cell b (hbound ▸ h)
    · intro cell b h hd
      exact ha cell b (hbound ▸ h) hd
  · have hbound : (t.posts event).bound = fun _ => none := if_neg hreload
    constructor <;> intro cell b h <;> simp [hbound] at h

private theorem cellForRowAt_keeps {t t' : Table} {cell row : Nat} (hb : BoundToListener t)
    (hs : Signed t) (ha : Attributed t) (hstep : t.cellForRowAt cell row = .ok t') :
    BoundToListener t' ∧ Signed t' ∧ Attributed t' := by
  unfold Table.cellForRowAt at hstep
  cases hrow : t.list.postArray[row]? with
  | none => simp [hrow] at hstep
  | some post =>
      simp only [hrow, Except.ok.injEq] at hstep
      subst hstep
      have hold (l : Nat) (listener : UsersListener) (h : t.listeners[l]? = some listener) :
          (t.listeners ++ [⟨post.email, cell, false⟩])[l]? = some listener := by
        rw [List.getElem?_append_left (List.getElem?_eq_some_iff.mp h).1]
        exact h
      refine ⟨?_, hs.of_frame rfl rfl ?_, ?_⟩
      · intro other b h
        by_cases hother : other = cell
        · subst hother
          simp only [Function.update_self, Option.some.injEq] at h
          subst h
          exact ⟨false, by simp⟩
        · simp only [Function.update_of_ne hother] at h
          obtain ⟨delivered, hl⟩ := hb other b h
          exact ⟨delivered, hold _ _ hl⟩
      · intro other
        by_cases hother : other = cell
        · subst hother
          simp only [Function.update_self, and_self]
        · simp only [Function.update_of_ne hother, and_self]
      · intro other b h hd
        by_cases hother : other = cell
        · subst hother
          simp only [Function.update_self, Option.some.injEq] at h
          subst h
          obtain ⟨listener, hl, hdelivered⟩ := hd
          simp only [List.getElem?_concat_length, Option.some.injEq] at hl
          simp [← hl] at hdelivered
        · simp only [Function.update_of_ne hother] at h
          simp only [Function.update_of_ne hother]
          obtain ⟨delivered, hl⟩ := hb other b h
          obtain ⟨listener, hl', hdelivered⟩ := hd
          rw [hold _ _ hl] at hl'
          exact ha other b h ⟨_, hl, (Option.some.inj hl') ▸ hdelivered⟩

section

variable {t : Table} {l : Nat} {listener : UsersListener} {collection : List Document}

private theorem users_snapshot (hl : t.listeners[l]? = some listener) :
    t.users l (.snapshot collection) =
      { t with
        cells := Function.update t.cells listener.cell
          ((shownUser (whereField "email" listener.userEmail collection)).elim
            (t.cells listener.cell) (setUser (t.cells listener.cell)))
        listeners := t.listeners.set l { listener with delivered := true }
        usersSeen := t.usersSeen ++ collection
        writtenBy :=
          if (shownUser (whereField "email" listener.userEmail collection)).isSome then
            Function.update t.writtenBy listener.cell (some listener.userEmail)
          else t.writtenBy } := by
  simp only [Table.users, hl, ofQuery, getUserInfo_snapshot]

private theorem users_snapshot_listeners (hl : t.listeners[l]? = some listener) {k : Nat} :
    (t.users l (.snapshot collection)).listeners[k]? =
      if k = l then some { listener with delivered := true } else t.listeners[k]? := by
  rw [users_snapshot hl]
  by_cases hk : k = l
  · subst hk
    rw [if_pos rfl]
    exact List.getElem?_set_self (List.getElem?_eq_some_iff.mp hl).1
  · rw [if_neg hk]
    exact List.getElem?_set_ne (Ne.symm hk)

private theorem boundToListener_users (hl : t.listeners[l]? = some listener)
    (hb : BoundToListener t) : BoundToListener (t.users l (.snapshot collection)) := by
  intro cell b h
  rw [users_snapshot hl] at h
  obtain ⟨delivered, hbl⟩ := hb cell b h
  rw [users_snapshot_listeners hl]
  split
  · next hk =>
    rw [hk, hl] at hbl
    rw [Option.some.inj hbl]
    exact ⟨true, rfl⟩
  · exact ⟨delivered, hbl⟩

private theorem signed_users (hl : t.listeners[l]? = some listener) (hs : Signed t) :
    Signed (t.users l (.snapshot collection)) := by
  intro cell
  have hcell := hs cell
  rw [users_snapshot hl]
  cases hshown : shownUser (whereField "email" listener.userEmail collection) with
  | none =>
      simp only [Option.isSome_none, Bool.false_eq_true, if_false, Option.elim_none,
        Function.update_eq_self]
      cases hwriter : t.writtenBy cell with
      | none =>
          simp only [hwriter] at hcell
          exact hcell
      | some writer =>
          simp only [hwriter] at hcell
          exact hcell.mono collection
  | some user =>
      simp only [Option.isSome_some, if_true, Option.elim_some]
      by_cases heq : cell = listener.cell
      · subst heq
        rw [Function.update_self, Function.update_self]
        exact showsUserOf_setUser hshown _ _
      · rw [Function.update_of_ne heq, Function.update_of_ne heq]
        cases hwriter : t.writtenBy cell with
        | none =>
            simp only [hwriter] at hcell
            exact hcell
        | some writer =>
            simp only [hwriter] at hcell
            exact hcell.mono collection

private theorem attributed_users (hl : t.listeners[l]? = some listener) (hb : BoundToListener t)
    (hs : Signed t) (ha : Attributed t)
    (hours : CellStillOurs t (.users l (.snapshot collection))) :
    Attributed (t.users l (.snapshot collection)) := by
  intro cell b h hd
  obtain ⟨newest, hnewest, hdelivered⟩ := hd
  rw [users_snapshot_listeners hl] at hnewest
  rw [users_snapshot hl] at h ⊢
  change t.bound cell = some b at h
  obtain ⟨delivered, hbl⟩ := hb cell b h
  by_cases hcell : cell = listener.cell
  · subst hcell
    simp only [CellStillOurs, hl, h] at hours
    simp only [Function.update_self]
    cases hshown : shownUser (whereField "email" listener.userEmail collection) with
    | some user =>
        simp only [hshown] at hours
        rcases hours with hauthor | ⟨hne, hsilent⟩
        · rw [hauthor]
          exact .inr (showsUserOf_setUser hshown _ _)
        · rw [if_neg hne] at hnewest
          simp [hnewest, hdelivered] at hsilent
    | none =>
        simp only [hshown] at hours
        apply ShowsAuthor.mono
        by_cases hk : b.listener = l
        · exact hs.showsAuthor (hours hk)
        · rw [if_neg hk] at hnewest
          exact ha listener.cell b h ⟨newest, hnewest, hdelivered⟩
  · simp only [Function.update_of_ne hcell]
    apply ShowsAuthor.mono
    have hk : b.listener ≠ l := by
      intro hk
      rw [hk, hl] at hbl
      exact hcell (by simp [Option.some.inj hbl])
    rw [if_neg hk] at hnewest
    exact ha cell b h ⟨newest, hnewest, hdelivered⟩

end

private theorem users_quiet {t : Table} {l : Nat} {event : SnapshotEvent}
    (hevent : event = .error ∨ event = .nilSnapshot) : t.users l event = t := by
  unfold Table.users
  cases t.listeners[l]? with
  | none => rfl
  | some listener => rcases hevent with rfl | rfl <;> simp [ofQuery, getUserInfo]

/-- What holds of the table as long as the condition is met. -/
structure Recorded (t : Table) : Prop where
  bound : BoundToListener t
  signed : Signed t
  attributed : Attributed t

/-- One step of the table keeps the attribution. -/
theorem recorded_step {t t' : Table} {event : TableEvent} (h : Recorded t)
    (hours : CellStillOurs t event) (hstep : tableMachine.step t event = .ok t') : Recorded t' := by
  cases event with
  | posts event =>
      obtain rfl : t.posts event = t' := by simpa [tableMachine] using hstep
      obtain ⟨hbound, hattributed⟩ := posts_keeps event h.bound h.attributed
      exact ⟨hbound, h.signed.of_frame rfl rfl fun cell => ⟨rfl, rfl⟩, hattributed⟩
  | cellForRowAt cell row =>
      obtain ⟨hbound, hsigned, hattributed⟩ :=
        cellForRowAt_keeps h.bound h.signed h.attributed hstep
      exact ⟨hbound, hsigned, hattributed⟩
  | users l event =>
      obtain rfl : t.users l event = t' := by simpa [tableMachine] using hstep
      cases event with
      | error => rwa [users_quiet (.inl rfl)]
      | nilSnapshot => rwa [users_quiet (.inr rfl)]
      | snapshot collection =>
          cases hl : t.listeners[l]? with
          | none => rwa [Table.users, hl]
          | some listener =>
              exact ⟨boundToListener_users hl h.bound, signed_users hl h.signed,
                attributed_users hl h.bound h.signed h.attributed hours⟩

theorem recorded_initial : Recorded .initial := by
  refine ⟨?_, ?_, ?_⟩
  · intro cell b h
    simp [Table.initial] at h
  · intro cell
    exact ⟨rfl, rfl⟩
  · intro cell b h
    simp [Table.initial] at h

/-- Documents of two accounts that a feed cell cannot tell apart. -/
def Lookalikes (seen : List Document) : Prop :=
  ∃ d ∈ seen, ∃ d' ∈ seen, d.get "email" ≠ d'.get "email" ∧
    ∃ user, decodeUser d = some user ∧ decodeUser d' = some user

private theorem lookalikes_of_shown {seen : List Document} {writer author : String}
    {cell : FeedCell} (hne : writer ≠ author) (hwriter : ShowsUserOf seen writer cell)
    (hauthor : ShowsAuthor seen author cell) : Lookalikes seen := by
  obtain ⟨d, hd, hemail, hdecode⟩ := hwriter
  obtain ⟨user, huser, hshown⟩ := Option.map_eq_some_iff.mp hdecode
  obtain ⟨hname, hpicture⟩ := Prod.mk.inj hshown
  rcases hauthor with ⟨-, hasset⟩ | ⟨d', hd', hemail', hdecode'⟩
  · rw [← hpicture] at hasset
    cases hasset
  · obtain ⟨user', huser', hshown'⟩ := Option.map_eq_some_iff.mp hdecode'
    obtain ⟨hname', hpicture'⟩ := Prod.mk.inj hshown'
    refine ⟨d, hd, d', hd', ?_, user, huser, ?_⟩
    · rw [hemail, hemail']
      simpa using hne
    · rw [huser']
      exact congrArg some (Prod.ext (hname'.trans hname.symm)
        (Picture.url.inj (hpicture'.trans hpicture.symm)))

private theorem lookalikes_of_not_ours {t : Table} {l : Nat} {collection : List Document}
    (hb : BoundToListener t) (hs : Signed t)
    (hnot : ¬ CellStillOurs t (.users l (.snapshot collection)))
    (h : Attributed (t.users l (.snapshot collection))) :
    Lookalikes (t.users l (.snapshot collection)).usersSeen := by
  cases hl : t.listeners[l]? with
  | none => simp [CellStillOurs, hl] at hnot
  | some listener =>
      cases hbound : t.bound listener.cell with
      | none => simp [CellStillOurs, hl, hbound] at hnot
      | some b =>
          obtain ⟨delivered, hnewest⟩ := hb listener.cell b hbound
          have hauthor (hk : b.listener = l) : b.author = listener.userEmail := by
            rw [hk, hl] at hnewest
            rw [Option.some.inj hnewest]
          have hcell := h listener.cell b (by rw [users_snapshot hl]; exact hbound)
          simp only [Table.Delivered, users_snapshot_listeners hl] at hcell
          have hsigned : Signed (t.users l (.snapshot collection)) := signed_users hl hs
          have hsigned := hsigned listener.cell
          rw [users_snapshot hl] at hcell hsigned ⊢
          simp only [Function.update_self] at hcell hsigned
          simp only [CellStillOurs, hl, hbound] at hnot
          cases hshown : shownUser (whereField "email" listener.userEmail collection) with
          | some user =>
              simp only [hshown, not_or, not_and, not_not] at hnot
              obtain ⟨hother, hdelivered⟩ := hnot
              have hne : b.listener ≠ l := fun hk => hother (hauthor hk)
              obtain ⟨newest, hgot, hcalled⟩ := Option.map_eq_some_iff.mp (hdelivered hne)
              have hshows := hcell ⟨newest, by rw [if_neg hne]; exact hgot, hcalled⟩
              simp only [hshown, Option.isSome_some, if_true, Function.update_self] at hsigned
              rw [hshown] at hshows
              exact lookalikes_of_shown (Ne.symm hother) hsigned hshows
          | none =>
              simp only [hshown, Classical.not_imp, not_forall] at hnot
              obtain ⟨hk, writer, hwriter, hother⟩ := hnot
              have hshows := hcell ⟨{ listener with delivered := true }, if_pos hk, rfl⟩
              simp only [hshown, Option.isSome_none, Bool.false_eq_true, if_false,
                Option.mem_def.mp hwriter] at hsigned
              rw [hshown] at hshows
              exact lookalikes_of_shown hother hsigned hshows

/-- In a run whose deliveries all find their cell as `CellStillOurs` asks, every bound cell
shows its own author. After any other delivery it does not, unless two accounts look alike. -/
theorem cells_show_their_author (events : List TableEvent) (t : Table)
    (hours : tableMachine.Meets CellStillOurs .initial events)
    (hrun : tableMachine.run .initial events = .ok t) :
    Attributed t ∧ ∀ event, ¬ CellStillOurs t event →
      ∃ t', tableMachine.step t event = .ok t' ∧ (Attributed t' → Lookalikes t'.usersSeen) := by
  have hinv := Machine.run_induction_of_meets
    (fun _ _ _ h hc hstep => recorded_step h hc hstep) recorded_initial hours hrun
  refine ⟨hinv.attributed, ?_⟩
  intro event hnot
  cases event with
  | posts event => exact absurd trivial hnot
  | cellForRowAt cell row => exact absurd trivial hnot
  | users l event =>
      cases event with
      | error => exact absurd trivial hnot
      | nilSnapshot => exact absurd trivial hnot
      | snapshot collection =>
          exact ⟨_, rfl, lookalikes_of_not_ours hinv.bound hinv.signed hnot⟩

private def twoPosts : List Document :=
  [⟨"p1", [("imageUrl", .string "u1"), ("caption", .string "one"), ("email", .string "a@x")]⟩,
    ⟨"p2", [("imageUrl", .string "u2"), ("caption", .string "two"), ("email", .string "b@x")]⟩]

private def twoUsers : List Document :=
  [⟨"d1", [("profileImageURL", .string "pa"), ("username", .string "ann"),
      ("email", .string "a@x")]⟩,
    ⟨"d2", [("profileImageURL", .string "pb"), ("username", .string "bob"),
      ("email", .string "b@x")]⟩]

private def twoRows : List TableEvent :=
  [.posts (.snapshot twoPosts), .cellForRowAt 0 0, .users 0 (.snapshot twoUsers),
    .cellForRowAt 1 1, .users 1 (.snapshot twoUsers)]

theorem cells_show_their_author_two_rows :
    ∃ t, tableMachine.run .initial twoRows = .ok t ∧ Attributed t :=
  ⟨_, rfl, (cells_show_their_author twoRows _ (by decide) rfl).1⟩

/-- The cell goes from the row of `a@x` to the row of `b@x`; then the listener of the first row
calls back once more. -/
theorem recycled_cell_shows_previous_author :
    ∃ t, tableMachine.run .initial [.posts (.snapshot twoPosts), .cellForRowAt 0 0,
        .cellForRowAt 0 1, .users 1 (.snapshot twoUsers), .users 0 (.snapshot twoUsers)] = .ok t ∧
      t.bound 0 = some ⟨"b@x", 1⟩ ∧ (t.cells 0).userNameLabel = "ann" ∧ ¬ Attributed t := by
  refine ⟨_, rfl, rfl, rfl, ?_⟩
  intro h
  have hshows := h 0 ⟨"b@x", 1⟩ rfl ⟨_, rfl, rfl⟩
  revert hshows
  decide

end BookShelf.FeedVC
