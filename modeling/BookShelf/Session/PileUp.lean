import BookShelf.App.Firebase
import BookShelf.Session.Segues

/-!
# Screens that come back instead of closing

The storyboard is a graph with cycles, and every one of its segues presents a new screen. The
chain is free of repetitions just as long as none of the segues that close a cycle is taken.
-/

namespace BookShelf

/-- The segue from the topmost screen closes a cycle of the storyboard. What decides is the
screen below the topmost one, or the root, which is `login` in an app launched without a
session and `tabBar` otherwise. -/
def LeadsBack : List ScreenKind → ScreenKind → Prop
  -- the back arrows
  | .signIn :: _, .login | .signUp :: _, .login => True
  | .signIn :: below, .signUp => below.head? = some .signUp
  | .signUp :: below, .signIn => below.head? = some .signIn
  -- toTabVC and toMain
  | .signIn :: below, .tabBar => below.getLast? = some .tabBar
  | .updateProfile :: below, .tabBar =>
      below.head? = some .tabBar ∨ below.getLast? = some .tabBar
  -- toUpdate and toExit
  | .tabBar :: below, .updateProfile => below.head? = some .updateProfile
  | .tabBar :: below, .login => below.getLast? = some .login
  | _, _ => False

instance (kinds : List ScreenKind) (kind : ScreenKind) : Decidable (LeadsBack kinds kind) := by
  unfold LeadsBack
  split <;> infer_instance

def TakesCycle (s : App) (e : Event) : Prop :=
  ∃ kind ∈ s.opens e, LeadsBack s.ui.kinds kind

/-- No screen is in the chain twice: one tab bar, and at most as many screens as there are. -/
structure Uncluttered (s : App) : Prop where
  once : s.ui.kinds.Nodup
  tabBars : s.ui.kinds.count .tabBar ≤ 1
  bounded : s.ui.kinds.length ≤ 8

/-- A chain of kinds that the storyboard allows, over one of the two roots. -/
structure Stacked (kinds : List ScreenKind) : Prop where
  linked : kinds.IsChain fun upper lower => presents lower upper = true
  root : kinds.getLast? = some .login ∨ kinds.getLast? = some .tabBar

/-- The ways from `login` to the topmost one of the screens that need no account. -/
def entrances : List (List ScreenKind) :=
  [[.login], [.signIn, .login], [.signUp, .login], [.signIn, .signUp, .login],
    [.signUp, .signIn, .login]]

theorem mem_entrances {way : List ScreenKind} :
    way ∈ entrances ↔ way = [.login] ∨ way = [.signIn, .login] ∨ way = [.signUp, .login] ∨
      way = [.signIn, .signUp, .login] ∨ way = [.signUp, .signIn, .login] := by
  simp [entrances]

namespace Stacked

variable {kind : ScreenKind} {below : List ScreenKind}

theorem below_cons {upper lower : ScreenKind} (h : Stacked (upper :: lower :: below)) :
    presents lower upper = true ∧ Stacked (lower :: below) := by
  obtain ⟨hlinked, hroot⟩ := h
  rw [List.isChain_cons_cons] at hlinked
  rw [List.getLast?_cons_cons] at hroot
  exact ⟨hlinked.1, hlinked.2, hroot⟩

theorem root_of_singleton (h : Stacked [kind]) : kind = .login ∨ kind = .tabBar := by
  simpa using h.root

theorem login_mem (h : Stacked (kind :: below)) (hkind : kind = .signIn ∨ kind = .signUp) :
    .login ∈ below := by
  induction below generalizing kind with
  | nil => rcases hkind with rfl | rfl <;> simpa using h.root_of_singleton
  | cons lower below ih =>
      obtain ⟨hpresents, hbelow⟩ := h.below_cons
      cases lower with
      | login => exact List.mem_cons_self
      | signIn => exact List.mem_cons_of_mem _ (ih hbelow (.inl rfl))
      | signUp => exact List.mem_cons_of_mem _ (ih hbelow (.inr rfl))
      | _ => rcases hkind with rfl | rfl <;> cases hpresents

theorem root_mem_below (h : Stacked (kind :: below)) (hbelow : below ≠ []) :
    .login ∈ below ∨ .tabBar ∈ below := by
  have hroot := h.root
  rw [List.getLast?_cons_of_ne_nil hbelow] at hroot
  exact hroot.imp List.mem_of_getLast? List.mem_of_getLast?

/-- Without a repetition, below `login` there is at most the tab bar of the launch. -/
theorem below_login (h : Stacked (.login :: below)) (hnodup : (.login :: below).Nodup) :
    below = [] ∨ below = [.tabBar] := by
  rw [List.nodup_cons] at hnodup
  cases below with
  | nil => exact .inl rfl
  | cons lower below =>
      obtain ⟨hpresents, hbelow⟩ := h.below_cons
      have hlogin (hkind : lower = .signIn ∨ lower = .signUp) : False :=
        hnodup.1 (List.mem_cons_of_mem _ (hbelow.login_mem hkind))
      cases lower with
      | signIn => exact (hlogin (.inl rfl)).elim
      | signUp => exact (hlogin (.inr rfl)).elim
      | tabBar =>
          right
          by_contra hne
          have hroot := hbelow.root_mem_below (by simpa using hne)
          simp only [List.mem_cons, List.nodup_cons, not_or] at hnodup
          exact hroot.elim hnodup.1.2 hnodup.2.1
      | _ => cases hpresents

/-- Without a repetition, `signIn` and `signUp` are reached from `login` by their own segues. -/
theorem entrance (h : Stacked (kind :: below)) (hnodup : (kind :: below).Nodup)
    (hkind : kind = .login ∨ kind = .signIn ∨ kind = .signUp) :
    ∃ way ∈ entrances, kind :: below = way ∨ kind :: below = way ++ [.tabBar] := by
  induction below generalizing kind with
  | nil =>
      obtain rfl : kind = .login := by
        rcases h.root_of_singleton with rfl | rfl <;> simp_all
      exact ⟨[.login], by decide, .inl rfl⟩
  | cons lower below ih =>
      obtain ⟨hpresents, hbelow⟩ := h.below_cons
      by_cases hlogin : kind = .login
      · subst hlogin
        rcases h.below_login hnodup with hnil | htab
        · cases hnil
        · exact ⟨[.login], by decide, .inr (by rw [htab]; rfl)⟩
      · have hlower : lower = .login ∨ lower = .signIn ∨ lower = .signUp := by
          rcases hkind.resolve_left hlogin with rfl | rfl <;> cases lower <;> simp_all [presents]
        obtain ⟨way, hway, hchain⟩ := ih hbelow hnodup.of_cons hlower
        have hfresh : kind ∉ way := by
          rw [List.nodup_cons] at hnodup
          rcases hchain with heq | heq <;> rw [heq] at hnodup
          · exact hnodup.1
          · exact fun hmem => hnodup.1 (List.mem_append_left _ hmem)
        have hextended : kind :: way ∈ entrances := by
          rcases hkind.resolve_left hlogin with rfl | rfl <;>
            rcases mem_entrances.mp hway with rfl | rfl | rfl | rfl | rfl <;>
              simp [entrances] at hfresh ⊢
        refine ⟨kind :: way, hextended, ?_⟩
        rcases hchain with heq | heq <;> rw [heq]
        · exact .inl rfl
        · exact .inr rfl

/-- Without a repetition, a tab bar is the root, or it was opened by a login or by the first
profile form. -/
theorem below_tabBar (h : Stacked (.tabBar :: below)) (hnodup : (.tabBar :: below).Nodup) :
    below = [] ∨ ∃ way ∈ entrances, below = way ∨ below = .updateProfile :: way := by
  rw [List.nodup_cons] at hnodup
  have hentrance {lower : ScreenKind} {rest : List ScreenKind} (hrest : Stacked (lower :: rest))
      (hsub : (lower :: rest).Nodup) (hout : .tabBar ∉ lower :: rest)
      (hlower : lower = .login ∨ lower = .signIn ∨ lower = .signUp) :
      lower :: rest ∈ entrances := by
    obtain ⟨way, hway, heq | heq⟩ := hrest.entrance hsub hlower
    · rwa [heq]
    · rw [heq] at hout
      exact absurd (List.mem_append_right way List.mem_cons_self) hout
  cases below with
  | nil => exact .inl rfl
  | cons lower below =>
      right
      obtain ⟨hpresents, hbelow⟩ := h.below_cons
      cases lower with
      | signIn => exact ⟨_, hentrance hbelow hnodup.2 hnodup.1 (.inr (.inl rfl)), .inl rfl⟩
      | updateProfile =>
          cases below with
          | nil => simpa using hbelow.root_of_singleton
          | cons opener below =>
              obtain ⟨hopens, hopener⟩ := hbelow.below_cons
              have hout := fun hmem => hnodup.1 (List.mem_cons_of_mem _ hmem)
              cases opener with
              | signUp =>
                  exact ⟨_, hentrance hopener hnodup.2.of_cons hout (.inr (.inr rfl)), .inr rfl⟩
              | tabBar => exact absurd List.mem_cons_self hout
              | _ => cases hopens
      | _ => cases hpresents

theorem not_mem_of_presents_nothing {next : ScreenKind} (h : Stacked (kind :: below))
    (hnext : ∀ other, presents next other = false) (hkind : kind ≠ next) :
    next ∉ kind :: below := by
  induction below generalizing kind with
  | nil => simpa using hkind.symm
  | cons lower below ih =>
      obtain ⟨hpresents, hbelow⟩ := h.below_cons
      have hlower : lower ≠ next := by
        rintro rfl
        simp [hnext] at hpresents
      simpa [hkind.symm] using ih hbelow hlower

private theorem entered_iff {next : ScreenKind} (hpresents : presents kind next = true)
    (halert : next ≠ .alert) (h : Stacked (kind :: below)) (hnodup : (kind :: below).Nodup)
    (hkind : kind = .login ∨ kind = .signIn ∨ kind = .signUp) :
    next ∈ kind :: below ↔ LeadsBack (kind :: below) next := by
  obtain ⟨way, hway, hchain⟩ := h.entrance hnodup hkind
  rcases mem_entrances.mp hway with rfl | rfl | rfl | rfl | rfl <;> rcases hchain with heq | heq <;>
    cases heq <;> cases next <;> simp_all [presents, LeadsBack]

private theorem tabBar_iff {next : ScreenKind} (hpresents : presents .tabBar next = true)
    (halert : next ≠ .alert) (h : Stacked (.tabBar :: below)) (hnodup : (.tabBar :: below).Nodup) :
    next ∈ .tabBar :: below ↔ LeadsBack (.tabBar :: below) next := by
  rcases h.below_tabBar hnodup with rfl | ⟨way, hway, hchain⟩
  · cases next <;> simp_all [presents, LeadsBack]
  · rcases mem_entrances.mp hway with rfl | rfl | rfl | rfl | rfl <;>
      rcases hchain with rfl | rfl <;> cases next <;> simp_all [presents, LeadsBack]

private theorem updateProfile_iff (h : Stacked (.updateProfile :: below))
    (hnodup : (.updateProfile :: below).Nodup) :
    .tabBar ∈ .updateProfile :: below ↔ LeadsBack (.updateProfile :: below) .tabBar := by
  cases below with
  | nil => simpa using h.root_of_singleton
  | cons opener below =>
      obtain ⟨hopens, hopener⟩ := h.below_cons
      cases opener with
      | tabBar => simp [LeadsBack]
      | signUp =>
          obtain ⟨way, hway, hchain⟩ := hopener.entrance hnodup.of_cons (.inr (.inr rfl))
          rcases mem_entrances.mp hway with rfl | rfl | rfl | rfl | rfl <;>
            rcases hchain with heq | heq <;> cases heq <;> simp [LeadsBack]
      | _ => cases hopens

/-- A segue from the topmost screen leads to a screen of the chain just if it closes a cycle. -/
theorem mem_iff_leadsBack {next : ScreenKind} (h : Stacked (next :: kind :: below))
    (hnodup : (kind :: below).Nodup) :
    next ∈ kind :: below ↔ LeadsBack (kind :: below) next := by
  obtain ⟨hpresents, hchain⟩ := h.below_cons
  by_cases hmodal : next = .alert ∨ next = .imagePicker
  · have hout : next ∉ kind :: below := by
      apply hchain.not_mem_of_presents_nothing
      · intro other
        rcases hmodal with rfl | rfl <;> cases other <;> rfl
      · rintro rfl
        rcases hmodal with rfl | rfl <;> cases hpresents
    refine iff_of_false hout ?_
    rcases hmodal with rfl | rfl <;> cases kind <;> simp [LeadsBack]
  · have halert : next ≠ .alert := fun heq => hmodal (.inl heq)
    cases kind with
    | login => exact entered_iff hpresents halert hchain hnodup (.inl rfl)
    | signIn => exact entered_iff hpresents halert hchain hnodup (.inr (.inl rfl))
    | signUp => exact entered_iff hpresents halert hchain hnodup (.inr (.inr rfl))
    | tabBar => exact tabBar_iff hpresents halert hchain hnodup
    | updateProfile =>
        cases next with
        | tabBar => exact updateProfile_iff hchain hnodup
        | imagePicker => exact absurd (.inr rfl) hmodal
        | _ => cases hpresents
    | create => cases next <;> simp_all [presents]
    | imagePicker => cases next <;> cases hpresents
    | alert => cases next <;> cases hpresents

end Stacked

variable {P : Platform} {s s' : App} {e : Event}

/-- The chain belongs to the storyboard, and the screen of the launch stays its root. -/
structure Rooted (s : App) : Prop where
  placed : Placed s
  root : s.ui.kinds.getLast? = some .login ∨ s.ui.kinds.getLast? = some .tabBar

theorem Rooted.stacked (h : Rooted s) : Stacked s.ui.kinds :=
  ⟨(List.isChain_map Frame.kind).mpr s.ui.screens.linked, h.root⟩

theorem rooted_launch (persisted : Option String) : Rooted (.launch persisted) := by
  refine ⟨placed_launch persisted, ?_⟩
  cases persisted
  · exact .inl rfl
  · exact .inr rfl

private theorem root_not_popped (popped : List ScreenKind) {kinds : List ScreenKind}
    (hpopped : ∀ kind ∈ popped, kind.transient = true)
    (hroot : (popped ++ kinds).getLast? = some .login ∨ (popped ++ kinds).getLast? = some .tabBar) :
    kinds.getLast? = some .login ∨ kinds.getLast? = some .tabBar := by
  cases kinds with
  | nil =>
      rw [List.append_nil] at hroot
      rcases hroot with h | h <;> exact absurd (hpopped _ (List.mem_of_getLast? h)) (by decide)
  | cons kind kinds => rwa [List.getLast?_append_of_ne_nil _ (List.cons_ne_nil _ _)] at hroot

theorem rooted_step (h : Rooted s) (hstep : (appMachine P).step s e = .ok s') : Rooted s' := by
  refine ⟨placed_step h.placed hstep, ?_⟩
  rcases effect_of_step hstep with rfl | heffect
  · exact h.root
  · have hroot := h.root
    cases chain_of_effect h.placed heffect with
    | stay heq => rwa [UI.kinds, heq]
    | push self kind htop hopens heq =>
        have hpushed : s'.ui.kinds = kind :: s.ui.kinds := by
          rw [UI.kinds, heq]
          rfl
        have hne : s.ui.kinds ≠ [] := by
          intro hnil
          simp [hnil] at hroot
        rwa [hpushed, List.getLast?_cons_of_ne_nil hne]
    | pop popped hchain htransient hfresh =>
        apply root_not_popped (popped.map Frame.kind) (by simpa using htransient)
        rw [UI.kinds, hchain, List.map_append] at hroot
        exact hroot

theorem uncluttered_iff : Uncluttered s ↔ s.ui.kinds.Nodup := by
  constructor
  · exact Uncluttered.once
  · intro hnodup
    refine ⟨hnodup, List.nodup_iff_count_le_one.mp hnodup .tabBar, ?_⟩
    have hsub : s.ui.kinds ⊆ [.login, .signIn, .signUp, .tabBar, .updateProfile, .create,
        .imagePicker, .alert] := by
      intro kind _
      cases kind <;> decide
    exact (List.subperm_of_subset hnodup hsub).length_le

private theorem uncluttered_step (hrooted : Rooted s) (h : Uncluttered s)
    (hstep : (appMachine P).step s e = .ok s') : Uncluttered s' ↔ ¬ TakesCycle s e := by
  have hopened := opened_of_step hrooted.placed hstep
  have hstacked := (rooted_step hrooted hstep).stacked
  have hnodup := h.once
  rw [uncluttered_iff]
  unfold TakesCycle
  cases hopens : s.opens e with
  | none =>
      rw [hopens] at hopened
      have hsuffix : s'.ui.kinds <:+ s.ui.kinds := hopened.map Frame.kind
      simp [hnodup.sublist hsuffix.sublist]
  | some next =>
      rw [hopens] at hopened
      have hpushed : s'.ui.kinds = next :: s.ui.kinds := by
        rw [UI.kinds, show s'.ui.screens.chain = _ from hopened]
        rfl
      rw [hpushed] at hstacked ⊢
      cases hkinds : s.ui.kinds with
      | nil => simp [LeadsBack]
      | cons kind below =>
          rw [hkinds] at hstacked hnodup
          simp [hnodup, hstacked.mem_iff_leadsBack hnodup]

/-- The chain never holds a screen twice just in the runs whose segues close no cycle of the
storyboard. -/
theorem screens_never_pile_up_iff (P : Platform) (persisted : Option String)
    (events : List Event) :
    (appMachine P).Always Uncluttered (.launch persisted) events ↔
      (appMachine P).Meets (fun s e => ¬ TakesCycle s e) (.launch persisted) events := by
  apply Machine.always_iff_meets (I := Rooted)
  · exact fun s e s' h hstep => rooted_step h hstep
  · exact fun s e s' hrooted h hstep => uncluttered_step hrooted h hstep
  · rintro s e trap hstep ⟨kind, hkind, -⟩
    rw [opens_of_trap hstep] at hkind
    cases hkind
  · exact rooted_launch persisted
  · rw [uncluttered_iff]
    cases persisted <;> exact List.nodup_singleton _

/-- The back arrow of `signIn` presents one more `login`, and an edited profile one more tab
bar. -/
theorem screens_pile_up :
    (∃ s, (appMachine .firebase).run (.launch none) [.ui (.segue .signIn), .ui (.segue .login)] =
        .ok s ∧ s.ui.kinds = [.login, .signIn, .login] ∧ ¬ Uncluttered s) ∧
    ∃ s, (appMachine .firebase).run (.launch (some "a@x"))
        [.openTab .profile, .ui .editBtnPressed, .ui (.editProfileFields "ann" "reader"),
          .doneBtnPressed "A1", .succeed 0 ⟨"", 0⟩, .deliver 0, .succeed 0 ⟨"", 0⟩, .deliver 0,
          .succeed 0 ⟨"d1", 0⟩, .deliver 0] = .ok s ∧
      s.ui.kinds = [.tabBar, .updateProfile, .tabBar] ∧ ¬ Uncluttered s := by
  constructor
  · exact ⟨_, rfl, rfl, fun h => absurd h.once (by decide)⟩
  · exact ⟨_, rfl, rfl, fun h => absurd h.tabBars (by decide)⟩

end BookShelf
