import BookShelf.Session.Taps

/-!
# Taps on Sign Up and what they have created

The invariant of the sign-ups: numbers tell taps apart, and each tap is tied to the account and
the session that it has put on record.
-/

namespace BookShelf

/-- `createUser` has been accepted for the tap. -/
def Created (x : Pending Request) (tap : SignUpTap) : Prop :=
  x = ⟨.createUser tap, some true⟩ ∨
    ∃ credentials, x.request = .signInAfterSignUp tap credentials

/-- A tap's number is its position, and its requests carry it: one at a time until the tap has
ended, and none afterwards. -/
structure Numbered (s : App) : Prop where
  numbers : ∀ (i : Nat) (tap : SignUpTap), s.taps[i]? = some tap → tap.number = i
  keys_nodup : (Pending.keys Request.tapNumber s.requests).Nodup
  known : ∀ x ∈ s.requests, ∀ tap, x.request.signUpTap = some tap → tap ∈ s.taps
  ended_once : ∀ o ∈ s.signUpEnds, ∀ x ∈ s.requests, x.request.tapNumber ≠ some o.tap.number
  ended_known : ∀ o ∈ s.signUpEnds, o.tap ∈ s.taps
  covered : ∀ tap ∈ s.taps, (∃ x ∈ s.requests, x.request.signUpTap = some tap) ∨
    ∃ o ∈ s.signUpEnds, o.tap = tap

/-- What a tap has created is on record from the acceptance of `createUser` on. -/
structure Recorded (s : App) : Prop where
  accounts_known : ∀ account ∈ s.accounts, account.tap < s.taps.length
  writes_known : ∀ number ∈ s.sessionWrites, number < s.taps.length
  waiting : ∀ x ∈ s.requests, ∀ tap, x.request = .createUser tap → x.answer ≠ some true →
    (∀ account ∈ s.accounts, account.tap ≠ tap.number) ∧ tap.number ∉ s.sessionWrites
  created : ∀ x ∈ s.requests, ∀ tap, Created x tap →
    ⟨tap.credentials, tap.number⟩ ∈ s.accounts

structure Tracked (s : App) : Prop extends Numbered s, Recorded s

theorem Request.tapNumber_of_signUpTap {r : Request} {tap : SignUpTap}
    (h : r.signUpTap = some tap) : r.tapNumber = some tap.number := by
  simp [tapNumber, h]

theorem Request.signUpTap_of_tapNumber {r : Request} {number : Nat}
    (h : r.tapNumber = some number) : ∃ tap, r.signUpTap = some tap ∧ tap.number = number :=
  Option.map_eq_some_iff.mp h

theorem Created.signUpTap {x : Pending Request} {tap : SignUpTap} (h : Created x tap) :
    x.request.signUpTap = some tap := by
  rcases h with h | ⟨credentials, h⟩ <;> rw [h] <;> rfl

theorem Ends.signUpTap {tap : SignUpTap} {r : Request} {ok : Bool} {screen : ScreenKind}
    (h : Ends tap r ok screen) : r.signUpTap = some tap := by
  cases h <;> rfl

theorem Numbered.number_lt {s : App} (h : Numbered s) {tap : SignUpTap} (htap : tap ∈ s.taps) :
    tap.number < s.taps.length := by
  obtain ⟨i, hi⟩ := List.mem_iff_getElem?.mp htap
  rw [h.numbers i tap hi]
  exact (List.getElem?_eq_some_iff.mp hi).1

section

variable {s s' : App}

private theorem Numbered.of_taps (h : Numbered s)
    (hnodup : (Pending.keys Request.tapNumber s'.requests).Nodup)
    (hcomes : ∀ x ∈ s'.requests, x.request.signUpTap ≠ none →
      ∃ y ∈ s.requests, y.request.signUpTap = x.request.signUpTap)
    (hstays : ∀ y ∈ s.requests, y.request.signUpTap ≠ none →
      ∃ x ∈ s'.requests, x.request.signUpTap = y.request.signUpTap)
    (htaps : s'.taps = s.taps) (hends : s'.signUpEnds = s.signUpEnds) : Numbered s' := by
  constructor
  · rw [htaps]
    exact h.numbers
  · exact hnodup
  · intro x hx tap htap
    obtain ⟨y, hy, hyx⟩ := hcomes x hx (by simp [htap])
    rw [htaps]
    exact h.known y hy tap (hyx.trans htap)
  · intro o ho x hx hnumber
    rw [hends] at ho
    obtain ⟨tap, htap, -⟩ := Request.signUpTap_of_tapNumber hnumber
    obtain ⟨y, hy, hyx⟩ := hcomes x hx (by simp [htap])
    apply h.ended_once o ho y hy
    rwa [Request.tapNumber, hyx]
  · rw [hends, htaps]
    exact h.ended_known
  · intro tap htap
    rw [htaps] at htap
    rw [hends]
    rcases h.covered tap htap with ⟨y, hy, hytap⟩ | hended
    · obtain ⟨x, hx, hxtap⟩ := hstays y hy (by simp [hytap])
      exact .inl ⟨x, hx, hxtap.trans hytap⟩
    · exact .inr hended

private theorem Numbered.idle (h : Numbered s) (hsignUps : s'.signUps = s.signUps)
    (htaps : s'.taps = s.taps) (hends : s'.signUpEnds = s.signUpEnds) : Numbered s' := by
  have hkeys (s : App) : Pending.keys Request.tapNumber s.signUps =
      Pending.keys Request.tapNumber s.requests := by
    apply Pending.keys_filter
    intro r hr
    have hnone : r.signUpTap = none := by simpa [Request.isSignUp] using hr
    simp [Request.tapNumber, hnone]
  have hnodup := h.keys_nodup
  rw [← hkeys, ← hsignUps, hkeys] at hnodup
  apply h.of_taps hnodup ?_ ?_ htaps hends
  · exact fun x hx htap => ⟨x, (App.mem_requests_iff hsignUps htap).mp hx, rfl⟩
  · exact fun y hy htap => ⟨y, (App.mem_requests_iff hsignUps htap).mpr hy, rfl⟩

private theorem Numbered.settled {k : Nat} {r : Request} {ok : Bool} (h : Numbered s)
    (hk : s.requests[k]? = some ⟨r, none⟩)
    (hrequests : s'.requests = Pending.settle s.requests k r ok) (htaps : s'.taps = s.taps)
    (hends : s'.signUpEnds = s.signUpEnds) : Numbered s' := by
  apply h.of_taps ?_ ?_ ?_ htaps hends
  · rw [hrequests, Pending.keys_settle hk]
    exact h.keys_nodup
  · intro x hx _
    rw [hrequests] at hx
    rcases Pending.mem_settle hx with hx | rfl
    · exact ⟨x, hx, rfl⟩
    · exact ⟨_, List.mem_of_getElem? hk, rfl⟩
  · intro y hy _
    rw [hrequests]
    rcases Pending.mem_settle_or hk hy r ok with rfl | hy
    · exact ⟨_, List.mem_of_getElem? (Pending.getElem?_settle hk r ok), rfl⟩
    · exact ⟨y, hy, rfl⟩

private theorem Numbered.continued {k : Nat} {x : Pending Request} {next : Request}
    (h : Numbered s) (hk : s.requests[k]? = some x)
    (hrequests : s'.requests = Pending.post (s.requests.eraseIdx k) next)
    (hnext : next.signUpTap = x.request.signUpTap)
    (htaps : s'.taps = s.taps) (hends : s'.signUpEnds = s.signUpEnds) : Numbered s' := by
  apply h.of_taps ?_ ?_ ?_ htaps hends
  · have hkey : next.tapNumber = x.request.tapNumber := by rw [Request.tapNumber, hnext]; rfl
    rw [hrequests, Pending.keys_post, hkey]
    exact (List.perm_append_comm.trans (Pending.keys_erase_perm hk)).nodup_iff.mpr h.keys_nodup
  · intro y hy _
    rw [hrequests] at hy
    rcases Pending.mem_post.mp hy with hy | rfl
    · exact ⟨y, List.mem_of_mem_eraseIdx hy, rfl⟩
    · exact ⟨x, List.mem_of_getElem? hk, hnext.symm⟩
  · intro y hy _
    rw [hrequests]
    rcases Pending.mem_erase_or hk hy with rfl | hy
    · exact ⟨_, Pending.mem_post.mpr (.inr rfl), hnext⟩
    · exact ⟨y, Pending.mem_post.mpr (.inl hy), rfl⟩

private theorem Numbered.tapped {tap : SignUpTap} (h : Numbered s)
    (hnumber : tap.number = s.taps.length)
    (hrequests : s'.requests = Pending.post s.requests (.createUser tap))
    (htaps : s'.taps = s.taps ++ [tap]) (hends : s'.signUpEnds = s.signUpEnds) :
    Numbered s' := by
  have hkey : Request.tapNumber (.createUser tap) = some tap.number := rfl
  constructor
  · intro i other hi
    rw [htaps, List.getElem?_append] at hi
    split at hi
    · exact h.numbers i other hi
    · next hge =>
      rw [List.getElem?_singleton] at hi
      split at hi
      · rw [← Option.some.inj hi, hnumber]
        omega
      · cases hi
  · rw [hrequests, Pending.keys_post, hkey, Option.toList_some, ← List.concat_eq_append]
    refine List.Nodup.concat ?_ h.keys_nodup
    intro hmem
    obtain ⟨x, hx, hxkey⟩ := List.mem_filterMap.mp hmem
    obtain ⟨other, hother, heq⟩ := Request.signUpTap_of_tapNumber hxkey
    have hlt := h.number_lt (h.known x hx other hother)
    omega
  · intro x hx other hother
    rw [hrequests] at hx
    rw [htaps]
    rcases Pending.mem_post.mp hx with hx | rfl
    · exact List.mem_append_left _ (h.known x hx other hother)
    · rw [← Option.some.inj hother]
      exact List.mem_append_right _ (List.mem_singleton_self tap)
  · intro o ho x hx
    rw [hends] at ho
    rw [hrequests] at hx
    rcases Pending.mem_post.mp hx with hx | rfl
    · exact h.ended_once o ho x hx
    · have hlt := h.number_lt (h.ended_known o ho)
      rw [hkey]
      intro heq
      have hsame := Option.some.inj heq
      omega
  · intro o ho
    rw [hends] at ho
    rw [htaps]
    exact List.mem_append_left _ (h.ended_known o ho)
  · intro other hother
    rw [htaps] at hother
    rw [hrequests, hends]
    rcases List.mem_append.mp hother with hother | hother
    · rcases h.covered other hother with ⟨x, hx, hxo⟩ | hended
      · exact .inl ⟨x, Pending.mem_post.mpr (.inl hx), hxo⟩
      · exact .inr hended
    · rw [List.mem_singleton.mp hother]
      exact .inl ⟨_, Pending.mem_post.mpr (.inr rfl), rfl⟩

private theorem Numbered.ended {k : Nat} {x : Pending Request} {o : SignUpEnd} (h : Numbered s)
    (hk : s.requests[k]? = some x) (hx : x.request.signUpTap = some o.tap)
    (hrequests : s'.requests = s.requests.eraseIdx k) (htaps : s'.taps = s.taps)
    (hends : s'.signUpEnds = s.signUpEnds ++ [o]) : Numbered s' := by
  have hold : ∀ y ∈ s'.requests, y ∈ s.requests := by
    rw [hrequests]
    exact fun y hy => List.mem_of_mem_eraseIdx hy
  have hperm : (x.request.tapNumber.toList ++
      Pending.keys Request.tapNumber (s.requests.eraseIdx k)).Nodup :=
    (Pending.keys_erase_perm hk).nodup_iff.mpr h.keys_nodup
  rw [Request.tapNumber_of_signUpTap hx, Option.toList_some, List.singleton_append,
    List.nodup_cons] at hperm
  constructor
  · rw [htaps]
    exact h.numbers
  · rw [hrequests]
    exact hperm.2
  · intro y hy tap htap
    rw [htaps]
    exact h.known y (hold y hy) tap htap
  · intro other hother y hy hnumber
    rw [hends] at hother
    rcases List.mem_append.mp hother with hother | hother
    · exact h.ended_once other hother y (hold y hy) hnumber
    · rw [List.mem_singleton.mp hother] at hnumber
      rw [hrequests] at hy
      exact hperm.1 (Pending.mem_keys_of_mem hy hnumber)
  · intro other hother
    rw [hends] at hother
    rw [htaps]
    rcases List.mem_append.mp hother with hother | hother
    · exact h.ended_known other hother
    · rw [List.mem_singleton.mp hother]
      exact h.known x (List.mem_of_getElem? hk) o.tap hx
  · intro tap htap
    rw [htaps] at htap
    rw [hends]
    rcases h.covered tap htap with ⟨y, hy, hytap⟩ | ⟨other, hother, hotap⟩
    · rcases Pending.mem_erase_or hk hy with rfl | hy
      · refine .inr ⟨o, by simp, ?_⟩
        exact Option.some.inj (hx.symm.trans hytap)
      · exact .inl ⟨y, hrequests ▸ hy, hytap⟩
    · exact .inr ⟨other, List.mem_append_left _ hother, hotap⟩

/-- `x` tells no more about its tap than `y` did. -/
structure Derives (y x : Pending Request) : Prop where
  waiting : ∀ tap, x.request = .createUser tap → x.answer ≠ some true →
    y.request = .createUser tap ∧ y.answer ≠ some true
  created : ∀ tap, Created x tap → Created y tap

theorem Derives.refl (x : Pending Request) : Derives x x :=
  ⟨fun _ hx ha => ⟨hx, ha⟩, fun _ hx => hx⟩

private theorem Recorded.of_derives (h : Recorded s)
    (hderives : ∀ x ∈ s'.requests, x.request.signUpTap ≠ none → ∃ y ∈ s.requests, Derives y x)
    (haccounts : SameAccounts s s') (htaps : s'.taps = s.taps) : Recorded s' := by
  obtain ⟨haccounts, hwrites⟩ := haccounts
  constructor
  · rw [haccounts, htaps]
    exact h.accounts_known
  · rw [hwrites, htaps]
    exact h.writes_known
  · intro x hx tap hxtap hanswer
    obtain ⟨y, hy, hyx⟩ := hderives x hx (by simp [hxtap, Request.signUpTap])
    obtain ⟨hytap, hyanswer⟩ := hyx.waiting tap hxtap hanswer
    rw [haccounts, hwrites]
    exact h.waiting y hy tap hytap hyanswer
  · intro x hx tap hxtap
    obtain ⟨y, hy, hyx⟩ := hderives x hx (by simp [hxtap.signUpTap])
    rw [haccounts]
    exact h.created y hy tap (hyx.created tap hxtap)

private theorem Recorded.refused {k : Nat} {r : Request} (h : Recorded s)
    (hk : s.requests[k]? = some ⟨r, none⟩)
    (hrequests : s'.requests = Pending.settle s.requests k r false)
    (haccounts : SameAccounts s s') (htaps : s'.taps = s.taps) : Recorded s' := by
  apply h.of_derives ?_ haccounts htaps
  intro x hx _
  rw [hrequests] at hx
  rcases Pending.mem_settle hx with hx | rfl
  · exact ⟨x, hx, .refl x⟩
  · refine ⟨_, List.mem_of_getElem? hk, fun tap hx _ => ⟨hx, by simp⟩, ?_⟩
    rintro tap (hx | hx)
    · simp at hx
    · exact .inr hx

private theorem Recorded.continued {k : Nat} {tap : SignUpTap} {credentials : Credentials}
    (h : Recorded s) (hk : s.requests[k]? = some ⟨.createUser tap, some true⟩)
    (hrequests : s'.requests =
      Pending.post (s.requests.eraseIdx k) (.signInAfterSignUp tap credentials))
    (haccounts : SameAccounts s s') (htaps : s'.taps = s.taps) : Recorded s' := by
  apply h.of_derives ?_ haccounts htaps
  intro x hx _
  rw [hrequests] at hx
  rcases Pending.mem_post.mp hx with hx | rfl
  · exact ⟨x, List.mem_of_mem_eraseIdx hx, .refl x⟩
  · refine ⟨_, List.mem_of_getElem? hk, fun tap hx => by simp at hx, ?_⟩
    intro other hother
    rw [← Option.some.inj hother.signUpTap]
    exact .inl rfl

private theorem Recorded.tapped {tap : SignUpTap} (h : Recorded s)
    (hnumber : tap.number = s.taps.length)
    (hrequests : s'.requests = Pending.post s.requests (.createUser tap))
    (haccounts : SameAccounts s s') (htaps : s'.taps = s.taps ++ [tap]) : Recorded s' := by
  obtain ⟨haccounts, hwrites⟩ := haccounts
  have hlength : s'.taps.length = s.taps.length + 1 := by simp [htaps]
  constructor
  · intro account haccount
    rw [haccounts] at haccount
    have hlt := h.accounts_known account haccount
    omega
  · intro number hwrite
    rw [hwrites] at hwrite
    have hlt := h.writes_known number hwrite
    omega
  · intro x hx other hxo hanswer
    rw [hrequests] at hx
    rw [haccounts, hwrites]
    rcases Pending.mem_post.mp hx with hx | rfl
    · exact h.waiting x hx other hxo hanswer
    · obtain rfl : tap = other := Request.createUser.inj hxo
      constructor
      · intro account haccount heq
        have hlt := h.accounts_known account haccount
        omega
      · intro hwrite
        have hlt := h.writes_known _ hwrite
        omega
  · intro x hx other hxo
    rw [hrequests] at hx
    rw [haccounts]
    rcases Pending.mem_post.mp hx with hx | rfl
    · exact h.created x hx other hxo
    · rcases hxo with hxo | ⟨credentials, hxo⟩ <;> simp at hxo

private theorem Tracked.registered {k : Nat} {r : Request} {tap : SignUpTap}
    {new : List Account} (h : Tracked s) (hk : s.requests[k]? = some ⟨r, none⟩)
    (hr : r.signUpTap = some tap) (hnew : ∀ account ∈ new, account.tap = tap.number)
    (hcreated : ⟨tap.credentials, tap.number⟩ ∈ s.accounts ++ new)
    (hrequests : s'.requests = Pending.settle s.requests k r true)
    (haccounts : s'.accounts = s.accounts ++ new)
    (hwrites : s'.sessionWrites = s.sessionWrites ++ [tap.number]) (htaps : s'.taps = s.taps)
    (hends : s'.signUpEnds = s.signUpEnds) : Tracked s' := by
  have hnumbered : Numbered s' := h.toNumbered.settled hk hrequests htaps hends
  have hlt := h.number_lt (h.known _ (List.mem_of_getElem? hk) tap hr)
  have hsettled : ⟨r, some true⟩ ∈ s'.requests := by
    rw [hrequests]
    exact List.mem_of_getElem? (Pending.getElem?_settle hk r true)
  refine ⟨hnumbered, ?_⟩
  constructor
  · intro account haccount
    rw [haccounts] at haccount
    rw [htaps]
    rcases List.mem_append.mp haccount with haccount | haccount
    · exact h.accounts_known account haccount
    · rw [hnew account haccount]
      exact hlt
  · intro number hwrite
    rw [hwrites] at hwrite
    rw [htaps]
    rcases List.mem_append.mp hwrite with hwrite | hwrite
    · exact h.writes_known number hwrite
    · rw [List.mem_singleton.mp hwrite]
      exact hlt
  · intro x hx other hxo hanswer
    have hne : tap.number ≠ other.number := by
      intro heq
      have hkey : x.request.tapNumber = some tap.number := by
        rw [hxo, heq]
        rfl
      obtain rfl := Pending.eq_of_key hnumbered.keys_nodup hx hsettled hkey
        (Request.tapNumber_of_signUpTap hr)
      exact hanswer rfl
    have hold : x ∈ s.requests := by
      rw [hrequests] at hx
      rcases Pending.mem_settle hx with hx | rfl
      · exact hx
      · exact absurd rfl hanswer
    obtain ⟨hnone, hwrite⟩ := h.waiting x hold other hxo hanswer
    constructor
    · intro account haccount
      rw [haccounts] at haccount
      rcases List.mem_append.mp haccount with haccount | haccount
      · exact hnone account haccount
      · rw [hnew account haccount]
        exact hne
    · rw [hwrites]
      intro hmem
      rcases List.mem_append.mp hmem with hmem | hmem
      · exact hwrite hmem
      · exact hne (List.mem_singleton.mp hmem).symm
  · intro x hx other hxo
    rw [hrequests] at hx
    rw [haccounts]
    rcases Pending.mem_settle hx with hx | rfl
    · exact List.mem_append_left _ (h.created x hx other hxo)
    · obtain rfl : tap = other := Option.some.inj (hr.symm.trans hxo.signUpTap)
      exact hcreated

theorem tracked_step {e : Event} (h : Tracked s) (hstep : SignUpStep s e s') : Tracked s' := by
  have hn := h.toNumbered
  have hr := h.toRecorded
  cases hstep with
  | idle hsignUps haccounts htaps hends hevent =>
      refine ⟨hn.idle hsignUps htaps hends, hr.of_derives ?_ haccounts htaps⟩
      exact fun x hx htap => ⟨x, (App.mem_requests_iff hsignUps htap).mp hx, .refl x⟩
  | tapped tap hevent hnumber hrequests haccounts htaps hends =>
      exact ⟨hn.tapped hnumber hrequests htaps hends, hr.tapped hnumber hrequests haccounts htaps⟩
  | accepted k tap stamp hevent hk hrequests haccounts hwrites htaps hends =>
      exact h.registered hk rfl (by simp) (by simp) hrequests haccounts hwrites htaps hends
  | admitted k tap credentials stamp hevent hk hrequests haccounts hwrites htaps hends =>
      have hnone : s'.accounts = s.accounts ++ [] := by rw [haccounts, List.append_nil]
      refine h.registered hk rfl (by simp) ?_ hrequests hnone hwrites htaps hends
      rw [List.append_nil]
      exact h.created _ (List.mem_of_getElem? hk) tap (.inr ⟨credentials, rfl⟩)
  | refused k r hevent hk hrequests haccounts htaps hends =>
      exact ⟨hn.settled hk hrequests htaps hends, hr.refused hk hrequests haccounts htaps⟩
  | created k tap credentials hevent hk hrequests haccounts htaps hends =>
      exact ⟨hn.continued hk hrequests rfl htaps hends, hr.continued hk hrequests haccounts htaps⟩
  | ended k r ok tap screen hevent hk hlast hrequests haccounts htaps hends =>
      refine ⟨hn.ended (o := endOf s tap screen) hk hlast.signUpTap hrequests htaps hends,
        hr.of_derives ?_ haccounts htaps⟩
      intro x hx _
      rw [hrequests] at hx
      exact ⟨x, List.mem_of_mem_eraseIdx hx, .refl x⟩

end

theorem tracked_launch (persisted : Option String) : Tracked (.launch persisted) := by
  refine ⟨?_, ?_⟩ <;> constructor <;> simp [App.launch, Pending.keys]

end BookShelf
