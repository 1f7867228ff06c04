import Mathlib.Data.List.Perm.Basic
import Mathlib.Data.List.Nodup

/-!
# Asynchronous requests

The requests a client has made and whose completion has not run yet. A service answers a
request at some moment, with success or failure, and the completion runs at some later moment;
both moments are chosen by position, so answers and completions come in any order.
-/

/-- A request, and the answer of the service once there is one. -/
structure Pending (ρ : Type*) where
  request : ρ
  answer : Option Bool
deriving DecidableEq, Repr

namespace Pending

variable {ρ : Type*}

/-- Make a request. -/
def post (pool : List (Pending ρ)) (r : ρ) : List (Pending ρ) :=
  pool ++ [⟨r, none⟩]

/-- The service answers the request `r` at position `k`. -/
def settle (pool : List (Pending ρ)) (k : Nat) (r : ρ) (ok : Bool) : List (Pending ρ) :=
  pool.set k ⟨r, some ok⟩

theorem mem_post {pool : List (Pending ρ)} {r : ρ} {x : Pending ρ} :
    x ∈ post pool r ↔ x ∈ pool ∨ x = ⟨r, none⟩ := by
  simp [post]

theorem mem_settle {pool : List (Pending ρ)} {k : Nat} {r : ρ} {ok : Bool} {x : Pending ρ}
    (hx : x ∈ settle pool k r ok) : x ∈ pool ∨ x = ⟨r, some ok⟩ :=
  List.mem_or_eq_of_mem_set hx

theorem getElem?_post (pool : List (Pending ρ)) (r : ρ) :
    (post pool r)[pool.length]? = some ⟨r, none⟩ :=
  List.getElem?_concat_length

theorem getElem?_settle {pool : List (Pending ρ)} {k : Nat} {x : Pending ρ}
    (hk : pool[k]? = some x) (r : ρ) (ok : Bool) : (settle pool k r ok)[k]? = some ⟨r, some ok⟩ :=
  List.getElem?_set_self (List.getElem?_eq_some_iff.mp hk).1

theorem eraseIdx_post (pool : List (Pending ρ)) (r : ρ) :
    (post pool r).eraseIdx pool.length = pool := by
  rw [post, List.eraseIdx_append_of_length_le (Nat.le_refl _), Nat.sub_self]
  simp

theorem eraseIdx_settle (pool : List (Pending ρ)) (k : Nat) (r : ρ) (ok : Bool) :
    (settle pool k r ok).eraseIdx k = pool.eraseIdx k :=
  List.eraseIdx_set_eq

/-- A new request that has been answered and taken out leaves the pool as it was. -/
theorem eraseIdx_settle_post (pool : List (Pending ρ)) (r : ρ) (ok : Bool) :
    (settle (post pool r) pool.length r ok).eraseIdx pool.length = pool := by
  rw [eraseIdx_settle, eraseIdx_post]

theorem mem_settle_or {pool : List (Pending ρ)} {k : Nat} {x y : Pending ρ}
    (hk : pool[k]? = some x) (hy : y ∈ pool) (r : ρ) (ok : Bool) :
    y = x ∨ y ∈ settle pool k r ok := by
  obtain ⟨j, hj⟩ := List.mem_iff_getElem?.mp hy
  by_cases hjk : k = j
  · rw [hjk, hj] at hk
    exact .inl (Option.some.inj hk)
  · exact .inr (List.mem_of_getElem? ((List.getElem?_set_ne hjk).trans hj))

theorem mem_erase_or {pool : List (Pending ρ)} {k : Nat} {x y : Pending ρ}
    (hk : pool[k]? = some x) (hy : y ∈ pool) : y = x ∨ y ∈ pool.eraseIdx k := by
  obtain ⟨hlt, rfl⟩ := List.getElem?_eq_some_iff.mp hk
  exact List.mem_cons.mp ((List.getElem_cons_eraseIdx_perm hlt).mem_iff.mpr hy)

theorem filter_post {p : ρ → Bool} {r : ρ} (hr : p r = false) (pool : List (Pending ρ)) :
    ((post pool r).filter fun x => p x.request) = pool.filter fun x => p x.request := by
  simp [post, hr]

theorem filter_settle {p : ρ → Bool} {pool : List (Pending ρ)} {k : Nat} {r : ρ}
    {answer : Option Bool} (hk : pool[k]? = some ⟨r, answer⟩) (hr : p r = false) (ok : Bool) :
    ((settle pool k r ok).filter fun x => p x.request) = pool.filter fun x => p x.request := by
  induction pool generalizing k with
  | nil => rfl
  | cons x pool ih =>
      cases k with
      | zero =>
          obtain rfl : x = ⟨r, answer⟩ := by simpa using hk
          simp [settle, hr]
      | succ k =>
          have htail := ih (k := k) (by simpa using hk)
          simp only [settle, List.set_cons_succ, List.filter_cons] at htail ⊢
          rw [htail]

theorem filter_erase {p : ρ → Bool} {pool : List (Pending ρ)} {k : Nat} {x : Pending ρ}
    (hk : pool[k]? = some x) (hx : p x.request = false) :
    ((pool.eraseIdx k).filter fun x => p x.request) = pool.filter fun x => p x.request := by
  induction pool generalizing k with
  | nil => rfl
  | cons y pool ih =>
      cases k with
      | zero =>
          obtain rfl : y = x := by simpa using hk
          simp [hx]
      | succ k =>
          have htail := ih (k := k) (by simpa using hk)
          rw [List.eraseIdx_cons_succ, List.filter_cons, List.filter_cons, htail]

theorem countP_post (p : Pending ρ → Bool) (pool : List (Pending ρ)) (r : ρ) :
    (post pool r).countP p = pool.countP p + if p ⟨r, none⟩ then 1 else 0 := by
  simp [post, List.countP_append, List.countP_cons]

theorem countP_erase {p : Pending ρ → Bool} {pool : List (Pending ρ)} {k : Nat} {x : Pending ρ}
    (hk : pool[k]? = some x) :
    ((pool.eraseIdx k).countP p + if p x then 1 else 0) = pool.countP p := by
  obtain ⟨hlt, rfl⟩ := List.getElem?_eq_some_iff.mp hk
  rw [← (List.getElem_cons_eraseIdx_perm hlt).countP_eq p, List.countP_cons]

theorem countP_settle {p : Pending ρ → Bool} {pool : List (Pending ρ)} {k : Nat} {x : Pending ρ}
    (hk : pool[k]? = some x) (r : ρ) (ok : Bool) :
    ((settle pool k r ok).countP p + if p x then 1 else 0) =
      pool.countP p + if p ⟨r, some ok⟩ then 1 else 0 := by
  have herase := countP_erase (p := p) hk
  obtain ⟨hlt, -⟩ := List.getElem?_eq_some_iff.mp hk
  rw [settle, (List.set_perm_cons_eraseIdx hlt _).countP_eq p, List.countP_cons]
  omega

/-- The number of requests of a kind that still wait for their answer. -/
def unanswered (p : ρ → Bool) (pool : List (Pending ρ)) : Nat :=
  pool.countP fun x => x.answer.isNone && p x.request

theorem unanswered_post (p : ρ → Bool) (pool : List (Pending ρ)) (r : ρ) :
    unanswered p (post pool r) = unanswered p pool + if p r then 1 else 0 := by
  simp [unanswered, countP_post]

theorem unanswered_settle {p : ρ → Bool} {pool : List (Pending ρ)} {k : Nat} {r : ρ}
    (hk : pool[k]? = some ⟨r, none⟩) (ok : Bool) :
    (unanswered p (settle pool k r ok) + if p r then 1 else 0) = unanswered p pool := by
  have hsettle := countP_settle (p := fun x => x.answer.isNone && p x.request) hk r ok
  simpa [unanswered] using hsettle

theorem unanswered_sublist {p : ρ → Bool} {pool pool' : List (Pending ρ)}
    (h : pool'.Sublist pool) : unanswered p pool' ≤ unanswered p pool :=
  h.countP_le

theorem unanswered_filter {p q : ρ → Bool} (hq : ∀ r, q r = false → p r = false)
    (pool : List (Pending ρ)) :
    unanswered p (pool.filter fun x => q x.request) = unanswered p pool := by
  induction pool with
  | nil => rfl
  | cons x pool ih =>
      unfold unanswered at ih ⊢
      by_cases hx : q x.request = true
      · simp [List.countP_cons, hx, ih]
      · have hp := hq x.request (by simpa using hx)
        simp [hx, hp, ih]

theorem exists_of_unanswered {p : ρ → Bool} {pool : List (Pending ρ)}
    (h : unanswered p pool ≠ 0) : ∃ (k : Nat) (r : ρ), pool[k]? = some ⟨r, none⟩ ∧ p r = true := by
  obtain ⟨⟨r, answer⟩, hx, hp⟩ := List.countP_pos_iff.mp (Nat.pos_of_ne_zero h)
  obtain ⟨k, hk⟩ := List.mem_iff_getElem?.mp hx
  rw [Bool.and_eq_true, Option.isNone_iff_eq_none] at hp
  obtain ⟨hanswer, hp⟩ := hp
  subst hanswer
  exact ⟨k, r, hk, hp⟩

variable {κ : Type*} (key : ρ → Option κ)

/-- The keys of the pending requests that carry one, in the order the requests were made. -/
def keys (pool : List (Pending ρ)) : List κ :=
  pool.filterMap fun x => key x.request

variable {key}

theorem mem_keys_of_mem {pool : List (Pending ρ)} {x : Pending ρ} {u : κ} (hx : x ∈ pool)
    (hu : key x.request = some u) : u ∈ keys key pool :=
  List.mem_filterMap.mpr ⟨x, hx, hu⟩

theorem keys_post (pool : List (Pending ρ)) (r : ρ) :
    keys key (post pool r) = keys key pool ++ (key r).toList := by
  cases h : key r <;> simp [keys, post, h]

theorem keys_filter {p : ρ → Bool} (hp : ∀ r, p r = false → key r = none)
    (pool : List (Pending ρ)) :
    keys key (pool.filter fun x => p x.request) = keys key pool := by
  induction pool with
  | nil => rfl
  | cons x pool ih =>
      unfold keys at ih ⊢
      by_cases hx : p x.request = true
      · simp [List.filterMap_cons, hx, ih]
      · have hkey := hp x.request (by simpa using hx)
        simp [hx, hkey, ih]

theorem keys_settle {pool : List (Pending ρ)} {k : Nat} {r : ρ} {answer : Option Bool}
    (hk : pool[k]? = some ⟨r, answer⟩) (ok : Bool) :
    keys key (settle pool k r ok) = keys key pool := by
  induction pool generalizing k with
  | nil => rfl
  | cons x pool ih =>
      cases k with
      | zero =>
          obtain rfl : x = ⟨r, answer⟩ := by simpa using hk
          rfl
      | succ k =>
          have := ih (k := k) (by simpa using hk)
          simp only [keys, settle, List.set_cons_succ, List.filterMap_cons] at this ⊢
          rw [this]

theorem keys_erase_perm {pool : List (Pending ρ)} {k : Nat} {x : Pending ρ}
    (hk : pool[k]? = some x) :
    ((key x.request).toList ++ keys key (pool.eraseIdx k)).Perm (keys key pool) := by
  obtain ⟨hlt, rfl⟩ := List.getElem?_eq_some_iff.mp hk
  have hperm := (List.getElem_cons_eraseIdx_perm hlt).filterMap fun x => key x.request
  cases h : key pool[k].request <;> simpa [keys, h] using hperm

theorem eq_of_key {pool : List (Pending ρ)} (hnodup : (keys key pool).Nodup) {x y : Pending ρ}
    {u : κ} (hx : x ∈ pool) (hy : y ∈ pool) (hxu : key x.request = some u)
    (hyu : key y.request = some u) : x = y := by
  induction pool with
  | nil => cases hx
  | cons z pool ih =>
      cases hz : key z.request with
      | none =>
          have hxz : x ≠ z := fun h => by simp [h, hz] at hxu
          have hyz : y ≠ z := fun h => by simp [h, hz] at hyu
          simp only [keys, List.filterMap_cons, hz] at hnodup
          exact ih hnodup ((List.mem_cons.mp hx).resolve_left hxz)
            ((List.mem_cons.mp hy).resolve_left hyz)
      | some v =>
          simp only [keys, List.filterMap_cons, hz] at hnodup
          have hv := (List.nodup_cons.mp hnodup).1
          rcases List.mem_cons.mp hx with hxz | hx <;> rcases List.mem_cons.mp hy with hyz | hy
          · rw [hxz, hyz]
          · have : v = u := by simpa [hxz, hz] using hxu
            exact absurd (this ▸ mem_keys_of_mem hy hyu) hv
          · have : v = u := by simpa [hyz, hz] using hyu
            exact absurd (this ▸ mem_keys_of_mem hx hxu) hv
          · exact ih (List.nodup_cons.mp hnodup).2 hx hy

end Pending
