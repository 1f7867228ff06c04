import Mathlib.Data.List.AList

/-!
# Maps whose values depend on their keys

Functions applied to every value of a finite map, with or without failure. The keys stay as they
are, so that the result can be looked up key by key.
-/

namespace DependentMap

variable {α : Type*} {β γ : α → Type*} {ε : Type*}

private def mapEntries (f : ∀ a, β a → Except ε (γ a)) :
    List (Sigma β) → Except ε (List (Sigma γ))
  | [] => .ok []
  | ⟨a, b⟩ :: entries =>
      match f a b with
      | .error e => .error e
      | .ok c =>
          match mapEntries f entries with
          | .error e => .error e
          | .ok rest => .ok (⟨a, c⟩ :: rest)

private theorem keys_mapEntries {f : ∀ a, β a → Except ε (γ a)} {entries : List (Sigma β)}
    {entries' : List (Sigma γ)} (h : mapEntries f entries = .ok entries') :
    entries'.keys = entries.keys := by
  induction entries generalizing entries' with
  | nil =>
      cases h
      rfl
  | cons entry entries ih =>
      obtain ⟨a, b⟩ := entry
      unfold mapEntries at h
      cases hf : f a b with
      | error e => simp [hf] at h
      | ok c =>
          cases hrest : mapEntries f entries with
          | error e => simp [hf, hrest] at h
          | ok rest =>
              simp only [hf, hrest, Except.ok.injEq] at h
              subst h
              rw [List.keys_cons, List.keys_cons, ih hrest]

/-- Every value in turn; the first failure is the answer. -/
def mapM (f : ∀ a, β a → Except ε (γ a)) (m : AList β) : Except ε (AList γ) :=
  match h : mapEntries f m.entries with
  | .error e => .error e
  | .ok entries => .ok ⟨entries, by
      rw [List.NodupKeys, keys_mapEntries h]
      exact m.nodupKeys⟩

def map (f : ∀ a, β a → γ a) (m : AList β) : AList γ where
  entries := m.entries.map fun entry => ⟨entry.1, f entry.1 entry.2⟩
  nodupKeys := by
    rw [List.NodupKeys, List.keys, List.map_map]
    exact m.nodupKeys

theorem mem_map {f : ∀ a, β a → γ a} {m : AList β} {a : α} : a ∈ map f m ↔ a ∈ m := by
  rw [AList.mem_keys, AList.mem_keys, AList.keys, AList.keys, map, List.keys, List.map_map]
  rfl

theorem mem_mapM {f : ∀ a, β a → Except ε (γ a)} {m : AList β} {m' : AList γ}
    (h : mapM f m = .ok m') {a : α} : a ∈ m' ↔ a ∈ m := by
  unfold mapM at h
  split at h
  · cases h
  · next entries hok =>
    obtain rfl := Except.ok.inj h
    rw [AList.mem_keys, AList.mem_keys, AList.keys, AList.keys, keys_mapEntries hok]

private theorem mapEntries_error {f : ∀ a, β a → Except ε (γ a)} {entries : List (Sigma β)} {e : ε}
    (h : mapEntries f entries = .error e) : ∃ entry ∈ entries, f entry.1 entry.2 = .error e := by
  induction entries with
  | nil => cases h
  | cons entry entries ih =>
      obtain ⟨a, b⟩ := entry
      unfold mapEntries at h
      cases hf : f a b with
      | error e' =>
          simp only [hf, Except.error.injEq] at h
          subst h
          exact ⟨⟨a, b⟩, List.mem_cons_self, hf⟩
      | ok c =>
          cases hrest : mapEntries f entries with
          | ok rest => simp [hf, hrest] at h
          | error e' =>
              simp only [hf, hrest, Except.error.injEq] at h
              subst h
              obtain ⟨entry, hentry, hfail⟩ := ih hrest
              exact ⟨entry, List.mem_cons_of_mem _ hentry, hfail⟩

private theorem of_mapEntries_ok {f : ∀ a, β a → Except ε (γ a)} {entries : List (Sigma β)}
    {entries' : List (Sigma γ)} (h : mapEntries f entries = .ok entries') :
    ∀ entry ∈ entries, ∃ c, f entry.1 entry.2 = .ok c := by
  induction entries generalizing entries' with
  | nil =>
      intro entry hentry
      cases hentry
  | cons first entries ih =>
      obtain ⟨a, b⟩ := first
      unfold mapEntries at h
      cases hf : f a b with
      | error e => simp [hf] at h
      | ok c =>
          cases hrest : mapEntries f entries with
          | error e => simp [hf, hrest] at h
          | ok rest =>
              intro entry hentry
              rcases List.mem_cons.mp hentry with rfl | hentry
              · exact ⟨c, hf⟩
              · exact ih hrest entry hentry

variable [DecidableEq α]

theorem lookup_map (f : ∀ a, β a → γ a) (m : AList β) (a : α) :
    (map f m).lookup a = (m.lookup a).map (f a) := by
  unfold map AList.lookup
  simp only
  induction m.entries with
  | nil => rfl
  | cons entry entries ih =>
      obtain ⟨a', b⟩ := entry
      by_cases ha : a = a'
      · subst ha
        simp [List.dlookup_cons_eq]
      · rw [List.map_cons, List.dlookup_cons_ne _ _ ha, List.dlookup_cons_ne _ _ ha]
        exact ih

private theorem mapEntries_ok {f : ∀ a, β a → Except ε (γ a)} {entries : List (Sigma β)}
    (h : ∀ a b, entries.dlookup a = some b → ∃ c, f a b = .ok c)
    (hnodup : entries.NodupKeys) :
    ∃ entries', mapEntries f entries = .ok entries' ∧ ∀ a,
      (entries.dlookup a = none → entries'.dlookup a = none) ∧
      ∀ b, entries.dlookup a = some b → ∃ c, f a b = .ok c ∧ entries'.dlookup a = some c := by
  induction entries with
  | nil =>
      refine ⟨[], rfl, fun a => ⟨fun _ => rfl, fun b hb => ?_⟩⟩
      cases hb
  | cons entry entries ih =>
      obtain ⟨a', b'⟩ := entry
      obtain ⟨hfresh, hnodup⟩ := List.nodupKeys_cons.mp hnodup
      have hother {a : α} {b : β a} (hb : entries.dlookup a = some b) : a ≠ a' := by
        intro ha
        subst ha
        exact hfresh (List.dlookup_isSome.mp (by rw [hb]; rfl))
      obtain ⟨c', hc'⟩ := h a' b' (List.dlookup_cons_eq _ _ _)
      obtain ⟨rest, hrest, hlookup⟩ := ih (fun a b hb =>
        h a b ((List.dlookup_cons_ne _ _ (hother hb)).trans hb)) hnodup
      refine ⟨⟨a', c'⟩ :: rest, by simp [mapEntries, hc', hrest], fun a => ?_⟩
      by_cases ha : a = a'
      · subst ha
        rw [List.dlookup_cons_eq, List.dlookup_cons_eq]
        refine ⟨fun hnone => ?_, fun b hb => ?_⟩
        · cases hnone
        · obtain rfl := Option.some.inj hb
          exact ⟨c', hc', rfl⟩
      · rw [List.dlookup_cons_ne _ _ ha, List.dlookup_cons_ne _ _ ha]
        exact hlookup a

/-- Where no value fails, the result has the images of the values. -/
theorem mapM_ok {f : ∀ a, β a → Except ε (γ a)} {m : AList β}
    (h : ∀ a b, m.lookup a = some b → ∃ c, f a b = .ok c) :
    ∃ m', mapM f m = .ok m' ∧ ∀ a, (m.lookup a = none → m'.lookup a = none) ∧
      ∀ b, m.lookup a = some b → ∃ c, f a b = .ok c ∧ m'.lookup a = some c := by
  obtain ⟨entries', hentries, hlookup⟩ := mapEntries_ok h m.nodupKeys
  unfold mapM
  split
  · next e herror => simp [herror] at hentries
  · next entries hok =>
    obtain rfl : entries = entries' := Except.ok.inj (hok.symm.trans hentries)
    exact ⟨_, rfl, hlookup⟩

theorem mapM_error {f : ∀ a, β a → Except ε (γ a)} {m : AList β} {e : ε}
    (h : mapM f m = .error e) : ∃ a b, m.lookup a = some b ∧ f a b = .error e := by
  unfold mapM at h
  split at h
  · next e' herror =>
    obtain rfl := Except.error.inj h
    obtain ⟨⟨a, b⟩, hentry, hfail⟩ := mapEntries_error herror
    exact ⟨a, b, (List.mem_dlookup_iff m.nodupKeys).mpr hentry, hfail⟩
  · cases h

theorem of_mapM_ok {f : ∀ a, β a → Except ε (γ a)} {m : AList β} {m' : AList γ}
    (h : mapM f m = .ok m') {a : α} {b : β a} (hb : m.lookup a = some b) :
    ∃ c, f a b = .ok c := by
  unfold mapM at h
  split at h
  · cases h
  · next entries hok =>
    exact of_mapEntries_ok hok ⟨a, b⟩ ((List.mem_dlookup_iff m.nodupKeys).mp hb)

end DependentMap
