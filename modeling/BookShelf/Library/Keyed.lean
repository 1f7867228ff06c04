import Mathlib.Data.List.Perm.Basic
import Mathlib.Data.List.Nodup

/-!
# Keyed collections

A list of records with distinct keys, read as a finite map from keys to records. Two such lists
with the same records are the same map, in whatever order they keep them.
-/

namespace Keyed

variable {α κ : Type*} (key : α → κ)

def Distinct (l : List α) : Prop :=
  (l.map key).Nodup

theorem Distinct.perm {key : α → κ} {l l' : List α} (h : Distinct key l) (hperm : l.Perm l') :
    Distinct key l' :=
  (hperm.map key).nodup_iff.mp h

theorem Distinct.sublist {key : α → κ} {l l' : List α} (h : Distinct key l)
    (hsub : l'.Sublist l) : Distinct key l' :=
  List.Nodup.sublist (hsub.map key) h

theorem Distinct.nodup {key : α → κ} {l : List α} (h : Distinct key l) : l.Nodup :=
  List.Nodup.of_map key h

variable [DecidableEq κ]

def lookup (l : List α) (k : κ) : Option α :=
  l.find? fun a => key a = k

def erase (l : List α) (k : κ) : List α :=
  l.filter fun a => key a ≠ k

instance (l : List α) : Decidable (Distinct key l) :=
  inferInstanceAs (Decidable (l.map key).Nodup)

variable {key}

theorem lookup_nil (k : κ) : lookup key [] k = none :=
  rfl

theorem lookup_cons (a : α) (l : List α) (k : κ) :
    lookup key (a :: l) k = if key a = k then some a else lookup key l k := by
  unfold lookup
  rw [List.find?_cons]
  by_cases h : key a = k <;> simp [h]

theorem mem_of_lookup {l : List α} {k : κ} {a : α} (h : lookup key l k = some a) : a ∈ l :=
  List.mem_of_find?_eq_some h

theorem key_of_lookup {l : List α} {k : κ} {a : α} (h : lookup key l k = some a) : key a = k := by
  simpa using List.find?_some h

theorem lookup_eq_none {l : List α} {k : κ} :
    lookup key l k = none ↔ ∀ a ∈ l, key a ≠ k := by
  simp [lookup]

theorem lookup_of_mem {l : List α} (h : Distinct key l) {a : α} (ha : a ∈ l) :
    lookup key l (key a) = some a := by
  induction l with
  | nil => cases ha
  | cons b l ih =>
      rw [lookup_cons]
      obtain ⟨hb, hl⟩ := List.nodup_cons.mp h
      rcases List.mem_cons.mp ha with rfl | ha
      · rw [if_pos rfl]
      · rw [if_neg, ih hl ha]
        intro heq
        exact hb (heq ▸ List.mem_map_of_mem ha)

theorem lookup_eq_some {l : List α} (h : Distinct key l) {k : κ} {a : α} :
    lookup key l k = some a ↔ a ∈ l ∧ key a = k := by
  constructor
  · intro hlookup
    exact ⟨mem_of_lookup hlookup, key_of_lookup hlookup⟩
  · rintro ⟨ha, rfl⟩
    exact lookup_of_mem h ha

theorem lookup_perm {l l' : List α} (h : Distinct key l) (hperm : l.Perm l') :
    lookup key l' = lookup key l := by
  funext k
  apply Option.ext
  intro a
  rw [lookup_eq_some h, lookup_eq_some (h.perm hperm), hperm.mem_iff]

/-- Two collections with the same lookups have the same records. -/
theorem perm_of_lookup {l l' : List α} (h : Distinct key l) (h' : Distinct key l')
    (hlookup : ∀ k, lookup key l k = lookup key l' k) : l.Perm l' := by
  rw [List.perm_ext_iff_of_nodup h.nodup h'.nodup]
  intro a
  constructor
  · intro ha
    exact mem_of_lookup ((hlookup _).symm.trans (lookup_of_mem h ha))
  · intro ha
    exact mem_of_lookup ((hlookup _).trans (lookup_of_mem h' ha))

theorem lookup_append (l l' : List α) (k : κ) :
    lookup key (l ++ l') k = (lookup key l k).or (lookup key l' k) :=
  List.find?_append

theorem lookup_map {β : Type*} {key' : β → κ} (f : α → β) (hf : ∀ a, key' (f a) = key a)
    (l : List α) (k : κ) : lookup key' (l.map f) k = (lookup key l k).map f := by
  induction l with
  | nil => rfl
  | cons a l ih =>
      rw [List.map_cons, lookup_cons, lookup_cons, ih, hf]
      by_cases ha : key a = k
      · rw [if_pos ha, if_pos ha, Option.map_some]
      · rw [if_neg ha, if_neg ha]

theorem lookup_filter {l : List α} (h : Distinct key l) (p : α → Bool) (k : κ) :
    lookup key (l.filter p) k = (lookup key l k).filter p := by
  apply Option.ext
  intro a
  rw [lookup_eq_some (h.sublist List.filter_sublist), Option.filter_eq_some_iff, lookup_eq_some h,
    List.mem_filter]
  exact and_right_comm

theorem erase_sublist (l : List α) (k : κ) : (erase key l k).Sublist l :=
  List.filter_sublist

theorem mem_erase {l : List α} {k : κ} {a : α} : a ∈ erase key l k ↔ a ∈ l ∧ key a ≠ k := by
  simp [erase]

theorem lookup_erase (l : List α) (k k' : κ) :
    lookup key (erase key l k) k' = if k' = k then none else lookup key l k' := by
  induction l with
  | nil => simp [erase, lookup_nil]
  | cons a l ih =>
      unfold erase at ih ⊢
      by_cases ha : key a = k
      · rw [List.filter_cons_of_neg (by simpa using ha), ih, lookup_cons, ha]
        by_cases hk : k' = k
        · rw [if_pos hk, if_pos hk]
        · rw [if_neg hk, if_neg hk, if_neg (Ne.symm hk)]
      · rw [List.filter_cons_of_pos (by simpa using ha), lookup_cons, lookup_cons, ih]
        by_cases hk : key a = k'
        · rw [if_pos hk, if_pos hk, if_neg (hk ▸ ha)]
        · rw [if_neg hk, if_neg hk]

theorem erase_eq_self {l : List α} {k : κ} (h : lookup key l k = none) : erase key l k = l := by
  rw [erase, List.filter_eq_self]
  intro a ha
  simpa using lookup_eq_none.mp h a ha

theorem not_mem_erase (l : List α) (k : κ) : k ∉ (erase key l k).map key := by
  intro hk
  obtain ⟨a, ha, hak⟩ := List.mem_map.mp hk
  exact (mem_erase.mp ha).2 hak

theorem distinct_insert {l l' : List α} (h : Distinct key l) {a : α}
    (hperm : l'.Perm (a :: erase key l (key a))) : Distinct key l' := by
  refine Distinct.perm ?_ hperm.symm
  exact List.nodup_cons.mpr ⟨not_mem_erase l _, h.sublist (erase_sublist l _)⟩

theorem lookup_insert {l l' : List α} (h : Distinct key l) {a : α}
    (hperm : l'.Perm (a :: erase key l (key a))) (k : κ) :
    lookup key l' k = if k = key a then some a else lookup key l k := by
  rw [lookup_perm ((distinct_insert h hperm).perm hperm) hperm.symm, lookup_cons, lookup_erase]
  by_cases hk : k = key a
  · rw [if_pos hk, if_pos hk.symm, if_pos hk]
  · rw [if_neg hk, if_neg (Ne.symm hk), if_neg hk]

theorem erase_cons {a : α} {l : List α} (h : Distinct key (a :: l)) :
    erase key (a :: l) (key a) = l := by
  have ha : lookup key l (key a) = none := by
    rw [lookup_eq_none]
    intro b hb hkey
    exact (List.nodup_cons.mp h).1 (hkey ▸ List.mem_map_of_mem hb)
  rw [erase, List.filter_cons_of_neg (by simp)]
  exact erase_eq_self ha

theorem erase_concat {a : α} {l : List α} (h : Distinct key (l ++ [a])) :
    erase key (l ++ [a]) (key a) = l := by
  have ha : lookup key l (key a) = none := by
    rw [lookup_eq_none]
    intro b hb hkey
    have hdistinct : Distinct key (a :: l) := h.perm List.perm_append_comm
    exact (List.nodup_cons.mp hdistinct).1 (hkey ▸ List.mem_map_of_mem hb)
  have hlast : erase key [a] (key a) = [] := by simp [erase]
  have happend : erase key (l ++ [a]) (key a) = erase key l (key a) ++ erase key [a] (key a) :=
    List.filter_append _ _
  rw [happend, hlast, List.append_nil, erase_eq_self ha]

end Keyed
