import Mathlib.Data.List.Perm.Subperm

/-!
# The first `n` of a collection

A part of a collection that has all there is up to `n` elements, and of which every element comes
before all the elements left out. The order of the lists plays no role, so that the last `n`
elements are the first `n` of the opposite order.
-/

namespace Limit

variable {α : Type*}

def Keeps (before : α → α → Prop) (n : Nat) (kept all : List α) : Prop :=
  kept.length = min n all.length ∧
    ∃ rest, (kept ++ rest).Perm all ∧ ∀ a ∈ kept, ∀ b ∈ rest, before a b

variable {before : α → α → Prop} {n : Nat}

theorem keeps_take {all : List α} (h : all.Pairwise before) :
    Keeps before n (all.take n) all := by
  refine ⟨List.length_take, all.drop n, by rw [List.take_append_drop], ?_⟩
  rw [← List.take_append_drop n all] at h
  exact (List.pairwise_append.mp h).2.2

theorem keeps_drop {all : List α} (h : all.Pairwise before) :
    Keeps (fun a b => before b a) n (all.drop (all.length - n)) all := by
  refine ⟨by rw [List.length_drop]; omega, all.take (all.length - n), ?_, ?_⟩
  · refine List.perm_append_comm.trans ?_
    rw [List.take_append_drop]
  · rw [← List.take_append_drop (all.length - n) all] at h
    intro a ha b hb
    exact (List.pairwise_append.mp h).2.2 b hb a ha

theorem Keeps.of_perm {kept all all' : List α} (h : Keeps before n kept all)
    (hperm : all.Perm all') : Keeps before n kept all' := by
  obtain ⟨hlength, rest, hrest, hbefore⟩ := h
  exact ⟨hperm.length_eq ▸ hlength, rest, hrest.trans hperm, hbefore⟩

/-- When `n` elements satisfy a condition that carries over to earlier ones, so do the first
`n`. -/
theorem Keeps.forall_of_countP {kept all : List α} {p : α → Bool}
    (h : Keeps before n kept all) (hp : ∀ a b, before a b → p b = true → p a = true)
    (hn : n ≤ all.countP p) {a : α} (ha : a ∈ kept) : p a = true := by
  obtain ⟨hlength, rest, hperm, hbefore⟩ := h
  by_contra hna
  have hrest : rest.countP p = 0 := by
    rw [List.countP_eq_zero]
    intro b hb hpb
    exact hna (hp a b (hbefore a ha b hb) hpb)
  have hkept : kept.countP p < kept.length := by
    refine Nat.lt_of_le_of_ne List.countP_le_length ?_
    intro heq
    exact hna (List.countP_eq_length.mp heq a ha)
  rw [← hperm.countP_eq, List.countP_append, hrest] at hn
  omega

private theorem Keeps.subset {kept kept' all : List α} (hnodup : all.Nodup)
    (hasymm : ∀ a b, before a b → ¬ before b a) (h : Keeps before n kept all)
    (h' : Keeps before n kept' all) : kept ⊆ kept' := by
  obtain ⟨hlength, rest, hperm, hbefore⟩ := h
  obtain ⟨hlength', rest', hperm', hbefore'⟩ := h'
  have hnodup' : kept'.Nodup := (List.nodup_append.mp (hperm'.nodup_iff.mpr hnodup)).1
  by_contra hsub
  obtain ⟨a, ha, ha'⟩ : ∃ a ∈ kept, a ∉ kept' := by simpa [List.subset_def] using hsub
  have harest : a ∈ rest' := by
    have hmem := (hperm.trans hperm'.symm).mem_iff.mp (List.mem_append_left rest ha)
    exact (List.mem_append.mp hmem).resolve_left ha'
  have hother : ¬ kept' ⊆ kept := by
    intro hsub'
    have hsame := (hnodup'.subperm hsub').perm_of_length_le (by omega)
    exact ha' (hsame.mem_iff.mpr ha)
  obtain ⟨b, hb, hb'⟩ : ∃ b ∈ kept', b ∉ kept := by simpa [List.subset_def] using hother
  have hbrest : b ∈ rest := by
    have hmem := (hperm'.trans hperm.symm).mem_iff.mp (List.mem_append_left rest' hb)
    exact (List.mem_append.mp hmem).resolve_left hb'
  exact hasymm a b (hbefore a ha b hbrest) (hbefore' b hb a harest)

/-- There is only one such part. -/
theorem Keeps.perm {kept kept' all : List α} (hnodup : all.Nodup)
    (hasymm : ∀ a b, before a b → ¬ before b a) (h : Keeps before n kept all)
    (h' : Keeps before n kept' all) : kept.Perm kept' := by
  have hkept : kept.Nodup := by
    obtain ⟨-, rest, hperm, -⟩ := h
    exact (List.nodup_append.mp (hperm.nodup_iff.mpr hnodup)).1
  have hsubperm := hkept.subperm (h.subset hnodup hasymm h')
  exact hsubperm.perm_of_length_le (Nat.le_of_eq (h'.1.trans h.1.symm))

/-- The first `n` of a part are the first `n` of the whole when they come before the rest of the
whole, unless the part is smaller than `n`. -/
theorem Keeps.append {kept part more all : List α} (h : Keeps before n kept part)
    (hperm : (part ++ more).Perm all) (hmore : ∀ a ∈ kept, ∀ b ∈ more, before a b)
    (hsize : more ≠ [] → n ≤ part.length) : Keeps before n kept all := by
  obtain ⟨hlength, rest, hpart, hbefore⟩ := h
  constructor
  · rw [hlength, ← hperm.length_eq, List.length_append]
    by_cases hnil : more = []
    · rw [hnil, List.length_nil, Nat.add_zero]
    · have hn := hsize hnil
      omega
  · refine ⟨rest ++ more, ?_, ?_⟩
    · rw [← List.append_assoc]
      exact (hpart.append_right more).trans hperm
    · intro a ha b hb
      rcases List.mem_append.mp hb with hb | hb
      · exact hbefore a ha b hb
      · exact hmore a ha b hb

end Limit
