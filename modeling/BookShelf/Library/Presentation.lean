import Mathlib.Data.List.Chain

/-!
# Modal presentation

A chain of frames, topmost first, in which only the topmost frame may present another one and
only along a fixed relation between kinds of frame. A frame dismisses either whatever it
presents or, when it presents nothing, itself. Frames carry identities that are never reused,
so a callback may name a frame that has long left the chain.
-/

structure Frame (κ : Type*) where
  id : Nat
  kind : κ
deriving DecidableEq, Repr

/-- A chain of presented frames. That every frame was presented by the one below it, and that
identities come from the counter `fresh`, is part of the type. -/
structure Presentation {κ : Type*} (presents : κ → κ → Bool) where
  chain : List (Frame κ)
  fresh : Nat
  below_fresh : ∀ f ∈ chain, f.id < fresh
  linked : chain.IsChain fun upper lower => presents lower.kind upper.kind = true

namespace Presentation

variable {κ : Type*} {presents : κ → κ → Bool}

/-- The chain with one frame, the root of the window. -/
def root (k : κ) : Presentation presents where
  chain := [⟨0, k⟩]
  fresh := 1
  below_fresh := by simp
  linked := List.isChain_singleton _

def top (p : Presentation presents) : Option (Frame κ) :=
  p.chain.head?

theorem linked_push (p : Presentation presents) {self : Frame κ} {k : κ}
    (htop : p.top = some self) (hk : presents self.kind k = true) :
    (⟨p.fresh, k⟩ :: p.chain).IsChain fun upper lower => presents lower.kind upper.kind = true := by
  rw [List.isChain_cons]
  refine ⟨?_, p.linked⟩
  intro lower hlower
  have hself : lower = self := Option.some.inj (hlower.symm.trans htop)
  simpa [hself] using hk

/-- Put a new frame of kind `k` on the topmost frame `self`. -/
def push (p : Presentation presents) (self : Frame κ) (k : κ)
    (h : p.top = some self ∧ presents self.kind k = true) : Presentation presents where
  chain := ⟨p.fresh, k⟩ :: p.chain
  fresh := p.fresh + 1
  below_fresh := by
    intro f hf
    rcases List.mem_cons.mp hf with rfl | hf
    · exact Nat.lt_succ_self _
    · exact Nat.lt_succ_of_lt (p.below_fresh f hf)
  linked := p.linked_push h.1 h.2

/-- Cut the chain down to one of its suffixes. -/
def cut (p : Presentation presents) (chain : List (Frame κ)) (h : chain <:+ p.chain) :
    Presentation presents where
  chain := chain
  fresh := p.fresh
  below_fresh := fun f hf => p.below_fresh f (h.subset hf)
  linked := p.linked.suffix h

variable [DecidableEq κ]

/-- Present a frame of kind `k` from `self`. A frame that already presents another one, or
that has left the chain, presents nothing. -/
def present (p : Presentation presents) (self : Frame κ) (k : κ) : Presentation presents :=
  if h : p.top = some self ∧ presents self.kind k = true then p.push self k h else p

/-- What `self.dismiss` leaves of the chain: the frames from `self` down when `self` presents
something, the frames below `self` when it is the topmost one and not the root. -/
def dismissed (self : Frame κ) : List (Frame κ) → List (Frame κ)
  | [] => []
  | [root] => [root]
  | f :: below => if f = self then below else
      match below.dropWhile (· ≠ self) with
      | [] => f :: below
      | kept => kept

theorem dismissed_cons_cons (self f g : Frame κ) (below : List (Frame κ)) :
    dismissed self (f :: g :: below) = if f = self then g :: below else
      match (g :: below).dropWhile (· ≠ self) with
      | [] => f :: g :: below
      | kept => kept := by
  rw [dismissed]
  simp

theorem dismissed_top (self g : Frame κ) (below : List (Frame κ)) :
    dismissed self (self :: g :: below) = g :: below := by
  rw [dismissed_cons_cons, if_pos rfl]

theorem dismissed_second {self f : Frame κ} (hf : f ≠ self) (below : List (Frame κ)) :
    dismissed self (f :: self :: below) = self :: below := by
  rw [dismissed_cons_cons, if_neg hf, List.dropWhile_cons_of_neg (by simp)]

theorem dismissed_cases (self : Frame κ) (chain : List (Frame κ)) :
    dismissed self chain = chain ∨ chain = self :: dismissed self chain ∨
      ∃ above below, chain = above ++ self :: below ∧ dismissed self chain = self :: below := by
  match chain with
  | [] => exact .inl rfl
  | [root] => exact .inl rfl
  | f :: g :: below =>
      rw [dismissed_cons_cons]
      by_cases hf : f = self
      · rw [if_pos hf, hf]
        exact .inr (.inl rfl)
      · rw [if_neg hf]
        have hsplit := List.takeWhile_append_dropWhile (p := (· ≠ self)) (l := g :: below)
        cases hkept : (g :: below).dropWhile (· ≠ self) with
        | nil => exact .inl rfl
        | cons kept rest =>
            have hk : kept = self := by
              have hhead := List.head?_dropWhile_not (· ≠ self) (g :: below)
              rw [hkept] at hhead
              simpa using hhead
            rw [hkept, hk] at hsplit
            exact .inr (.inr ⟨f :: (g :: below).takeWhile (· ≠ self), rest,
              by rw [List.cons_append, hsplit], by rw [hk]⟩)

theorem dismissed_suffix (self : Frame κ) (chain : List (Frame κ)) :
    dismissed self chain <:+ chain := by
  rcases dismissed_cases self chain with h | h | ⟨above, below, h, hkept⟩
  · exact ⟨[], h⟩
  · exact ⟨[self], h.symm⟩
  · exact ⟨above, by rw [hkept, ← h]⟩

def dismiss (p : Presentation presents) (self : Frame κ) : Presentation presents :=
  p.cut (dismissed self p.chain) (dismissed_suffix self p.chain)

@[simp]
theorem dismiss_chain (p : Presentation presents) (self : Frame κ) :
    (p.dismiss self).chain = dismissed self p.chain :=
  rfl

@[simp]
theorem dismiss_fresh (p : Presentation presents) (self : Frame κ) :
    (p.dismiss self).fresh = p.fresh :=
  rfl

/-- Presenting leaves the chain alone or puts one fresh frame on its topmost frame. -/
theorem present_cases (p : Presentation presents) (self : Frame κ) (k : κ) :
    p.present self k = p ∨
      ∃ h : p.top = some self ∧ presents self.kind k = true,
        p.present self k = p.push self k h := by
  by_cases h : p.top = some self ∧ presents self.kind k = true
  · exact .inr ⟨h, dif_pos h⟩
  · exact .inl (dif_neg h)

theorem present_chain {p : Presentation presents} {self : Frame κ} {k : κ}
    (htop : p.top = some self) (hk : presents self.kind k = true) :
    (p.present self k).chain = ⟨p.fresh, k⟩ :: p.chain := by
  rw [present, dif_pos ⟨htop, hk⟩]
  rfl

variable {K : κ → Prop}

omit [DecidableEq κ] in
/-- A class of kinds that is closed under presenting is never left above one of its members. -/
theorem above_closed (hK : ∀ k k', K k → presents k k' = true → K k')
    {above below : List (Frame κ)} {self : Frame κ} (hself : K self.kind)
    (hlinked : (above ++ self :: below).IsChain fun upper lower =>
      presents lower.kind upper.kind = true) :
    ∀ f ∈ above, K f.kind := by
  induction above with
  | nil => simp
  | cons f above ih =>
      rw [List.cons_append, List.isChain_cons] at hlinked
      have habove := ih hlinked.2
      intro x hx
      rcases List.mem_cons.mp hx with rfl | hx
      · cases above with
        | nil => exact hK _ _ hself (hlinked.1 self rfl)
        | cons g above => exact hK _ _ (habove g (by simp)) (hlinked.1 g rfl)
      · exact habove x hx

theorem exists_popped (hK : ∀ k k', K k → presents k k' = true → K k')
    (p : Presentation presents) {self : Frame κ} (hself : K self.kind) :
    ∃ popped, p.chain = popped ++ (p.dismiss self).chain ∧ ∀ f ∈ popped, K f.kind := by
  rw [dismiss_chain]
  rcases dismissed_cases self p.chain with h | h | ⟨above, below, h, hkept⟩
  · exact ⟨[], by rw [h, List.nil_append], by simp⟩
  · exact ⟨[self], h, by simpa using hself⟩
  · refine ⟨above, by rw [hkept, ← h], ?_⟩
    have hlinked := p.linked
    rw [h] at hlinked
    exact above_closed hK hself hlinked

end Presentation
