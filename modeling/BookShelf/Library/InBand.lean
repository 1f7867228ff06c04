import Mathlib.Logic.Basic

/-!
# Values encoded in-band

A view shows a placeholder instead of the blank value; an editor takes the placeholder away while
it is open and puts it back when it closes. Whatever was typed comes back out of the view, the
placeholder itself excepted.
-/

/-- The value that stands for nothing, and the one that is shown in its place. -/
structure InBand (α : Type*) where
  blank : α
  placeholder : α
  placeholder_ne_blank : placeholder ≠ blank

/-- What happens to an editor. -/
inductive Edit (α : Type*)
  | beginEditing
  | change (a : α)
  | endEditing
deriving DecidableEq, Repr

structure Editor (α : Type*) where
  text : α
  editing : Bool
deriving DecidableEq, Repr

namespace Editor

variable {α : Type*}

/-- An editor without a placeholder: it holds what was typed last. -/
def next (d : Editor α) : Edit α → Editor α
  | .beginEditing => { d with editing := true }
  | .change a => if d.editing then { d with text := a } else d
  | .endEditing => { d with editing := false }

end Editor

namespace InBand

variable {α : Type*} [DecidableEq α] (C : InBand α)

def decode (shown : α) : α :=
  if shown = C.placeholder then C.blank else shown

def encode (a : α) : α :=
  if a = C.blank then C.placeholder else a

/-- An editor that shows the placeholder. -/
def next (d : Editor α) : Edit α → Editor α
  | .beginEditing => ⟨C.decode d.text, true⟩
  | .change a => d.next (.change a)
  | .endEditing => ⟨C.encode d.text, false⟩

/-- The two editors read the same. -/
def Agrees (shown typed : Editor α) : Prop :=
  C.decode shown.text = C.decode typed.text ∧ shown.editing = typed.editing

@[simp]
theorem decode_placeholder : C.decode C.placeholder = C.blank :=
  if_pos rfl

@[simp]
theorem decode_blank : C.decode C.blank = C.blank :=
  if_neg C.placeholder_ne_blank.symm

theorem decode_of_ne {a : α} (h : a ≠ C.placeholder) : C.decode a = a :=
  if_neg h

@[simp]
theorem decode_decode (a : α) : C.decode (C.decode a) = C.decode a := by
  by_cases h : a = C.placeholder
  · rw [h, decode_placeholder, decode_blank]
  · rw [C.decode_of_ne h, C.decode_of_ne h]

@[simp]
theorem decode_encode (a : α) : C.decode (C.encode a) = C.decode a := by
  unfold encode
  split
  · next h => rw [h, decode_placeholder, decode_blank]
  · rfl

theorem decode_eq_self_iff {a : α} : C.decode a = a ↔ a ≠ C.placeholder := by
  constructor
  · intro h ha
    rw [ha, decode_placeholder] at h
    exact C.placeholder_ne_blank h.symm
  · exact C.decode_of_ne

variable {C}

theorem Agrees.next {shown typed : Editor α} (h : C.Agrees shown typed) (e : Edit α) :
    C.Agrees (C.next shown e) (typed.next e) := by
  obtain ⟨htext, hediting⟩ := h
  cases e with
  | beginEditing => exact ⟨(C.decode_decode _).trans htext, rfl⟩
  | endEditing => exact ⟨(C.decode_encode _).trans htext, rfl⟩
  | change a =>
      simp only [InBand.next, Editor.next, hediting]
      split
      · exact ⟨rfl, rfl⟩
      · exact ⟨htext, hediting⟩

theorem Agrees.foldl {shown typed : Editor α} (h : C.Agrees shown typed) (edits : List (Edit α)) :
    C.Agrees (edits.foldl C.next shown) (edits.foldl Editor.next typed) := by
  induction edits generalizing shown typed with
  | nil => exact h
  | cons e edits ih => exact ih (h.next e)

end InBand
