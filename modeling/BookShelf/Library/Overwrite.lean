import Mathlib.Data.List.Induction

/-!
# Overwriting folds

A loop that decodes the items of a list and, for each item that decodes, overwrites one and
the same part of a state. Only the last item that decodes survives such a loop.
-/

namespace Overwrite

variable {α β σ : Type*}

/-- One turn of the loop: an item that does not decode leaves the state alone. -/
def turn (decode : α → Option β) (write : σ → β → σ) (s : σ) (a : α) : σ :=
  match decode a with
  | some b => write s b
  | none => s

variable {decode : α → Option β} {write : σ → β → σ}

theorem foldl_turn_eq_foldl (s : σ) (l : List α) :
    l.foldl (turn decode write) s = (l.filterMap decode).foldl write s := by
  induction l generalizing s with
  | nil => rfl
  | cons a l ih =>
      rw [List.foldl_cons, ih, List.filterMap_cons]
      cases h : decode a <;> simp [turn, h]

/-- When a later write hides an earlier one, the loop leaves the last decodable item. -/
theorem foldl_turn (hwrite : ∀ s b b', write (write s b) b' = write s b') (s : σ) (l : List α) :
    l.foldl (turn decode write) s = ((l.filterMap decode).getLast?).elim s (write s) := by
  rw [foldl_turn_eq_foldl]
  induction l.filterMap decode using List.reverseRecOn with
  | nil => rfl
  | append_singleton bs b ih =>
      rw [List.foldl_append, ih, List.getLast?_concat, List.foldl_cons, List.foldl_nil]
      cases bs.getLast? with
      | none => rfl
      | some b' => exact hwrite s b' b

end Overwrite
