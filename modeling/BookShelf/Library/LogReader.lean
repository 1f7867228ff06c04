import Mathlib.Data.List.Basic

/-!
# Readers of a growing log

A reader is called with the result of its query over longer and longer parts of a log, and
ignores an empty result. When an empty result can only come before every other one, what the
reader holds is the decoding of the last result it was called with.
-/

namespace LogReader

variable {α δ β : Type*}

/-- What one call leaves in the reader. -/
def read (decode : List δ → List β) (held : List β) (result : List δ) : List β :=
  if result.isEmpty then held else decode result

/-- The reader was last called with the first `n` entries of the log, `seen = some n`, and holds
the decoding of its query over them. -/
def Current (query : List α → List δ) (decode : List δ → List β) (log : List α)
    (seen : Option Nat) (held : List β) : Prop :=
  match seen with
  | none => held = []
  | some n => n ≤ log.length ∧ held = decode (query (log.take n))

variable {query : List α → List δ} {decode : List δ → List β} {log : List α}
  {seen : Option Nat} {held : List β}

theorem Current.append (h : Current query decode log seen held) (x : α) :
    Current query decode (log ++ [x]) seen held := by
  cases seen with
  | none => exact h
  | some n =>
      obtain ⟨hn, hheld⟩ := h
      refine ⟨by rw [List.length_append]; omega, ?_⟩
      rw [List.take_append_of_le_length hn]
      exact hheld

theorem Current.read (h : Current query decode log seen held) (hdecode : decode [] = [])
    (hquery : ∀ m n, m ≤ n → query (log.take n) = [] → query (log.take m) = [])
    {n : Nat} (hseen : ∀ m ∈ seen, m ≤ n) (hn : n ≤ log.length) :
    Current query decode log (some n) (LogReader.read decode held (query (log.take n))) := by
  refine ⟨hn, ?_⟩
  unfold LogReader.read
  split
  · next hempty =>
    rw [List.isEmpty_iff] at hempty
    rw [hempty, hdecode]
    cases seen with
    | none => exact h
    | some m =>
        rw [h.2, hquery m n (hseen m rfl) hempty, hdecode]
  · rfl

end LogReader
