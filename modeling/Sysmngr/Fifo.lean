import Mathlib.Data.List.Infix
import Mathlib.Tactic.Common

/-!
# Bounded FIFO

A list kept oldest first. `trim n` drops the oldest entries until at most `n`
remain; `push n` appends an entry and trims. What survives is always a suffix of
what was there, so the newest entries in their order.
-/

namespace Sysmngr.Fifo

variable {α : Type}

def trim (n : ℕ) (l : List α) : List α := l.drop (l.length - n)

def push (n : ℕ) (l : List α) (x : α) : List α := trim n (l ++ [x])

theorem trim_suffix (n : ℕ) (l : List α) : trim n l <:+ l := List.drop_suffix ..

theorem trim_length_le (n : ℕ) (l : List α) : (trim n l).length ≤ n := by
  simp only [trim, List.length_drop]
  omega

theorem trim_zero (l : List α) : trim 0 l = [] := by simp [trim]

theorem push_length_le (n : ℕ) (l : List α) (x : α) : (push n l x).length ≤ n :=
  trim_length_le n (l ++ [x])

theorem push_suffix (n : ℕ) (l : List α) (x : α) : push n l x <:+ l ++ [x] :=
  trim_suffix n (l ++ [x])

/-- Making room first is the same as trimming afterwards. -/
theorem push_eq_drop_append (n : ℕ) (l : List α) (x : α) (hn : 0 < n) :
    push n l x = l.drop (l.length + 1 - n) ++ [x] := by
  simp only [push, trim, List.length_append, List.length_singleton]
  exact List.drop_append_of_le_length (by omega)

theorem trim_of_length_le (n : ℕ) (l : List α) (h : l.length ≤ n) : trim n l = l := by
  have hz : l.length - n = 0 := Nat.sub_eq_zero_of_le h
  rw [trim, hz, List.drop_zero]

theorem trim_length (n : ℕ) (l : List α) : (trim n l).length = min l.length n := by
  simp only [trim, List.length_drop]
  omega

/-- What was trimmed before more is appended would have been trimmed afterwards. -/
theorem trim_trim_append (n : ℕ) (l m : List α) : trim n (trim n l ++ m) = trim n (l ++ m) := by
  have hdrop : (trim n l ++ m) = (l ++ m).drop (l.length - n) := by
    rw [trim, List.drop_append_of_le_length (Nat.sub_le _ _)]
  rw [trim, hdrop, List.drop_drop, trim]
  congr 1
  simp only [List.length_drop, List.length_append]
  omega

theorem trim_push_append (n : ℕ) (l m : List α) (x : α) :
    trim n (push n l x ++ m) = trim n (l ++ x :: m) := by
  rw [push, trim_trim_append, List.append_assoc, List.singleton_append]

end Sysmngr.Fifo
