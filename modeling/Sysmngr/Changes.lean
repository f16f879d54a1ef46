import Mathlib.Algebra.Order.Interval.Finset.SuccPred
import Mathlib.Data.Finset.Image
import Mathlib.Data.Nat.SuccPred
import Mathlib.Order.Interval.Finset.Nat

/-!
# Announced changes of a set

Additions and deletions replayed in order; adding what is there or deleting what is
not is an error. Numbered elements are kept as the first numbers: growing adds the next
ones upwards, shrinking deletes the last ones downwards.
-/

namespace Sysmngr.Changes

variable {α : Type} [DecidableEq α]

inductive Change (α : Type) where
  | add (a : α)
  | del (a : α)
  deriving DecidableEq, Repr

def apply (s : Finset α) : Change α → Option (Finset α)
  | .add a => if a ∈ s then none else some (insert a s)
  | .del a => if a ∈ s then some (s.erase a) else none

def replay (s : Finset α) (changes : List (Change α)) : Option (Finset α) :=
  changes.foldlM apply s

theorem replay_append (s : Finset α) (as bs : List (Change α)) :
    replay s (as ++ bs) = (replay s as).bind fun t => replay t bs :=
  List.foldlM_append ..

/-- The first `n` of the numbered elements, from 1. -/
def firsts (name : ℕ → α) (n : ℕ) : Finset α := (Finset.Icc 1 n).image name

theorem firsts_succ (name : ℕ → α) (n : ℕ) :
    firsts name (n + 1) = insert (name (n + 1)) (firsts name n) := by
  unfold firsts
  rw [← Finset.insert_Icc_right_eq_Icc_add_one (by omega), Finset.image_insert]

theorem mem_firsts (name : ℕ → α) (bound : ℕ) (hname : Set.InjOn name (Set.Iic bound)) (i n : ℕ)
    (hi : i ≤ bound) (hn : n ≤ bound) : name i ∈ firsts name n ↔ 1 ≤ i ∧ i ≤ n := by
  simp only [firsts, Finset.mem_image, Finset.mem_Icc]
  constructor
  · rintro ⟨j, hj, heq⟩
    have hjn : j ≤ bound := hj.2.trans hn
    rw [← hname hjn hi heq]
    exact hj
  · exact fun h => ⟨i, h, rfl⟩

theorem replay_grow (name : ℕ → α) (bound : ℕ) (hname : Set.InjOn name (Set.Iic bound)) (m k : ℕ)
    (h : m + k ≤ bound) :
    replay (firsts name m) ((List.range k).map fun i => .add (name (m + i + 1))) =
      some (firsts name (m + k)) := by
  induction k with
  | zero => rfl
  | succ k ih =>
    have hnew : name (m + k + 1) ∉ firsts name (m + k) := by
      rw [mem_firsts name bound hname _ _ (by omega) (by omega)]
      omega
    rw [List.range_succ, List.map_append, replay_append, ih (by omega), Option.bind_some]
    change (apply (firsts name (m + k)) (.add (name (m + k + 1)))).bind some = _
    rw [apply, if_neg hnew, Option.bind_some, ← firsts_succ, Nat.add_assoc]

theorem replay_shrink (name : ℕ → α) (bound : ℕ) (hname : Set.InjOn name (Set.Iic bound))
    (m k : ℕ) (hm : m ≤ bound) (hk : k ≤ m) :
    replay (firsts name m) ((List.range k).map fun i => .del (name (m - i))) =
      some (firsts name (m - k)) := by
  induction k with
  | zero => rfl
  | succ k ih =>
    obtain ⟨n, hn⟩ : ∃ n, m - k = n + 1 := ⟨m - k - 1, by omega⟩
    have hlast : name (n + 1) ∈ firsts name (n + 1) := by
      rw [mem_firsts name bound hname _ _ (by omega) (by omega)]
      omega
    have hnew : name (n + 1) ∉ firsts name n := by
      rw [mem_firsts name bound hname _ _ (by omega) (by omega)]
      omega
    have hrest : m - (k + 1) = n := by omega
    rw [List.range_succ, List.map_append, replay_append, ih (by omega), Option.bind_some, hn, hrest]
    change (apply (firsts name (n + 1)) (.del (name (m - k)))).bind some = _
    rw [hn, apply, if_pos hlast, Option.bind_some, firsts_succ, Finset.erase_insert hnew]

end Sysmngr.Changes
