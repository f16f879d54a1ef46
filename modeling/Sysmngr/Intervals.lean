import Mathlib.Algebra.Order.Group.Unbundled.Int
import Mathlib.Data.List.Chain
import Mathlib.Tactic.Common

/-!
# Intervals in order, and whole units of time

Intervals that may share an end but no more, and the last multiple of a unit up to an
instant.
-/

namespace Sysmngr.Intervals

section Order
variable {ι α : Type*} [Preorder α] (start finish : ι → α)

def InOrder (l : List ι) : Prop := l.IsChain fun a b => finish a ≤ start b

def Apart (l : List ι) : Prop := l.Pairwise fun a b => finish a ≤ start b

/-- What ends before the next begins ends before every later one begins. -/
theorem InOrder.apart {l : List ι} (h : InOrder start finish l)
    (hle : ∀ a ∈ l, start a ≤ finish a) : Apart start finish l := by
  induction l with
  | nil => exact List.Pairwise.nil
  | cons a l ih =>
    have hrest := ih (List.IsChain.tail h) fun b hb => hle b (List.mem_cons_of_mem _ hb)
    refine List.pairwise_cons.mpr ⟨fun c hc => ?_, hrest⟩
    cases l with
    | nil => exact absurd hc List.not_mem_nil
    | cons b l =>
      have hab : finish a ≤ start b := (List.isChain_cons_cons.mp h).1
      rcases List.mem_cons.mp hc with rfl | hc
      · exact hab
      · have hb : start b ≤ finish b := hle b (List.mem_cons_of_mem _ (List.mem_cons_self ..))
        have hbc : finish b ≤ start c := (List.pairwise_cons.mp hrest).1 c hc
        exact hab.trans (hb.trans hbc)

end Order

/-! ### Whole units -/

def roundDown (unit t : ℤ) : ℤ := t / unit * unit

variable {unit : ℤ} (hunit : 0 < unit)

theorem roundDown_emod (t : ℤ) : roundDown unit t % unit = 0 := Int.mul_emod_left _ _

include hunit

theorem roundDown_le (t : ℤ) : roundDown unit t ≤ t := Int.ediv_mul_le t (ne_of_gt hunit)

theorem roundDown_mono {s t : ℤ} (h : s ≤ t) : roundDown unit s ≤ roundDown unit t :=
  Int.mul_le_mul_of_nonneg_right (Int.ediv_le_ediv hunit h) hunit.le

/-- A whole unit ahead or more, also what is left after rounding lies ahead. -/
theorem lt_roundDown_add (t d : ℤ) (h : unit ≤ d) : t < roundDown unit (t + d) := by
  have hnext : t + d < ((t + d) / unit + 1) * unit := Int.lt_ediv_add_one_mul_self _ hunit
  rw [Int.add_mul, Int.one_mul] at hnext
  unfold roundDown
  omega

theorem roundDown_add_of_dvd (t z : ℤ) (h : z % unit = 0) :
    roundDown unit (t + z) = roundDown unit t + z := by
  obtain ⟨k, rfl⟩ := Int.dvd_of_emod_eq_zero h
  unfold roundDown
  rw [Int.add_mul_ediv_left _ _ (ne_of_gt hunit), Int.add_mul, Int.mul_comm k]

end Sysmngr.Intervals
