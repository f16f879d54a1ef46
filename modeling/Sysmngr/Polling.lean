import Mathlib.Tactic.Common
import Mathlib.Tactic.Linarith

/-!
# Polling while the time lasts

Checks are made one after another, each at its own time and a pause apart, until one of
them succeeds or there is no time for another one. The outcome says which check that is;
it is unique, and with a clock that the pauses advance it is reached.
-/

namespace Sysmngr.Polling

/-- The result and the time of each check, until when there is time, and the pause. -/
structure Poll where
  found : ℕ → Bool
  now : ℕ → ℤ
  inTime : ℤ → Bool
  pause : ℤ

/-- Check `k` succeeds, the time is up before it, or it fails and there is no time for
another one. -/
inductive Outcome where
  | found (k : ℕ)
  | closed (k : ℕ)
  | late (k : ℕ)
  deriving DecidableEq

def Outcome.last : Outcome → ℕ
  | .found k | .closed k | .late k => k

def Outcome.checks (k : ℕ) : Outcome → ℕ
  | .found j | .late j => j + 1 - k
  | .closed j => j - k

namespace Poll

/-- The outcome of at most `rounds` rounds, the next check being the one numbered `k`. -/
def outcome (p : Poll) : ℕ → ℕ → Option Outcome
  | 0, _ => none
  | rounds + 1, k =>
    if p.inTime (p.now k) then
      if p.found k then some (.found k)
      else if p.inTime (p.now k + p.pause) then p.outcome rounds (k + 1)
      else some (.late k)
    else some (.closed k)

variable (p : Poll)

def Waits (k : ℕ) : Prop :=
  p.inTime (p.now k) = true ∧ p.found k = false ∧ p.inTime (p.now k + p.pause) = true

def Ends : Outcome → Prop
  | .found k => p.inTime (p.now k) = true ∧ p.found k = true
  | .closed k => p.inTime (p.now k) = false
  | .late k => p.inTime (p.now k) = true ∧ p.found k = false ∧
      p.inTime (p.now k + p.pause) = false

/-- From check `k` on it is waited as far as the outcome `o`. -/
structure Reaches (k : ℕ) (o : Outcome) : Prop where
  le : k ≤ o.last
  waits : ∀ i, k ≤ i → i < o.last → p.Waits i
  ends : p.Ends o

/-! ### Outcomes -/

theorem outcome_wait (rounds k : ℕ) (h : p.Waits k) :
    p.outcome (rounds + 1) k = p.outcome rounds (k + 1) := by
  obtain ⟨hopen, hfound, hpause⟩ := h
  simp only [outcome, hopen, hfound, hpause, if_true, Bool.false_eq_true, if_false]

theorem outcome_end (rounds k : ℕ) (h : ¬p.Waits k) :
    ∃ o, p.outcome (rounds + 1) k = some o ∧ o.last = k ∧ p.Ends o := by
  rw [outcome]
  cases hopen : p.inTime (p.now k) with
  | false => exact ⟨_, rfl, rfl, hopen⟩
  | true =>
    cases hfound : p.found k with
    | true => exact ⟨_, rfl, rfl, hopen, hfound⟩
    | false =>
      cases hpause : p.inTime (p.now k + p.pause) with
      | true => exact absurd ⟨hopen, hfound, hpause⟩ h
      | false => exact ⟨_, rfl, rfl, hopen, hfound, hpause⟩

theorem ends_not_waits (o : Outcome) (h : p.Ends o) : ¬p.Waits o.last := by
  rintro ⟨hopen, hfound, hpause⟩
  cases o with
  | found k => exact absurd (h.2.symm.trans hfound) (by decide)
  | closed k => exact absurd (hopen.symm.trans h) (by decide)
  | late k => exact absurd (hpause.symm.trans h.2.2) (by decide)

theorem ends_unique (o o' : Outcome) (hlast : o.last = o'.last) (h : p.Ends o) (h' : p.Ends o') :
    o = o' := by
  cases o <;> cases o' <;> simp only [Outcome.last] at hlast <;> subst hlast <;>
    simp_all [Ends]

theorem reaches_of_outcome (rounds k : ℕ) (o : Outcome) (h : p.outcome rounds k = some o) :
    p.Reaches k o ∧ o.last < k + rounds := by
  induction rounds generalizing k with
  | zero => exact absurd h (by simp [outcome])
  | succ rounds ih =>
    by_cases hwaits : p.Waits k
    · rw [outcome_wait p rounds k hwaits] at h
      obtain ⟨⟨hle, hall, hends⟩, hlt⟩ := ih (k + 1) h
      refine ⟨⟨by omega, fun i hi hlast => ?_, hends⟩, by omega⟩
      rcases Nat.eq_or_lt_of_le hi with rfl | hlt'
      · exact hwaits
      · exact hall i hlt' hlast
    · obtain ⟨o', hout, hlast, hends⟩ := outcome_end p rounds k hwaits
      obtain rfl := Option.some.inj (hout.symm.trans h)
      exact ⟨⟨by omega, fun i hi hi' => absurd hi' (by omega), hends⟩, by omega⟩

theorem outcome_of_reaches (rounds k : ℕ) (o : Outcome) (h : p.Reaches k o)
    (hlt : o.last < k + rounds) : p.outcome rounds k = some o := by
  obtain ⟨hle, hall, hends⟩ := h
  induction rounds generalizing k with
  | zero => omega
  | succ rounds ih =>
    by_cases hlast : o.last = k
    · obtain ⟨o', hout, hlast', hends'⟩ :=
        outcome_end p rounds k (hlast ▸ ends_not_waits p o hends)
      rw [hout, ends_unique p o' o (hlast'.trans hlast.symm) hends' hends]
    · rw [outcome_wait p rounds k (hall k (Nat.le_refl k) (by omega))]
      exact ih (k + 1) (by omega) (by omega) fun i hi => hall i (by omega)

/-! ### Deadlines -/

section Deadline
variable (hpause : ∀ i, p.Waits i → p.now i + p.pause ≤ p.now (i + 1))
include hpause

/-- Every wait advances the clock by a pause at least. -/
theorem now_le_of_waits (k n : ℕ) (h : ∀ i, k ≤ i → i < k + n → p.Waits i) :
    p.now k + p.pause * n ≤ p.now (k + n) := by
  induction n with
  | zero => simp
  | succ n ih =>
    have hnow := ih fun i hi hlt => h i hi (by omega)
    have hnext := hpause (k + n) (h (k + n) (by omega) (by omega))
    rw [Nat.add_assoc] at hnext
    push_cast
    linarith

variable (deadline : ℤ) (hdeadline : ∀ t, p.inTime t = true ↔ t < deadline)
include hdeadline

theorem outcome_isSome (rounds k : ℕ) (hk : deadline ≤ p.now k + p.pause * rounds) :
    ∃ o, p.outcome (rounds + 1) k = some o := by
  induction rounds generalizing k with
  | zero =>
    obtain ⟨o, hout, -, -⟩ := outcome_end p 0 k fun hwaits => by
      have hlt := (hdeadline _).mp hwaits.1
      simp at hk
      omega
    exact ⟨o, hout⟩
  | succ rounds ih =>
    by_cases hwaits : p.Waits k
    · rw [outcome_wait p (rounds + 1) k hwaits]
      refine ih (k + 1) ?_
      have hnext := hpause k hwaits
      push_cast at hk
      linarith
    · obtain ⟨o, hout, -, -⟩ := outcome_end p (rounds + 1) k hwaits
      exact ⟨o, hout⟩

/-- The check before the last one, if there is one, is made before the deadline. -/
theorem checks_lt (k c : ℕ) (o : Outcome) (ho : p.Reaches k o) (hc : o.checks k = c + 1) :
    p.now k + p.pause * c < deadline := by
  obtain ⟨hle, hall, hends⟩ := ho
  have hopen : p.inTime (p.now (k + c)) = true := by
    cases o with
    | found j =>
      have hj : j = k + c := by simp only [Outcome.checks, Outcome.last] at hc hle; omega
      exact hj ▸ hends.1
    | closed j =>
      simp only [Outcome.checks] at hc
      exact (hall (k + c) (by omega) (by simp only [Outcome.last]; omega)).1
    | late j =>
      have hj : j = k + c := by simp only [Outcome.checks, Outcome.last] at hc hle; omega
      exact hj ▸ hends.1
  have hlast : k + c ≤ o.last := by
    cases o <;> simp only [Outcome.checks, Outcome.last] at hc ⊢ <;> omega
  have hnow := now_le_of_waits p hpause k c
    fun i hi hlt => hall i hi (by omega)
  exact lt_of_le_of_lt hnow ((hdeadline _).mp hopen)

end Deadline

end Poll

end Sysmngr.Polling
