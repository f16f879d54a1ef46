import Sysmngr.Monitor.Automaton
import Sysmngr.Monitor.Meminfo

/-!
# Readings of any `/proc/meminfo`

A value that is not found stays 0, the difference of total and spare memory wraps, and
nothing is checked before the division: without a MemTotal it traps, with more spare than
total memory the percentage is what the wrapped product leaves. The monitor of the CPU
replaces a total of 0 before it divides.
-/

namespace Sysmngr.Monitor
open Text Lines

/-! ### Events -/

def isEvent : Effect → Bool
  | .event _ _ => true
  | _ => false

def sent (effects : List Effect) : List Effect := effects.filter isEvent

theorem sent_append (a b : List Effect) : sent (a ++ b) = sent a ++ sent b :=
  List.filter_append a b

theorem sent_criticalLog (n : Names) (c : Ctx) (critical : Bool) :
    sent (criticalLog n c critical) = [] := by
  unfold criticalLog
  split <;> rfl

/-- Nothing but a rise sends an event, and that carries the utilisation polled. -/
theorem sent_render (n : Names) (event : ℕ → Effect) (c : Ctx) (p : Poll)
    (e : Option Hysteresis.Edge) (x : Effect) (hx : x ∈ sent (render n event c p e)) : x = event p.utilization := by
  rcases e with _ | _ | _
  · exact absurd hx List.not_mem_nil
  · rw [render_rise, sent_append, sent_append, sent_criticalLog, List.append_nil, List.mem_append] at hx
    rcases hx with hx | hx
    · exact absurd hx List.not_mem_nil
    · exact List.mem_singleton.mp (List.mem_filter.mp hx).1
  · rw [render_fall, sent_append, sent_criticalLog, List.append_nil] at hx
    exact absurd hx List.not_mem_nil

theorem runMonitor_sent (n : Names) (event : ℕ → Effect) (m : State) (p : Poll) (x : Effect)
    (hx : x ∈ sent (runMonitor n event m p.utilization p.riseNow p.fallNow).2) :
    x = event p.utilization := by
  rw [runMonitor, sent_append, sent_append, List.mem_append, List.mem_append] at hx
  rcases hx with (hx | hx) | hx
  · rcases checkRise_cases n event m p with ⟨-, hrise⟩ | ⟨-, hrise⟩
    · rw [hrise] at hx
      exact sent_render n event m.ctx p (some .rise) x hx
    · rw [hrise] at hx
      exact absurd hx List.not_mem_nil
  · rcases checkFall_cases n event (checkRise n event m p.utilization p.riseNow).1 p with
      ⟨-, hfall⟩ | ⟨-, hfall⟩
    · rw [hfall] at hx
      exact sent_render n event _ p (some .fall) x hx
    · rw [hfall] at hx
      exact absurd hx List.not_mem_nil
  · exact absurd hx List.not_mem_nil

/-! ### Any reading -/

section Width
variable (w : ℕ)

/-- The division is by a number other than 0, and neither its result nor an event the
monitor sends because of it is beyond 100. -/
structure SoundReading (content : Option Str) : Prop where
  value : ∃ u ≤ 100, memoryUtilization w content = some u
  events : ∀ (m : State) (p : Poll), memoryUtilization w content = some p.utilization →
    ∀ e ∈ sent (runMonitor memoryNames memoryCriticalStateEvent m p.utilization p.riseNow
      p.fallNow).2, ∃ v ≤ 100, e = memoryCriticalStateEvent v

variable {w}

/-- The memory that is not used for programs, added up in `w` bits. -/
def Info.spare (info : Info w) : ℕ :=
  (info.memFree + info.buffers + info.cached + info.sreclaimable).toNat

/-- The total is not 0 and not below the spare memory, or what the wrapped difference
leaves happens to be small. -/
def Plausible (info : Info w) : Prop :=
  info.memTotal.toNat ≠ 0 ∧ (info.spare ≤ info.memTotal.toNat ∨
    (2 ^ w + info.memTotal.toNat - info.spare) * 100 % 2 ^ w % (info.memTotal.toNat * 2 ^ 32) <
      101 * info.memTotal.toNat)

theorem div_mod_le_iff (x t : ℕ) (ht : 0 < t) :
    x / t % 2 ^ 32 ≤ 100 ↔ x % (t * 2 ^ 32) < 101 * t := by
  rw [← Nat.mod_mul_right_div_self, ← Nat.lt_succ_iff, Nat.div_lt_iff_lt_mul ht]

theorem utilization_sound_iff (info : Info w) :
    (∃ u ≤ 100, info.utilization = some u) ↔ Plausible info := by
  have hspare : info.spare < 2 ^ w := BitVec.isLt _
  have htotal : info.memTotal.toNat < 2 ^ w := BitVec.isLt _
  rw [utilization_toNat info info.memTotal.toNat info.spare rfl rfl, Plausible]
  by_cases hzero : info.memTotal.toNat = 0
  · rw [if_pos hzero]
    refine iff_of_false ?_ fun h => h.1 hzero
    rintro ⟨u, _, hu⟩
    exact absurd hu.symm (Option.some_ne_none u)
  · have hpos : 0 < info.memTotal.toNat := Nat.pos_of_ne_zero hzero
    have hsome : ∀ x : ℕ, (∃ u ≤ 100, some x = some u) ↔ x ≤ 100 :=
      fun x => ⟨fun ⟨u, hu, hxu⟩ => Option.some.inj hxu ▸ hu, fun hx => ⟨x, hx, rfl⟩⟩
    rw [if_neg hzero, hsome, div_mod_le_iff _ _ hpos, and_iff_right hzero]
    -- the difference wraps exactly if there is more spare than total memory
    by_cases hle : info.spare ≤ info.memTotal.toNat
    · refine iff_of_true ?_ (Or.inl hle)
      have hused : (2 ^ w + info.memTotal.toNat - info.spare) % 2 ^ w =
          info.memTotal.toNat - info.spare := by
        rw [Nat.add_sub_assoc hle, Nat.add_mod_left, Nat.mod_eq_of_lt (by omega)]
      rw [hused]
      calc (info.memTotal.toNat - info.spare) * 100 % 2 ^ w % (info.memTotal.toNat * 2 ^ 32)
          ≤ (info.memTotal.toNat - info.spare) * 100 % 2 ^ w := Nat.mod_le _ _
        _ ≤ (info.memTotal.toNat - info.spare) * 100 := Nat.mod_le _ _
        _ < 101 * info.memTotal.toNat := by omega
    · have hused : (2 ^ w + info.memTotal.toNat - info.spare) % 2 ^ w =
          2 ^ w + info.memTotal.toNat - info.spare := Nat.mod_eq_of_lt (by omega)
      rw [hused, or_iff_right hle]

variable (w)

/-- Whatever the file holds, its reading is sound exactly when it cannot be opened or the
values found in it are plausible. -/
theorem soundReading_iff (content : Option Str) :
    SoundReading w content ↔ ∀ info ∈ sysmngrMeminfo w content, Plausible info := by
  have hvalue : (∃ u ≤ 100, memoryUtilization w content = some u) ↔
      ∀ info ∈ sysmngrMeminfo w content, Plausible info := by
    unfold memoryUtilization
    cases sysmngrMeminfo w content with
    | none => exact iff_of_true ⟨0, Nat.zero_le _, rfl⟩ fun _ h => absurd h (by simp)
    | some info =>
      simp only [Option.mem_some_iff, forall_eq']
      exact utilization_sound_iff info
  constructor
  · intro h
    exact hvalue.mp h.value
  · intro h
    obtain ⟨u, hu, hutil⟩ := hvalue.mpr h
    refine ⟨⟨u, hu, hutil⟩, fun m p hp e he => ⟨p.utilization, ?_, runMonitor_sent _ _ m p e he⟩⟩
    rw [hutil] at hp
    rw [← Option.some.inj hp]
    exact hu

end Width

/-- More free than total memory, as a container may present it. -/
def moreFree : Str := "MemTotal: 1 kB\nMemFree: 2 kB\n".toList

theorem wrapped_reading_unsound : ¬∀ (w : ℕ) (content : Option Str), SoundReading w content := by
  intro hall
  obtain ⟨u, hu, hutil⟩ := (hall 64 (some moreFree)).value
  have hwrapped : memoryUtilization 64 (some moreFree) = some 4294967196 := by decide +kernel
  rw [hwrapped] at hutil
  rw [← Option.some.inj hutil] at hu
  exact absurd hu (by decide)

end Sysmngr.Monitor
