import Sysmngr.Monitor.Samples

/-!
# CPUUsage on demand

Without the monitor CPUUsage is computed from two readings a tenth of a second apart. The
formula is that of the monitor's samples, but the differences are narrowed to 32 bits
before they are multiplied and divided.
-/

namespace Sysmngr.Monitor

def getCpuLoad (prevJif curJif : Jiffies) : UInt32 :=
  let totalDiff := (curJif.totalTime - prevJif.totalTime).toUInt32
  let totalDiff := if totalDiff = 0 then 1 else totalDiff
  100 * (curJif.busyTime - prevJif.busyTime).toUInt32 / totalDiff

/-- Both readings start from cleared jiffies. -/
def getCpuUsage (first second : List (List UInt64)) : UInt32 :=
  getCpuLoad (getJifVal .zero first) (getJifVal .zero second)

/-! ### Readings -/

def Counters.zero : Counters := ⟨0, 0, 0, 0, 0, 0, 0, 0⟩

/-- The counters a reading prints; one of a file that could not be opened shows zeros. -/
def shown : Option KernelCpu → Counters
  | none => .zero
  | some k => k.counters

def busyGrowth (first second : Option KernelCpu) : ℕ :=
  (shown second).busyTime - (shown first).busyTime

def totalGrowth (first second : Option KernelCpu) : ℕ :=
  (shown second).totalTime - (shown first).totalTime

def BothFit (first second : Option KernelCpu) : Prop :=
  (∀ k ∈ first, k.Fits) ∧ ∀ k ∈ second, k.Fits

/-- CPUUsage is the sample of busy time that the monitor takes on the second reading, and it
is a percentage. -/
structure AgreesWithSample (lib : Libbbfdm) (c : CpuInfo) (first second : Option KernelCpu) :
    Prop where
  sample : (takeSamples c (statOf lib second)).utilizationSamples[c.sampleIndex]? =
    some (getCpuUsage (statOf lib first) (statOf lib second))
  bound : (getCpuUsage (statOf lib first) (statOf lib second)).toNat ≤ 100

/-- The monitor has made the first reading; where it could not be opened, from cleared
jiffies. -/
structure HasRead (lib : Libbbfdm) (c : CpuInfo) (first : Option KernelCpu) : Prop where
  jiffy : ∃ j, c.jiffy = getJifVal j (statOf lib first) ∧ (first = none → j = .zero)
  index : c.sampleIndex < c.utilizationSamples.length

/-- The growth of a time modulo 2^64. -/
def wrappedGrowth (time : Counters → ℕ) (p q : Counters) : ℕ :=
  (((time q : ℤ) - time p) % 2 ^ 64).toNat

/-- Some percentage is the quotient of what 32 bits leave of one growth, and what the quotient
of what 64 bits leave of the other is cut to. -/
def Coincide (busy total busy' total' : ℕ) : Prop :=
  ∃ q ≤ 100,
    (q * max (total % 2 ^ 32) 1 ≤ 100 * busy % 2 ^ 32 ∧
      100 * busy % 2 ^ 32 < (q + 1) * max (total % 2 ^ 32) 1) ∧
    (q * max total' 1 ≤ 100 * busy' % 2 ^ 64 % (max total' 1 * 2 ^ 32) ∧
      100 * busy' % 2 ^ 64 % (max total' 1 * 2 ^ 32) < (q + 1) * max total' 1)

/-- By chance, with the counters that the first characters of the lines show: from cleared
jiffies on demand, from those it holds in the monitor. -/
def ByChance (held : Counters) (first second : Option KernelCpu) : Prop :=
  Coincide (wrappedGrowth Counters.busyTime (Counters.zero.after first) (Counters.zero.after second))
    (wrappedGrowth Counters.totalTime (Counters.zero.after first) (Counters.zero.after second))
    (wrappedGrowth Counters.busyTime held (held.after second))
    (wrappedGrowth Counters.totalTime held (held.after second))

/-- Lines that fit their buffer, less than 2^32 jiffies in all and less than a hundredth of
that busy, or chance. -/
def NarrowFits (held : Counters) (first second : Option KernelCpu) : Prop :=
  (BothFit first second ∧ totalGrowth first second < 2 ^ 32) ∧
      100 * busyGrowth first second < 2 ^ 32 ∨
    ¬(BothFit first second ∧ totalGrowth first second < 2 ^ 32) ∧ ByChance held first second

/-! ### Differences -/

theorem busyGrowth_le (first second : Option KernelCpu)
    (h : NonDecreasing (shown first) (shown second)) :
    busyGrowth first second ≤ totalGrowth first second := by
  obtain ⟨-, hbusy, hidle, -⟩ := h.times
  unfold busyGrowth totalGrowth Counters.totalTime
  omega

theorem shows_zero : Shows .zero .zero := ⟨rfl, rfl, rfl, rfl, rfl⟩

theorem after_shown (held : Counters) (file : Option KernelCpu) (hfits : ∀ k ∈ file, k.Fits)
    (hnone : file = none → held = .zero) : held.after file = shown file := by
  cases file with
  | none => exact hnone rfl
  | some k => exact held.after_fits k (hfits k rfl)

theorem nonDecreasing_zero (k : Counters) (h : NonDecreasing k .zero) : k = .zero := by
  have hzero : ∀ n : UInt64, n ≤ 0 → n = 0 := fun n hn =>
    UInt64.toNat_inj.mp (Nat.le_zero.mp (UInt64.le_iff_toNat_le.mp hn))
  obtain ⟨usr, nic, sys, idle, iowait, irq, softirq, steal⟩ := k
  rw [Counters.zero, Counters.mk.injEq]
  exact ⟨hzero _ h.usr, hzero _ h.nic, hzero _ h.sys, hzero _ h.idle, hzero _ h.iowait,
    hzero _ h.irq, hzero _ h.softirq, hzero _ h.steal⟩

theorem orOne_toNat (d : UInt32) : (if d = 0 then 1 else d).toNat = max d.toNat 1 := by
  by_cases hz : d = 0
  · rw [if_pos hz, hz]
    rfl
  · have hpos : 1 ≤ d.toNat := Nat.pos_of_ne_zero fun h => hz (UInt32.toNat_inj.mp h)
    rw [if_neg hz, Nat.max_eq_left hpos]

theorem wrappedGrowth_toNat (time : Counters → ℕ) (p q : Counters) (a b : UInt64)
    (ha : a.toNat = time q % 2 ^ 64) (hb : b.toNat = time p % 2 ^ 64) :
    (a - b).toNat = wrappedGrowth time p q := by
  rw [UInt64.toNat_sub, ha, hb, wrappedGrowth]
  omega

theorem wrappedGrowth_of_lt (time : Counters → ℕ) (p q : Counters) (hle : time p ≤ time q)
    (hlt : time q - time p < 2 ^ 64) : wrappedGrowth time p q = time q - time p := by
  unfold wrappedGrowth
  omega

section Growth
variable (p q : Jiffies) (k l : Counters) (hp : Shows p k) (hq : Shows q l)
include hp hq

theorem load_toNat : (getCpuLoad p q).toNat =
    100 * wrappedGrowth Counters.busyTime k l % 2 ^ 32 /
      max (wrappedGrowth Counters.totalTime k l % 2 ^ 32) 1 := by
  have hbusy := wrappedGrowth_toNat _ _ _ _ _ hq.busyTime hp.busyTime
  have htotal := wrappedGrowth_toNat _ _ _ _ _ hq.totalTime hp.totalTime
  have hproduct : (100 * (q.busyTime - p.busyTime).toUInt32).toNat =
      100 * wrappedGrowth Counters.busyTime k l % 2 ^ 32 := by
    rw [UInt32.toNat_mul, UInt64.toNat_toUInt32, hbusy]
    exact Nat.mul_mod_mod 100 _ _
  unfold getCpuLoad
  rw [UInt32.toNat_div, hproduct, orOne_toNat, UInt64.toNat_toUInt32, htotal]

theorem sample_growth :
    (sample (q.busyTime - p.busyTime)
        (if q.totalTime - p.totalTime = 0 then 1 else q.totalTime - p.totalTime)).toNat =
      100 * wrappedGrowth Counters.busyTime k l % 2 ^ 64 /
        max (wrappedGrowth Counters.totalTime k l) 1 % 2 ^ 32 := by
  have hbusy := wrappedGrowth_toNat _ _ _ _ _ hq.busyTime hp.busyTime
  have htotal := wrappedGrowth_toNat _ _ _ _ _ hq.totalTime hp.totalTime
  rw [sample_quotient _ _ _ htotal, UInt64.toNat_mul, hbusy, Nat.mul_comm 100]
  rfl

end Growth

/-! ### The two quotients -/

theorem div_eq_iff_between (x t q : ℕ) (ht : 0 < t) :
    x / t = q ↔ q * t ≤ x ∧ x < (q + 1) * t := by
  rw [← Nat.le_div_iff_mul_le ht, ← Nat.div_lt_iff_lt_mul ht]
  omega

theorem quotients_iff (busy total busy' total' : ℕ) :
    (100 * busy' % 2 ^ 64 / max total' 1 % 2 ^ 32 =
        100 * busy % 2 ^ 32 / max (total % 2 ^ 32) 1 ∧
      100 * busy % 2 ^ 32 / max (total % 2 ^ 32) 1 ≤ 100) ↔ Coincide busy total busy' total' := by
  have hnarrow : 0 < max (total % 2 ^ 32) 1 := Nat.lt_of_lt_of_le Nat.one_pos (Nat.le_max_right ..)
  have hwide : 0 < max total' 1 := Nat.lt_of_lt_of_le Nat.one_pos (Nat.le_max_right ..)
  rw [← Nat.mod_mul_right_div_self]
  simp only [Coincide, ← div_eq_iff_between _ _ _ hnarrow, ← div_eq_iff_between _ _ _ hwide]
  constructor
  · rintro ⟨heq, hle⟩
    exact ⟨_, hle, rfl, heq⟩
  · rintro ⟨percent, hle, h32, h64⟩
    rw [h32, h64]
    exact ⟨rfl, hle⟩

/-- Up to 2^32 jiffies the quotients coincide exactly if a hundred times the busy time
fits 32 bits as well. -/
theorem coincide_iff_of_lt (busy total : ℕ) (hle : busy ≤ total) (hlt : total < 2 ^ 32) :
    Coincide busy total busy total ↔ 100 * busy < 2 ^ 32 := by
  have h32 : total % 2 ^ 32 = total := Nat.mod_eq_of_lt hlt
  have hproduct : 100 * busy % 2 ^ 64 = 100 * busy := Nat.mod_eq_of_lt (by omega)
  have hwide : 100 * busy % (max total 1 * 2 ^ 32) = 100 * busy :=
    Nat.mod_eq_of_lt (by omega)
  unfold Coincide
  rw [h32, hproduct, hwide]
  constructor
  · rintro ⟨percent, hpercent, ⟨hlow, -⟩, -, hhigh⟩
    -- one quotient puts both products within a divisor of each other, narrowing lost 2^32
    by_contra hbig
    have hlost : 100 * busy % 2 ^ 32 + 2 ^ 32 ≤ 100 * busy := by omega
    rw [Nat.add_mul, Nat.one_mul] at hhigh
    omega
  · intro hfits
    rw [Nat.mod_eq_of_lt hfits]
    have hpos : 0 < max total 1 := Nat.lt_of_lt_of_le Nat.one_pos (Nat.le_max_right ..)
    have hbetween := (div_eq_iff_between (100 * busy) (max total 1) _ hpos).mp rfl
    refine ⟨100 * busy / max total 1, Nat.div_le_of_le_mul ?_, hbetween, hbetween⟩
    omega

theorem HasRead.held {lib : Libbbfdm} {c : CpuInfo} {first : Option KernelCpu}
    (hc : HasRead lib c first) :
    Shows c.jiffy c.jiffy.counters ∧ (BothFit first none → c.jiffy.counters = shown first) := by
  obtain ⟨j, hj, hzero⟩ := hc.jiffy
  have hcleared : first = none → Shows j j.counters := fun h => by
    rw [hzero h]
    exact shows_zero
  have hshows := getJifVal_shows lib j first hcleared
  rw [hj, getJifVal_counters]
  refine ⟨hshows, fun hfits => after_shown _ _ hfits.1 fun h => ?_⟩
  rw [hzero h]
  rfl

/-- With lines that fit and less than 2^32 jiffies gone by it is no chance. -/
theorem byChance_iff_of_fits (lib : Libbbfdm) (c : CpuInfo) (first second : Option KernelCpu)
    (h : NonDecreasing (shown first) (shown second)) (hc : HasRead lib c first)
    (hfits : BothFit first second) (hlt : totalGrowth first second < 2 ^ 32) :
    ByChance c.jiffy.counters first second ↔ 100 * busyGrowth first second < 2 ^ 32 := by
  obtain ⟨-, hbusy, hidle, -⟩ := h.times
  have htotal : (shown first).totalTime ≤ (shown second).totalTime := Nat.add_le_add hbusy hidle
  have hle := busyGrowth_le first second h
  have hfirst := after_shown .zero first hfits.1 fun _ => rfl
  have hsecond := after_shown .zero second hfits.2 fun _ => rfl
  have hheld := hc.held.2 ⟨hfits.1, by simp⟩
  have hpolled := after_shown c.jiffy.counters second hfits.2 fun hnone => by
    rw [hheld]
    rw [hnone] at h
    exact nonDecreasing_zero _ h
  have hb : wrappedGrowth Counters.busyTime (shown first) (shown second) =
      busyGrowth first second :=
    wrappedGrowth_of_lt _ _ _ hbusy (by unfold busyGrowth at hle; omega)
  have ht : wrappedGrowth Counters.totalTime (shown first) (shown second) =
      totalGrowth first second :=
    wrappedGrowth_of_lt _ _ _ htotal (by unfold totalGrowth at hlt; omega)
  rw [ByChance, hfirst, hsecond, hpolled, hheld, hb, ht]
  exact coincide_iff_of_lt _ _ hle hlt

theorem agreesWithSample_iff_byChance (lib : Libbbfdm) (c : CpuInfo)
    (first second : Option KernelCpu) (hc : HasRead lib c first) :
    AgreesWithSample lib c first second ↔ ByChance c.jiffy.counters first second := by
  have hfirst : Shows (getJifVal .zero (statOf lib first)) (Counters.zero.after first) :=
    getJifVal_shows lib .zero first fun _ => shows_zero
  have hsecond : Shows (getJifVal .zero (statOf lib second)) (Counters.zero.after second) :=
    getJifVal_shows lib .zero second fun _ => shows_zero
  have hheld := hc.held.1
  have hpolled := getJifVal_shows lib c.jiffy second fun _ => hheld
  have hload : (getCpuUsage (statOf lib first) (statOf lib second)).toNat = _ :=
    load_toNat _ _ _ _ hfirst hsecond
  have hsample := sample_growth _ _ _ _ hheld hpolled
  have hstored : (takeSamples c (statOf lib second)).utilizationSamples[c.sampleIndex]? =
      some (sample ((getJifVal c.jiffy (statOf lib second)).busyTime - c.jiffy.busyTime)
        (if (getJifVal c.jiffy (statOf lib second)).totalTime - c.jiffy.totalTime = 0 then 1
          else (getJifVal c.jiffy (statOf lib second)).totalTime - c.jiffy.totalTime)) :=
    List.getElem?_set_self hc.index
  rw [ByChance, ← quotients_iff, ← hsample, ← hload, UInt32.toNat_inj]
  constructor
  · rintro ⟨heq, hbound⟩
    rw [hstored] at heq
    exact ⟨Option.some.inj heq, hbound⟩
  · rintro ⟨heq, hbound⟩
    exact ⟨by rw [hstored, heq], hbound⟩

/-- On demand and in the monitor the same percentage is computed exactly when the lines fit
their buffer and the growth fits 32 bits, or the quotients happen to coincide. -/
theorem agreesWithSample_iff (lib : Libbbfdm) (c : CpuInfo) (first second : Option KernelCpu)
    (h : NonDecreasing (shown first) (shown second)) (hc : HasRead lib c first) :
    AgreesWithSample lib c first second ↔ NarrowFits c.jiffy.counters first second := by
  rw [agreesWithSample_iff_byChance lib c first second hc, NarrowFits]
  by_cases hfits : BothFit first second ∧ totalGrowth first second < 2 ^ 32
  · rw [byChance_iff_of_fits lib c first second h hc hfits.1 hfits.2]
    simp only [hfits, and_self, true_and, not_true_eq_false, false_and, or_false]
  · simp only [hfits, false_and, not_false_eq_true, true_and, false_or]

def halfBusy (n : UInt64) : KernelCpu := printed ⟨n, 0, 0, n, 0, 0, 0, 0⟩

def idleMonitor : CpuInfo := fillGlobalCpuInfo (fun _ _ => none) []

theorem idleMonitor_hasRead : HasRead .clearing idleMonitor none :=
  ⟨⟨.zero, rfl, fun _ => rfl⟩, by decide⟩

theorem nonDecreasing_zero_le (k : Counters) : NonDecreasing .zero k :=
  have hzero : ∀ m : UInt64, 0 ≤ m := fun m => UInt64.le_iff_toNat_le.mpr (Nat.zero_le m.toNat)
  ⟨hzero _, hzero _, hzero _, hzero _, hzero _, hzero _, hzero _, hzero _⟩

theorem agrees_half_busy : AgreesWithSample .clearing idleMonitor none (some (halfBusy 100)) :=
  (agreesWithSample_iff .clearing idleMonitor none (some (halfBusy 100))
    (nonDecreasing_zero_le _) idleMonitor_hasRead).mpr
    (Or.inl ⟨⟨⟨by simp, by simp; decide⟩, by decide⟩, by decide⟩)

/-- The monitor after a first reading. -/
def startedOn (first : KernelCpu) : CpuInfo :=
  { idleMonitor with jiffy := getJifVal .zero (statOf .clearing (some first)) }

theorem startedOn_hasRead (first : KernelCpu) : HasRead .clearing (startedOn first) (some first) where
  jiffy := ⟨.zero, by rw [startedOn], fun h => nomatch h⟩
  index := by
    rw [startedOn]
    exact idleMonitor_hasRead.index

/-- A hundred times 42949673 is four more than 2^32; and of a last counter that grows from
14 digits to 15 the last one is cut off. -/
theorem long_uptime_disagrees :
    (¬∀ (lib : Libbbfdm) (c : CpuInfo) (first second : Option KernelCpu), BothFit first second →
      NonDecreasing (shown first) (shown second) → HasRead lib c first →
      AgreesWithSample lib c first second) ∧
    (¬∀ (lib : Libbbfdm) (c : CpuInfo) (first second : Option KernelCpu),
      totalGrowth first second < 2 ^ 32 → 100 * busyGrowth first second < 2 ^ 32 →
      NonDecreasing (shown first) (shown second) → HasRead lib c first →
      AgreesWithSample lib c first second) := by
  constructor
  · intro hall
    have h := hall .clearing idleMonitor none (some (halfBusy 42949673)) ⟨by simp, by simp; decide⟩
      (nonDecreasing_zero_le _) idleMonitor_hasRead
    exact absurd h.sample (by decide +kernel)
  · intro hall
    have h := hall .clearing (startedOn (longLine (10 ^ 14) 99999999999999))
      (some (longLine (10 ^ 14) 99999999999999))
      (some (longLine (10 ^ 14 + 4 * 10 ^ 9) (10 ^ 14))) (by decide +kernel) (by decide +kernel)
      (by constructor <;> decide +kernel) (startedOn_hasRead _)
    exact absurd h.sample (by decide +kernel)

end Sysmngr.Monitor
