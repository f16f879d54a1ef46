import Mathlib.Algebra.Group.Action.Defs
import Mathlib.Algebra.Order.BigOperators.Group.List
import Mathlib.Algebra.Order.Ring.Nat
import Mathlib.Data.List.Chain
import Sysmngr.Machine
import Sysmngr.Monitor.Automaton
import Sysmngr.Monitor.StatText
import Sysmngr.RingBuffer

/-!
# The averages of the CPU monitor

Four arrays share one index and one flag. They are the four columns of one ring of
utilisations, so each average is the mean of a sliding window.
-/

namespace Sysmngr.Monitor
open Text Uci Machine RingBuffer

/-! ### Readings -/

/-- What a poll reads of the file, and the clock. -/
structure StatReading where
  cpu : KernelCpu
  riseNow : ℤ
  fallNow : ℤ

def StatReading.counters (r : StatReading) : Counters := r.cpu.counters

def StatReading.poll (lib : Libbbfdm) (r : StatReading) : CpuReading :=
  ⟨scanStat lib (some r.cpu.text), r.riseNow, r.fallNow⟩

/-- The monitor after polls of such files. -/
def polled (lib : Libbbfdm) (uci : Named) (start : KernelCpu) (readings : List StatReading) :
    CpuInfo :=
  (run cpuStep (fillGlobalCpuInfo uci (scanStat lib (some start.text)))
    (readings.map fun r => .timer (r.poll lib))).1

structure NonDecreasing (p q : Counters) : Prop where
  usr : p.usr ≤ q.usr
  nic : p.nic ≤ q.nic
  sys : p.sys ≤ q.sys
  idle : p.idle ≤ q.idle
  iowait : p.iowait ≤ q.iowait
  irq : p.irq ≤ q.irq
  softirq : p.softirq ≤ q.softirq
  steal : p.steal ≤ q.steal

/-- No counter decreases, and a hundred times the busy and the idle time gone by stay
below 2^64. -/
structure Advances (p q : Counters) : Prop where
  usr : p.usr ≤ q.usr
  nic : p.nic ≤ q.nic
  sys : p.sys ≤ q.sys
  idle : p.idle ≤ q.idle
  iowait : p.iowait ≤ q.iowait
  irq : p.irq ≤ q.irq
  softirq : p.softirq ≤ q.softirq
  steal : p.steal ≤ q.steal
  busyTime : (q.busyTime - p.busyTime) * 100 < 2 ^ 64
  idleTime : (q.idleTime - p.idleTime) * 100 < 2 ^ 64

/-- Percentages of the time between two readings; of no time all are 0. -/
structure Utilization where
  user : ℕ
  system : ℕ
  idle : ℕ
  total : ℕ
  deriving DecidableEq, Repr

def utilization (p q : Counters) : Utilization :=
  let time := q.totalTime - p.totalTime
  { user := (q.usr.toNat - p.usr.toNat) * 100 / time
    system := (q.sysTime - p.sysTime) * 100 / time
    idle := (q.idleTime - p.idleTime) * 100 / time
    total := (q.busyTime - p.busyTime) * 100 / time }

def utilizations : Counters → List Counters → List Utilization
  | _, [] => []
  | p, q :: qs => utilization p q :: utilizations q qs

theorem utilizations_length (p : Counters) (qs : List Counters) :
    (utilizations p qs).length = qs.length := by
  induction qs generalizing p with
  | nil => rfl
  | cons q qs ih => rw [utilizations, List.length_cons, ih, List.length_cons]

/-! ### Differences -/

/-- A difference of times that wrapped is the growth modulo 2^64. -/
theorem sub_toNat_mod (a b : UInt64) (x y : ℕ) (ha : a.toNat = x % 2 ^ 64)
    (hb : b.toNat = y % 2 ^ 64) (hle : y ≤ x) : (a - b).toNat = (x - y) % 2 ^ 64 := by
  rw [UInt64.toNat_sub, ha, hb]
  omega

/-- Differences survive the wrap of both times. -/
theorem toNat_sub_wrapped (a b : UInt64) (x y : ℕ) (ha : a.toNat = x % 2 ^ 64)
    (hb : b.toNat = y % 2 ^ 64) (hle : y ≤ x) (hlt : x - y < 2 ^ 64) : (a - b).toNat = x - y := by
  rw [sub_toNat_mod a b x y ha hb hle, Nat.mod_eq_of_lt hlt]

/-- A sample divides what 64 bits leave of the product by the total, or by 1 for a total
of 0. -/
theorem sample_quotient (diff total : UInt64) (t : ℕ) (ht : total.toNat = t) :
    (sample diff (if total = 0 then 1 else total)).toNat =
      (diff * 100).toNat / max t 1 % 2 ^ 32 := by
  rw [sample, UInt64.toNat_toUInt32, UInt64.toNat_div]
  by_cases hz : total = 0
  · have ht0 : t = 0 := by
      rw [← ht, hz]
      rfl
    rw [if_pos hz, ht0]
    rfl
  · have hpos : 1 ≤ t := by
      rw [← ht]
      exact Nat.pos_of_ne_zero fun h => hz (UInt64.toNat_inj.mp h)
    rw [if_neg hz, ht, Nat.max_eq_left hpos]

theorem mul_hundred_toNat (diff : UInt64) (d : ℕ) (hd : diff.toNat = d)
    (hlt : d * 100 < 2 ^ 64) : (diff * 100).toNat = d * 100 := by
  rw [UInt64.toNat_mul, hd]
  exact Nat.mod_eq_of_lt hlt

theorem sample_toNat (diff total : UInt64) (d t : ℕ) (hd : diff.toNat = d) (ht : total.toNat = t)
    (hle : d ≤ t) (hlt : d * 100 < 2 ^ 64) :
    (sample diff (if total = 0 then 1 else total)).toNat = d * 100 / t := by
  have hdivisor : d * 100 / max t 1 = d * 100 / t := by
    rcases Nat.eq_zero_or_pos t with rfl | hpos
    · rw [Nat.le_zero.mp hle, Nat.zero_mul, Nat.zero_div, Nat.zero_div]
    · rw [Nat.max_eq_left hpos]
  have hquot : d * 100 / t ≤ 100 := Nat.div_le_of_le_mul (Nat.mul_le_mul_right 100 hle)
  rw [sample_quotient diff total t ht, mul_hundred_toNat diff d hd hlt, hdivisor]
  exact Nat.mod_eq_of_lt (by omega)

/-! ### One ring of four columns -/

/-- The four arrays with their index and flag are the columns of the ring `r`. -/
structure Mirrors (c : CpuInfo) (r : RingBuf Utilization) : Prop where
  index : c.sampleIndex = r.index
  full : c.fullSamplesReached = r.full
  size : c.numSamples = r.buf.length
  user : c.userUtilizationSamples.map UInt32.toNat = r.buf.map Utilization.user
  system : c.systemUtilizationSamples.map UInt32.toNat = r.buf.map Utilization.system
  idle : c.idleUtilizationSamples.map UInt32.toNat = r.buf.map Utilization.idle
  total : c.utilizationSamples.map UInt32.toNat = r.buf.map Utilization.total

def configuredSamples (uci : Named) : ℕ :=
  toUInt (strtoul (uci.get "cpu" "num_samples" "30".toList 16))

theorem mirrors_initial (uci : Named) (stat : List (List UInt64)) :
    Mirrors (fillGlobalCpuInfo uci stat) (RingBuf.empty (configuredSamples uci) ⟨0, 0, 0, 0⟩) where
  index := rfl
  full := rfl
  size := by simp [RingBuf.empty, fillGlobalCpuInfo, configuredSamples]
  user := by simp [RingBuf.empty, fillGlobalCpuInfo, configuredSamples]
  system := by simp [RingBuf.empty, fillGlobalCpuInfo, configuredSamples]
  idle := by simp [RingBuf.empty, fillGlobalCpuInfo, configuredSamples]
  total := by simp [RingBuf.empty, fillGlobalCpuInfo, configuredSamples]

/-- What the counters of two readings tell of the times between them. -/
theorem NonDecreasing.times {p q : Counters} (h : NonDecreasing p q) :
    q.usr.toNat - p.usr.toNat + (q.sysTime - p.sysTime) ≤ q.busyTime - p.busyTime ∧
      p.busyTime ≤ q.busyTime ∧ p.idleTime ≤ q.idleTime ∧ p.sysTime ≤ q.sysTime := by
  have husr := UInt64.le_iff_toNat_le.mp h.usr
  have hnic := UInt64.le_iff_toNat_le.mp h.nic
  have hsys := UInt64.le_iff_toNat_le.mp h.sys
  have hidle := UInt64.le_iff_toNat_le.mp h.idle
  have hiowait := UInt64.le_iff_toNat_le.mp h.iowait
  have hirq := UInt64.le_iff_toNat_le.mp h.irq
  have hsoftirq := UInt64.le_iff_toNat_le.mp h.softirq
  have hsteal := UInt64.le_iff_toNat_le.mp h.steal
  unfold Counters.busyTime Counters.idleTime Counters.sysTime
  omega

theorem Advances.nonDecreasing {p q : Counters} (h : Advances p q) : NonDecreasing p q :=
  ⟨h.usr, h.nic, h.sys, h.idle, h.iowait, h.irq, h.softirq, h.steal⟩

theorem takeSamples_mirrors (c : CpuInfo) (r : RingBuf Utilization) (p q : Counters)
    (stat : List (List UInt64)) (hm : Mirrors c r) (hp : Shows c.jiffy p)
    (hq : Shows (getJifVal c.jiffy stat) q) (ha : Advances p q) :
    Mirrors (takeSamples c stat) (r.put (utilization p q)) := by
  obtain ⟨hparts, hbusy, hidle, hsys⟩ := ha.nonDecreasing.times
  have hbusyMax := ha.busyTime
  have hidleMax := ha.idleTime
  have husr := UInt64.le_iff_toNat_le.mp ha.usr
  have htime := toNat_sub_wrapped _ _ _ _ hq.totalTime hp.totalTime
    (by unfold Counters.totalTime; omega) (by unfold Counters.totalTime; omega)
  have hcol : ∀ (samples : List UInt32) (f : Utilization → ℕ) (d : UInt64) (n : ℕ),
      samples.map UInt32.toNat = r.buf.map f →
      d.toNat = n → n ≤ q.totalTime - p.totalTime → n * 100 < 2 ^ 64 →
      f (utilization p q) = n * 100 / (q.totalTime - p.totalTime) →
      (samples.set c.sampleIndex (sample d (if (getJifVal c.jiffy stat).totalTime -
        c.jiffy.totalTime = 0 then 1 else (getJifVal c.jiffy stat).totalTime -
        c.jiffy.totalTime))).map UInt32.toNat = (r.put (utilization p q)).buf.map f := by
    intro samples f d n hsamples hd hle hlt hf
    rw [List.map_set, sample_toNat d _ n _ hd htime hle hlt, hsamples, hm.index, ← hf,
      ← List.map_set]
    rfl
  have hsum : q.totalTime - p.totalTime = (q.busyTime - p.busyTime) + (q.idleTime - p.idleTime) := by
    unfold Counters.totalTime
    omega
  have husrDiff : ((getJifVal c.jiffy stat).usr - c.jiffy.usr).toNat =
      q.usr.toNat - p.usr.toNat := by
    rw [hq.usr, hp.usr, UInt64.toNat_sub_of_le _ _ ha.usr]
  exact {
    index := by
      have hsize := hm.size
      simp only [takeSamples, RingBuf.put, hm.index, hsize]
    full := by simp only [takeSamples, RingBuf.put, hm.full, hm.index, hm.size]
    size := by rw [put_length]; exact hm.size
    user := hcol _ _ _ _ hm.user husrDiff (by omega) (by omega) rfl
    system := hcol _ _ _ _ hm.system
      (toNat_sub_wrapped _ _ _ _ hq.sysTime hp.sysTime hsys (by omega)) (by omega) (by omega) rfl
    idle := hcol _ _ _ _ hm.idle
      (toNat_sub_wrapped _ _ _ _ hq.idleTime hp.idleTime hidle (by omega)) (by omega) (by omega) rfl
    total := hcol _ _ _ _ hm.total
      (toNat_sub_wrapped _ _ _ _ hq.busyTime hp.busyTime hbusy (by omega)) (by omega) (by omega) rfl }

/-- After any polls the arrays are the ring with a utilisation put in for each. -/
theorem run_mirrors (lib : Libbbfdm) (c : CpuInfo) (r : RingBuf Utilization) (p : Counters)
    (readings : List StatReading) (hm : Mirrors c r) (hp : Shows c.jiffy p)
    (hfits : ∀ x ∈ readings, x.cpu.Fits)
    (h : List.IsChain Advances (p :: readings.map StatReading.counters)) :
    Mirrors (run cpuStep c (readings.map fun x => .timer (x.poll lib))).1
      (r.putAll (utilizations p (readings.map StatReading.counters))) := by
  induction readings generalizing c r p with
  | nil => exact hm
  | cons x rest ih =>
    simp only [List.map_cons, List.isChain_cons_cons] at h
    have hjiffy := getJifVal_fits lib c.jiffy x.cpu (hfits x (List.mem_cons_self ..))
    have hnext := takeSamples_mirrors c r p x.counters _ hm hp hjiffy h.1
    exact ih (cpuStep c (.timer (x.poll lib))).1 (r.put (utilization p x.counters)) x.counters
      ⟨hnext.index, hnext.full, hnext.size, hnext.user, hnext.system, hnext.idle, hnext.total⟩
      hjiffy (fun y hy => hfits y (List.mem_cons_of_mem _ hy)) h.2

/-! ### Percentages -/

theorem le_div_add_div (a b n k : ℕ) (hn : 0 < n) (h : k * n ≤ a + b) :
    k ≤ a / n + b / n + 1 := by
  have ha := Nat.lt_div_mul_add (a := a) hn
  have hb := Nat.lt_div_mul_add (a := b) hn
  have hlt : k * n < (a / n + b / n + 2) * n := by
    rw [Nat.add_mul, Nat.add_mul]
    omega
  exact Nat.lt_succ_iff.mp (Nat.lt_of_mul_lt_mul_right hlt)

theorem utilization_bounds (p q : Counters) (h : Advances p q) :
    (utilization p q).user + (utilization p q).system ≤ (utilization p q).total ∧
      (utilization p q).total + (utilization p q).idle ≤ 100 := by
  obtain ⟨hparts, hbusy, hidle, -⟩ := h.nonDecreasing.times
  have hsum : (q.busyTime - p.busyTime) * 100 + (q.idleTime - p.idleTime) * 100 =
      100 * (q.totalTime - p.totalTime) := by
    unfold Counters.totalTime
    omega
  constructor
  · calc (q.usr.toNat - p.usr.toNat) * 100 / (q.totalTime - p.totalTime) +
          (q.sysTime - p.sysTime) * 100 / (q.totalTime - p.totalTime)
        ≤ ((q.usr.toNat - p.usr.toNat) * 100 + (q.sysTime - p.sysTime) * 100) /
          (q.totalTime - p.totalTime) := Nat.div_add_div_le_add_div
      _ ≤ (q.busyTime - p.busyTime) * 100 / (q.totalTime - p.totalTime) :=
        Nat.div_le_div_right (by omega)
  · calc (q.busyTime - p.busyTime) * 100 / (q.totalTime - p.totalTime) +
          (q.idleTime - p.idleTime) * 100 / (q.totalTime - p.totalTime)
        ≤ 100 * (q.totalTime - p.totalTime) / (q.totalTime - p.totalTime) := by
          rw [← hsum]
          exact Nat.div_add_div_le_add_div
      _ ≤ 100 := Nat.div_le_of_le_mul (Nat.mul_comm _ _).le

/-- Of the time between two readings at most one percent is lost to truncation. -/
theorem utilization_whole (p q : Counters) (h : Advances p q) (ht : p.totalTime < q.totalTime) :
    99 ≤ (utilization p q).total + (utilization p q).idle := by
  obtain ⟨-, hbusy, hidle, -⟩ := h.nonDecreasing.times
  have hle := le_div_add_div ((q.busyTime - p.busyTime) * 100) ((q.idleTime - p.idleTime) * 100)
    (q.totalTime - p.totalTime) 100 (by omega) (by unfold Counters.totalTime; omega)
  unfold utilization
  simp only
  omega

theorem isChain_and {R S : Counters → Counters → Prop} (l : List Counters) (hR : l.IsChain R)
    (hS : l.IsChain S) : l.IsChain fun p q => R p q ∧ S p q := by
  induction hR with
  | nil => exact .nil
  | singleton p => exact .singleton p
  | cons_cons hr _ ih =>
    rw [List.isChain_cons_cons] at hS ⊢
    exact ⟨⟨hr, hS.1⟩, ih hS.2⟩

theorem utilizations_forall (P : Counters → Counters → Prop) (Q : Utilization → Prop)
    (hPQ : ∀ p q, P p q → Q (utilization p q)) (p : Counters) (qs : List Counters)
    (h : List.IsChain P (p :: qs)) : ∀ u ∈ utilizations p qs, Q u := by
  induction qs generalizing p with
  | nil => exact fun u hu => absurd hu (List.not_mem_nil)
  | cons q qs ih =>
    rw [List.isChain_cons_cons] at h
    intro u hu
    rcases List.mem_cons.mp hu with rfl | hu
    · exact hPQ p q h.1
    · exact ih q h.2 u hu

/-! ### Means -/

def mean (f : Utilization → ℕ) (us : List Utilization) : ℕ := (us.map f).sum / us.length

theorem mean_le (f : Utilization → ℕ) (us : List Utilization) (b : ℕ) (h : ∀ u ∈ us, f u ≤ b) :
    mean f us ≤ b := by
  have hsum := List.sum_le_card_nsmul (us.map f) b (by simpa using h)
  rw [List.length_map, smul_eq_mul] at hsum
  exact Nat.div_le_of_le_mul hsum

theorem mean_add_le (f g k : Utilization → ℕ) (us : List Utilization)
    (h : ∀ u ∈ us, f u + g u ≤ k u) : mean f us + mean g us ≤ mean k us := by
  have hsum := List.sum_le_sum h
  rw [List.sum_map_add] at hsum
  exact (Nat.div_add_div_le_add_div).trans (Nat.div_le_div_right hsum)

theorem mean_add_ge (f g : Utilization → ℕ) (us : List Utilization) (b : ℕ) (hne : us ≠ [])
    (h : ∀ u ∈ us, b ≤ f u + g u) : b ≤ mean f us + mean g us + 1 := by
  have hsum := List.sum_le_sum (f := fun _ => b) h
  rw [List.sum_map_add, List.map_const', List.sum_replicate, smul_eq_mul, Nat.mul_comm] at hsum
  exact le_div_add_div _ _ _ _ (List.length_pos_iff.mpr hne) hsum

/-! ### What is reported -/

/-- How many samples `calculate_average_samples` adds up. -/
def sampleCount (c : CpuInfo) : ℕ := if c.fullSamplesReached then c.numSamples else toUInt c.sampleIndex

theorem foldl_toNat (l : List UInt32) (acc : UInt32)
    (h : acc.toNat + (l.map UInt32.toNat).sum < 2 ^ 32) :
    (l.foldl (· + ·) acc).toNat = acc.toNat + (l.map UInt32.toNat).sum := by
  induction l generalizing acc with
  | nil => rfl
  | cons x l ih =>
    rw [List.map_cons, List.sum_cons] at h ⊢
    have hx : (acc + x).toNat = acc.toNat + x.toNat := by
      rw [UInt32.toNat_add]
      exact Nat.mod_eq_of_lt (by omega)
    rw [List.foldl_cons, ih (acc + x) (by omega), hx]
    omega

/-- The average of one array, and that none of the sums it takes overflows. -/
def Averages (c : CpuInfo) (samples : List UInt32) (f : Utilization → ℕ)
    (window : List Utilization) : Prop :=
  calculateAverageSamples c samples = mean f window ∧
    ∀ i ≤ sampleCount c, ((samples.take i).map UInt32.toNat).sum < 2 ^ 32

theorem averages_column (c : CpuInfo) (r : RingBuf Utilization) (samples : List UInt32)
    (f : Utilization → ℕ) (hm : Mirrors c r) (hv : r.Valid) (hmax : r.buf.length ≤ 300)
    (hs : samples.map UInt32.toNat = r.buf.map f) (hf : ∀ u ∈ r.contents, f u ≤ 100) :
    Averages c samples f r.contents := by
  have hv' : r.index < r.buf.length := hv
  have hcount : sampleCount c = if r.full then r.buf.length else r.index := by
    have hindex : toUInt r.index = r.index := by
      unfold toUInt
      omega
    rw [sampleCount, hm.full, hm.size, hm.index, hindex]
  have hused : (samples.take (sampleCount c)).map UInt32.toNat = r.used.map f := by
    rw [List.map_take, hs, ← List.map_take, hcount]
    rfl
  have hperm := used_perm_contents r
  have hle : sampleCount c ≤ 300 := by
    rw [hcount]
    split <;> omega
  have hsums : ∀ i ≤ sampleCount c, ((samples.take i).map UInt32.toNat).sum < 2 ^ 32 := by
    intro i hi
    have htake : (samples.take i).map UInt32.toNat = (r.used.map f).take i := by
      rw [← hused, ← List.map_take, List.take_take, Nat.min_eq_left hi]
    have hbound := List.sum_le_card_nsmul ((r.used.map f).take i) 100 (by
      intro x hx
      obtain ⟨u, hu, rfl⟩ := List.mem_map.mp (List.mem_of_mem_take hx)
      exact hf u (hperm.subset hu))
    have hlen := List.length_take_le i (r.used.map f)
    rw [smul_eq_mul] at hbound
    rw [htake]
    omega
  refine ⟨?_, hsums⟩
  have hsum : ((samples.take (sampleCount c)).foldl (· + ·) 0).toNat = (r.contents.map f).sum := by
    have hzero : (0 : UInt32).toNat = 0 := rfl
    rw [foldl_toNat _ _ (by rw [hzero, Nat.zero_add]; exact hsums _ (le_refl _)), hused, hzero,
      Nat.zero_add]
    exact (hperm.map f).sum_eq
  have hlength : sampleCount c = r.contents.length := by
    rw [← hperm.length_eq, hcount, RingBuf.used, List.length_take]
    split <;> omega
  have hdef : calculateAverageSamples c samples =
      if sampleCount c ≠ 0 then
        ((samples.take (sampleCount c)).foldl (· + ·) 0).toNat / sampleCount c
      else 0 := rfl
  rw [hdef, hsum, hlength, mean]
  split
  · rfl
  · rename_i hz
    rw [not_not.mp hz, Nat.div_zero]

/-- The four averages against the window they are taken over. -/
structure Reported (c : CpuInfo) (window : List Utilization) : Prop where
  user : Averages c c.userUtilizationSamples Utilization.user window
  system : Averages c c.systemUtilizationSamples Utilization.system window
  idle : Averages c c.idleUtilizationSamples Utilization.idle window
  total : Averages c c.utilizationSamples Utilization.total window

theorem mirrors_reported (c : CpuInfo) (r : RingBuf Utilization) (hm : Mirrors c r) (hv : r.Valid)
    (hmax : r.buf.length ≤ 300)
    (hr : ∀ u ∈ r.contents, u.user + u.system ≤ u.total ∧ u.total + u.idle ≤ 100) :
    Reported c r.contents where
  user := averages_column c r _ _ hm hv hmax hm.user fun u hu => by have := hr u hu; omega
  system := averages_column c r _ _ hm hv hmax hm.system fun u hu => by have := hr u hu; omega
  idle := averages_column c r _ _ hm hv hmax hm.idle fun u hu => by have := hr u hu; omega
  total := averages_column c r _ _ hm hv hmax hm.total fun u hu => by have := hr u hu; omega

structure Percentages (c : CpuInfo) : Prop where
  user : calculateAverageSamples c c.userUtilizationSamples ≤ 100
  system : calculateAverageSamples c c.systemUtilizationSamples ≤ 100
  idle : calculateAverageSamples c c.idleUtilizationSamples ≤ 100
  total : calculateAverageSamples c c.utilizationSamples ≤ 100
  parts : calculateAverageSamples c c.userUtilizationSamples +
    calculateAverageSamples c c.systemUtilizationSamples ≤
      calculateAverageSamples c c.utilizationSamples

theorem reported_percentages (c : CpuInfo) (window : List Utilization) (h : Reported c window)
    (hw : ∀ u ∈ window, u.user + u.system ≤ u.total ∧ u.total + u.idle ≤ 100) :
    Percentages c where
  user := by
    rw [h.user.1]
    exact mean_le _ _ _ fun u hu => by have := hw u hu; omega
  system := by
    rw [h.system.1]
    exact mean_le _ _ _ fun u hu => by have := hw u hu; omega
  idle := by
    rw [h.idle.1]
    exact mean_le _ _ _ fun u hu => by have := hw u hu; omega
  total := by
    rw [h.total.1]
    exact mean_le _ _ _ fun u hu => by have := hw u hu; omega
  parts := by
    rw [h.user.1, h.system.1, h.total.1]
    exact mean_add_le _ _ _ _ fun u hu => (hw u hu).1

/-! ### The averages of any polls -/

/-- The last samples, as many as NumSamples, of what the readings show. -/
def lastSamples (uci : Named) (start : KernelCpu) (readings : List StatReading) :
    List Utilization :=
  Fifo.trim (configuredSamples uci)
    (utilizations start.counters (readings.map StatReading.counters))

section Polls
variable (lib : Libbbfdm) (uci : Named) (start : KernelCpu) (readings : List StatReading)
  (hN : 1 ≤ configuredSamples uci ∧ configuredSamples uci ≤ 300)
  (hstart : start.Fits) (hfits : ∀ r ∈ readings, r.cpu.Fits)
  (h : List.IsChain Advances (start.counters :: readings.map StatReading.counters))

include h in
theorem lastSamples_bounds : ∀ u ∈ lastSamples uci start readings,
    u.user + u.system ≤ u.total ∧ u.total + u.idle ≤ 100 := fun u hu =>
  utilizations_forall Advances (fun u => u.user + u.system ≤ u.total ∧ u.total + u.idle ≤ 100)
    utilization_bounds start.counters _ h u ((Fifo.trim_suffix _ _).subset hu)

include hN hstart hfits h

theorem polled_reported :
    Reported (polled lib uci start readings) (lastSamples uci start readings) := by
  have hm := run_mirrors lib _ _ start.counters readings
    (mirrors_initial uci (scanStat lib (some start.text)))
    (getJifVal_fits lib .zero start hstart) hfits h
  have hvalid := putAll_valid _ (utilizations start.counters (readings.map StatReading.counters))
    (empty_valid (configuredSamples uci) (⟨0, 0, 0, 0⟩ : Utilization) hN.1)
  have hcontents := putAll_empty_contents (configuredSamples uci) (⟨0, 0, 0, 0⟩ : Utilization)
    (utilizations start.counters (readings.map StatReading.counters)) hN.1
  have hsize := putAll_length (RingBuf.empty (configuredSamples uci) (⟨0, 0, 0, 0⟩ : Utilization))
    (utilizations start.counters (readings.map StatReading.counters))
  have hreported := mirrors_reported _ _ hm hvalid
    (by rw [hsize]; simpa [RingBuf.empty] using hN.2)
    (by rw [hcontents]; exact lastSamples_bounds uci start readings h)
  rwa [hcontents] at hreported

theorem polled_percentages : Percentages (polled lib uci start readings) :=
  reported_percentages _ _ (polled_reported lib uci start readings hN hstart hfits h)
    (lastSamples_bounds uci start readings h)

/-- If time went on at every poll, busy and idle time make up the whole but for what is
truncated. -/
theorem polled_whole (hne : readings ≠ [])
    (hadv : List.IsChain (fun p q => p.totalTime < q.totalTime)
      (start.counters :: readings.map StatReading.counters)) :
    98 ≤ calculateAverageSamples (polled lib uci start readings)
          (polled lib uci start readings).utilizationSamples +
        calculateAverageSamples (polled lib uci start readings)
          (polled lib uci start readings).idleUtilizationSamples ∧
      calculateAverageSamples (polled lib uci start readings)
          (polled lib uci start readings).utilizationSamples +
        calculateAverageSamples (polled lib uci start readings)
          (polled lib uci start readings).idleUtilizationSamples ≤ 100 := by
  have hreported := polled_reported lib uci start readings hN hstart hfits h
  have hwhole : ∀ u ∈ lastSamples uci start readings, 99 ≤ u.total + u.idle := fun u hu =>
    utilizations_forall (fun p q => Advances p q ∧ p.totalTime < q.totalTime)
      (fun u => 99 ≤ u.total + u.idle) (fun p q hpq => utilization_whole p q hpq.1 hpq.2)
      start.counters _ (isChain_and _ h hadv) u ((Fifo.trim_suffix _ _).subset hu)
  have hnonempty : lastSamples uci start readings ≠ [] := by
    have hpos := List.length_pos_iff.mpr hne
    rw [← List.length_pos_iff, lastSamples, Fifo.trim_length, utilizations_length, List.length_map]
    omega
  rw [hreported.total.1, hreported.idle.1]
  constructor
  · have hsum := mean_add_ge _ _ _ 99 hnonempty hwhole
    omega
  · exact (mean_add_le _ _ (fun _ => 100) _ fun u hu =>
      (lastSamples_bounds uci start readings h u hu).2).trans (mean_le _ _ _ fun _ _ => le_refl _)

end Polls

/-- What the averages after any polls are: means of the last samples, percentages whose parts
add up, and the whole where time went on at every poll. -/
structure AveragesHold (lib : Libbbfdm) (uci : Named) (start : KernelCpu)
    (readings : List StatReading) : Prop where
  window : (lastSamples uci start readings).length = min readings.length (configuredSamples uci)
  reported : Reported (polled lib uci start readings) (lastSamples uci start readings)
  percentages : Percentages (polled lib uci start readings)
  whole : readings ≠ [] → List.IsChain (fun p q => p.totalTime < q.totalTime)
      (start.counters :: readings.map StatReading.counters) →
    98 ≤ calculateAverageSamples (polled lib uci start readings)
          (polled lib uci start readings).utilizationSamples +
        calculateAverageSamples (polled lib uci start readings)
          (polled lib uci start readings).idleUtilizationSamples ∧
      calculateAverageSamples (polled lib uci start readings)
          (polled lib uci start readings).utilizationSamples +
        calculateAverageSamples (polled lib uci start readings)
          (polled lib uci start readings).idleUtilizationSamples ≤ 100

/-- After any polls of lines that fit the buffer the averages are the means of the last
samples, of percentages that add up, without an overflow on the way. -/
theorem averages_of_last_samples (lib : Libbbfdm) (uci : Named) (start : KernelCpu)
    (readings : List StatReading)
    (hN : 1 ≤ configuredSamples uci ∧ configuredSamples uci ≤ 300) (hstart : start.Fits)
    (hfits : ∀ r ∈ readings, r.cpu.Fits)
    (h : List.IsChain Advances (start.counters :: readings.map StatReading.counters)) :
    AveragesHold lib uci start readings where
  window := by rw [lastSamples, Fifo.trim_length, utilizations_length, List.length_map]
  reported := polled_reported lib uci start readings hN hstart hfits h
  percentages := polled_percentages lib uci start readings hN hstart hfits h
  whole := polled_whole lib uci start readings hN hstart hfits h

def ticks (n : UInt64) : Counters := ⟨3 * n, n, 2 * n, 90 * n, n, n, n, n⟩

def printed (k : Counters) : KernelCpu := ⟨k, [0, 0], "cpu0 1 2 3 4\n".toList, by decide⟩

def reading (n : UInt64) : StatReading := ⟨printed (ticks n), 100, 100⟩

def twoSamples : Named := Named.set (fun _ _ => none) "cpu" "num_samples" "2".toList

theorem averages_of_last_samples_sample :
    AveragesHold .clearing twoSamples (printed (ticks 1)) [reading 2, reading 4, reading 7] := by
  have hadv : List.IsChain Advances ((printed (ticks 1)).counters ::
      [reading 2, reading 4, reading 7].map StatReading.counters) :=
    .cons_cons (by constructor <;> decide) <| .cons_cons (by constructor <;> decide) <|
      .cons_cons (by constructor <;> decide) <| .singleton _
  exact averages_of_last_samples .clearing twoSamples (printed (ticks 1))
    [reading 2, reading 4, reading 7] (by decide) (by decide) (by decide) hadv

/-- With an idle time of 15 digits, 127 characters up to the last counter if that has 14 digits
and one more if it has 15. -/
def longLine (idle steal : UInt64) : KernelCpu :=
  printed ⟨100000000000000, 100000000000000, 100000000000000, idle, 10000000000000, 10000000000000,
    1000000000000, steal⟩

/-- The time stolen between two readings is in the digit that is cut off, and no time seems
to have passed. -/
theorem long_line_reads_no_time :
    ¬∀ (lib : Libbbfdm) (uci : Named) (start : KernelCpu) (readings : List StatReading),
      1 ≤ configuredSamples uci ∧ configuredSamples uci ≤ 300 →
      List.IsChain Advances (start.counters :: readings.map StatReading.counters) →
      AveragesHold lib uci start readings := by
  intro hall
  have hadv : List.IsChain Advances ((longLine (10 ^ 14) (10 ^ 14)).counters ::
      [(⟨longLine (10 ^ 14) (10 ^ 14 + 5), 100, 100⟩ : StatReading)].map StatReading.counters) :=
    .cons_cons (by constructor <;> decide) (.singleton _)
  have hwhole := (hall .clearing twoSamples (longLine (10 ^ 14) (10 ^ 14))
    [⟨longLine (10 ^ 14) (10 ^ 14 + 5), 100, 100⟩] (by decide) hadv).whole (List.cons_ne_nil _ _)
    (.cons_cons (by decide) (.singleton _))
  exact absurd hwhole.1 (by decide +kernel)

/-! ### Reloads -/

theorem cpuStep_storedSamples (c : CpuInfo) (e : CpuEvent) :
    storedSamples (cpuStep c e).1.mon.uci = storedSamples c.mon.uci := by
  cases e with
  | timer r =>
    exact runMonitor_get cpuNames cpuCriticalStateEvent c.mon (c.poll r) "num_samples"
      "30".toList 16 (by decide) (by decide)
  | reload stat => rfl

/-- Polls and reloads leave NumSamples as it was. -/
theorem run_storedSamples (c : CpuInfo) (events : List CpuEvent) :
    storedSamples (run cpuStep c events).1.mon.uci = storedSamples c.mon.uci :=
  run_keeps cpuStep (fun t => storedSamples t.mon.uci = storedSamples c.mon.uci)
    (fun t e ht => (cpuStep_storedSamples t e).trans ht) c events rfl

/-- The monitor `c` at a later reload, which finds `start` in the file. -/
def reloaded (lib : Libbbfdm) (c : CpuInfo) (before : List CpuEvent) (start : KernelCpu) :
    CpuInfo :=
  (run cpuStep c (before ++ [.reload (scanStat lib (some start.text))])).1

/-- Of what went before, a reload finds nothing but the package. -/
theorem reloaded_eq (lib : Libbbfdm) (c : CpuInfo) (before : List CpuEvent) (start : KernelCpu) :
    ∃ stored, configuredSamples stored = configuredSamples c.mon.uci ∧
      reloaded lib c before start = fillGlobalCpuInfo stored (scanStat lib (some start.text)) := by
  have hkept := run_storedSamples c before
  refine ⟨(run cpuStep c before).1.mon.uci,
    congrArg (fun text => toUInt (strtoul text)) hkept, ?_⟩
  rw [reloaded, run_append]
  rfl

/-- What a monitor that found `start` in the file reports after polls of `readings`, and what
each of these polls compares with the thresholds. -/
structure ReportsMeans (lib : Libbbfdm) (uci : Named) (start : KernelCpu)
    (readings : List StatReading) (c : CpuInfo) : Prop where
  reported : Reported (run cpuStep c (readings.map fun r => .timer (r.poll lib))).1
    (lastSamples uci start readings)
  percentages : Percentages (run cpuStep c (readings.map fun r => .timer (r.poll lib))).1
  compared : ∀ earlier r later, readings = earlier ++ r :: later →
    (cpuStep (run cpuStep c (earlier.map fun r => .timer (r.poll lib))).1
        (.timer (r.poll lib))).2.polled =
      some ⟨mean Utilization.total (lastSamples uci start (earlier ++ [r])), r.riseNow, r.fallNow⟩

theorem polled_reportsMeans (lib : Libbbfdm) (uci : Named) (start : KernelCpu)
    (readings : List StatReading)
    (hN : 1 ≤ configuredSamples uci ∧ configuredSamples uci ≤ 300) (hstart : start.Fits)
    (hfits : ∀ r ∈ readings, r.cpu.Fits)
    (h : List.IsChain Advances (start.counters :: readings.map StatReading.counters)) :
    ReportsMeans lib uci start readings
      (fillGlobalCpuInfo uci (scanStat lib (some start.text))) where
  reported := polled_reported lib uci start readings hN hstart hfits h
  percentages := polled_percentages lib uci start readings hN hstart hfits h
  compared := by
    intro earlier r later hsplit
    have hreadings : readings = (earlier ++ [r]) ++ later := by
      rw [hsplit, List.append_assoc]
      rfl
    rw [hreadings, List.map_append, ← List.cons_append] at h
    have htotal := (polled_reported lib uci start (earlier ++ [r]) hN hstart
      (fun x hx => hfits x (by rw [hreadings]; exact List.mem_append_left later hx))
      h.left_of_append).total.1
    -- The poll compares the average of the samples it leaves.
    rw [polled, List.map_append, run_append] at htotal
    rw [← htotal]
    rfl

/-- Since the daemon's start, and since its last reload whatever came before, the averages are
the means of the last NumSamples percentages that the printed counters give, as long as these
are among the first 127 characters; and it is these means that the thresholds are tested on. -/
theorem averages_of_texts (lib : Libbbfdm) (uci : Named) (start : KernelCpu)
    (readings : List StatReading)
    (hN : 1 ≤ configuredSamples uci ∧ configuredSamples uci ≤ 300) (hstart : start.Fits)
    (hfits : ∀ r ∈ readings, r.cpu.Fits)
    (h : List.IsChain Advances (start.counters :: readings.map StatReading.counters)) :
    ReportsMeans lib uci start readings
        (fillGlobalCpuInfo uci (scanStat lib (some start.text))) ∧
      ∀ (c : CpuInfo) (before : List CpuEvent), c.mon.uci = uci →
        ReportsMeans lib uci start readings (reloaded lib c before start) := by
  refine ⟨polled_reportsMeans lib uci start readings hN hstart hfits h, ?_⟩
  intro c before hc
  subst hc
  obtain ⟨stored, hsamples, heq⟩ := reloaded_eq lib c before start
  have hwindow : ∀ rs, lastSamples stored start rs = lastSamples c.mon.uci start rs := fun rs => by
    rw [lastSamples, lastSamples, hsamples]
  have hmeans := polled_reportsMeans lib stored start readings (hsamples ▸ hN) hstart hfits h
  rw [heq]
  exact {
    reported := hwindow readings ▸ hmeans.reported
    percentages := hmeans.percentages
    compared := fun earlier r later hsplit => by
      rw [hmeans.compared earlier r later hsplit, hwindow] }

theorem averages_of_texts_sample :
    ReportsMeans .clearing twoSamples (printed (ticks 2)) [reading 4, reading 7]
      (reloaded .clearing (fillGlobalCpuInfo twoSamples [])
        [.timer ((reading 1).poll .clearing), .reload [[5]]] (printed (ticks 2))) := by
  have hadv : List.IsChain Advances
      ((printed (ticks 2)).counters :: [reading 4, reading 7].map StatReading.counters) :=
    .cons_cons (by constructor <;> decide) <| .cons_cons (by constructor <;> decide) <|
      .singleton _
  exact (averages_of_texts .clearing twoSamples (printed (ticks 2)) [reading 4, reading 7]
    (by decide) (by decide) (by decide) hadv).2 (fillGlobalCpuInfo twoSamples [])
      [.timer ((reading 1).poll .clearing), .reload [[5]]] rfl

end Sysmngr.Monitor
