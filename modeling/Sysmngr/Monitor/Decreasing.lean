import Sysmngr.Monitor.Samples

/-!
# Counters that go down

The total time may grow while one of its counters goes down, as Linux allows for iowait.
The differences are unsigned: a time that has become less wraps, and the others then
grow by more than the total.
-/

namespace Sysmngr.Monitor
open Text Uci Machine

/-! ### Readings -/

def sampledTimes : List (Counters → ℕ) :=
  [fun k => k.usr.toNat, Counters.sysTime, Counters.idleTime, Counters.busyTime]

/-- The total does not decrease, and neither it nor a hundred times a difference wraps. -/
structure Unwrapped (p q : Counters) : Prop where
  increases : p.totalTime ≤ q.totalTime
  total : q.totalTime < 2 ^ 64
  products : ∀ time ∈ sampledTimes, (time q - time p) * 100 < 2 ^ 64

/-- No time becomes less, and none grows by more than the total, up to what truncation
hides. -/
def WithinTotal (p q : Counters) : Prop :=
  ∀ time ∈ sampledTimes, time p ≤ time q ∧
    (time q - time p) * 100 < 101 * max (q.totalTime - p.totalTime) 1

instance (p q : Counters) : Decidable (Unwrapped p q) :=
  decidable_of_iff (p.totalTime ≤ q.totalTime ∧ q.totalTime < 2 ^ 64 ∧
      ∀ time ∈ sampledTimes, (time q - time p) * 100 < 2 ^ 64)
    ⟨fun ⟨h1, h2, h3⟩ => ⟨h1, h2, h3⟩, fun ⟨h1, h2, h3⟩ => ⟨h1, h2, h3⟩⟩

instance (p q : Counters) : Decidable (WithinTotal p q) :=
  inferInstanceAs (Decidable (∀ time ∈ sampledTimes, _))

/-! ### One sample -/

def IsPercentage (s : UInt32) : Prop := s.toNat ≤ 100

instance (s : UInt32) : Decidable (IsPercentage s) := inferInstanceAs (Decidable (_ ≤ _))

theorem sample_isPercentage (diff total : UInt64) (d t : ℕ) (hd : diff.toNat = d)
    (ht : total.toNat = t) (hlt : d * 100 < 2 ^ 64) (hle : d * 100 < 101 * max t 1) :
    IsPercentage (sample diff (if total = 0 then 1 else total)) := by
  have hquot : d * 100 / max t 1 < 101 :=
    Nat.div_lt_of_lt_mul (by omega)
  unfold IsPercentage
  rw [sample_quotient diff total t ht, mul_hundred_toNat diff d hd hlt]
  exact Nat.le_of_lt_succ (Nat.lt_of_le_of_lt (Nat.mod_le _ _) hquot)

/-! ### The arrays -/

structure StoresPercentages (c : CpuInfo) : Prop where
  user : ∀ s ∈ c.userUtilizationSamples, IsPercentage s
  system : ∀ s ∈ c.systemUtilizationSamples, IsPercentage s
  idle : ∀ s ∈ c.idleUtilizationSamples, IsPercentage s
  total : ∀ s ∈ c.utilizationSamples, IsPercentage s

theorem forall_mem_set {α : Type} (P : α → Prop) (l : List α) (i : ℕ) (a : α)
    (hl : ∀ x ∈ l, P x) (ha : P a) : ∀ x ∈ l.set i a, P x := by
  intro x hx
  rcases List.mem_or_eq_of_mem_set hx with h | rfl
  · exact hl x h
  · exact ha

theorem initial_percentages (uci : Named) (stat : List (List UInt64)) :
    StoresPercentages (fillGlobalCpuInfo uci stat) := by
  have hzero : ∀ n : ℕ, ∀ s ∈ List.replicate n (0 : UInt32), IsPercentage s := by
    intro n s hs
    rw [List.eq_of_mem_replicate hs]
    decide
  exact ⟨hzero _, hzero _, hzero _, hzero _⟩

theorem takeSamples_percentages (c : CpuInfo) (p q : Counters) (stat : List (List UInt64))
    (hc : StoresPercentages c) (hp : Shows c.jiffy p) (hq : Shows (getJifVal c.jiffy stat) q)
    (hu : Unwrapped p q) (hw : WithinTotal p q) : StoresPercentages (takeSamples c stat) := by
  have hlt := hu.total
  have htotal := toNat_sub_wrapped _ _ _ _ hq.totalTime hp.totalTime hu.increases (by omega)
  have hstore : ∀ (samples : List UInt32) (time : Counters → ℕ) (a b : UInt64),
      (∀ s ∈ samples, IsPercentage s) → time ∈ sampledTimes → a.toNat = time q % 2 ^ 64 →
      b.toNat = time p % 2 ^ 64 →
      ∀ s ∈ samples.set c.sampleIndex (sample (a - b)
        (if (getJifVal c.jiffy stat).totalTime - c.jiffy.totalTime = 0 then 1
          else (getJifVal c.jiffy stat).totalTime - c.jiffy.totalTime)),
        IsPercentage s := by
    intro samples time a b hsamples htime ha hb
    have hprod := hu.products time htime
    obtain ⟨hle, hshare⟩ := hw time htime
    have hdiff := toNat_sub_wrapped a b _ _ ha hb hle (by omega)
    exact forall_mem_set _ _ _ _ hsamples (sample_isPercentage _ _ _ _ hdiff htotal hprod hshare)
  have husr : ∀ k : Counters, k.usr.toNat = k.usr.toNat % 2 ^ 64 := fun k =>
    (Nat.mod_eq_of_lt k.usr.toNat_lt).symm
  exact {
    user := hstore _ (fun k => k.usr.toNat) _ _ hc.user (by simp [sampledTimes])
      (by rw [hq.usr]; exact husr q) (by rw [hp.usr]; exact husr p)
    system := hstore _ Counters.sysTime _ _ hc.system (by simp [sampledTimes]) hq.sysTime hp.sysTime
    idle := hstore _ Counters.idleTime _ _ hc.idle (by simp [sampledTimes]) hq.idleTime hp.idleTime
    total := hstore _ Counters.busyTime _ _ hc.total (by simp [sampledTimes]) hq.busyTime
      hp.busyTime }

theorem run_percentages (lib : Libbbfdm) (c : CpuInfo) (p : Counters) (readings : List StatReading)
    (hc : StoresPercentages c) (hp : Shows c.jiffy p) (hfits : ∀ x ∈ readings, x.cpu.Fits)
    (hu : List.IsChain Unwrapped (p :: readings.map StatReading.counters))
    (hw : List.IsChain WithinTotal (p :: readings.map StatReading.counters)) :
    StoresPercentages (run cpuStep c (readings.map fun x => .timer (x.poll lib))).1 := by
  induction readings generalizing c p with
  | nil => exact hc
  | cons x rest ih =>
    simp only [List.map_cons, List.isChain_cons_cons] at hu hw
    have hjiffy := getJifVal_fits lib c.jiffy x.cpu (hfits x (List.mem_cons_self ..))
    have hnext := takeSamples_percentages c p x.counters _ hc hp hjiffy hu.1 hw.1
    exact ih (cpuStep c (.timer (x.poll lib))).1 x.counters
      ⟨hnext.user, hnext.system, hnext.idle, hnext.total⟩ hjiffy
      (fun y hy => hfits y (List.mem_cons_of_mem _ hy)) hu.2 hw.2

/-! ### The averages -/

theorem foldl_toNat_le (l : List UInt32) (acc : UInt32) :
    (l.foldl (· + ·) acc).toNat ≤ acc.toNat + (l.map UInt32.toNat).sum := by
  induction l generalizing acc with
  | nil => simp
  | cons x l ih =>
    have hx : (acc + x).toNat ≤ acc.toNat + x.toNat := by
      rw [UInt32.toNat_add]
      exact Nat.mod_le _ _
    rw [List.foldl_cons, List.map_cons, List.sum_cons]
    exact (ih (acc + x)).trans (by omega)

/-- A sum that wraps only becomes less. -/
theorem average_le (c : CpuInfo) (samples : List UInt32) (h : ∀ s ∈ samples, IsPercentage s) :
    calculateAverageSamples c samples ≤ 100 := by
  have hdef : calculateAverageSamples c samples =
      if sampleCount c ≠ 0 then
        ((samples.take (sampleCount c)).foldl (· + ·) 0).toNat / sampleCount c
      else 0 := rfl
  rw [hdef]
  split
  · have hfold := foldl_toNat_le (samples.take (sampleCount c)) 0
    have hsum := List.sum_le_card_nsmul ((samples.take (sampleCount c)).map UInt32.toNat) 100 (by
      intro x hx
      obtain ⟨s, hs, rfl⟩ := List.mem_map.mp hx
      exact h s (List.mem_of_mem_take hs))
    have hlen := List.length_take_le (sampleCount c) samples
    have hzero : (0 : UInt32).toNat = 0 := rfl
    rw [List.length_map, smul_eq_mul] at hsum
    refine Nat.div_le_of_le_mul ?_
    have hmul := Nat.mul_le_mul_right 100 hlen
    omega
  · exact Nat.zero_le _

structure ReportsPercentages (c : CpuInfo) : Prop where
  user : calculateAverageSamples c c.userUtilizationSamples ≤ 100
  system : calculateAverageSamples c c.systemUtilizationSamples ≤ 100
  idle : calculateAverageSamples c c.idleUtilizationSamples ≤ 100
  total : calculateAverageSamples c c.utilizationSamples ≤ 100

def PercentagesThroughout (lib : Libbbfdm) (uci : Named) (start : KernelCpu)
    (readings : List StatReading) : Prop :=
  StoresPercentages (polled lib uci start readings) ∧
    ReportsPercentages (polled lib uci start readings)

/-- While every line fits the buffer and no time sampled becomes less or outgrows the total,
every sample stored and every average reported is a percentage. -/
theorem samples_are_percentages (lib : Libbbfdm) (uci : Named) (start : KernelCpu)
    (readings : List StatReading) (hstart : start.Fits) (hfits : ∀ r ∈ readings, r.cpu.Fits)
    (hu : List.IsChain Unwrapped (start.counters :: readings.map StatReading.counters))
    (hw : List.IsChain WithinTotal (start.counters :: readings.map StatReading.counters)) :
    PercentagesThroughout lib uci start readings := by
  have hstores := run_percentages lib _ start.counters readings
    (initial_percentages uci (scanStat lib (some start.text)))
    (getJifVal_fits lib .zero start hstart) hfits hu hw
  exact ⟨hstores, average_le _ _ hstores.user, average_le _ _ hstores.system,
    average_le _ _ hstores.idle, average_le _ _ hstores.total⟩

def usage (usr idle iowait : UInt64) : KernelCpu := printed ⟨usr, 0, 0, idle, iowait, 0, 0, 0⟩

theorem samples_are_percentages_sample :
    PercentagesThroughout .clearing twoSamples (usage 100 100 50)
      [⟨usage 120 140 45, 100, 100⟩, ⟨usage 130 140 45, 105, 105⟩] :=
  samples_are_percentages .clearing twoSamples (usage 100 100 50)
    [⟨usage 120 140 45, 100, 100⟩, ⟨usage 130 140 45, 105, 105⟩] (by decide) (by decide)
    (.cons_cons (by decide) <| .cons_cons (by decide) <| .singleton _)
    (.cons_cons (by decide) <| .cons_cons (by decide) <| .singleton _)

/-- The total grows by 10 while iowait goes down by 10 and user time grows by 20; and the last
counter grows by 1, to a number whose last digit is cut off. -/
theorem decreasing_iowait_exceeds :
    (¬∀ (lib : Libbbfdm) (uci : Named) (start : KernelCpu) (readings : List StatReading),
      start.Fits → (∀ r ∈ readings, r.cpu.Fits) →
      List.IsChain Unwrapped (start.counters :: readings.map StatReading.counters) →
      PercentagesThroughout lib uci start readings) ∧
    (¬∀ (lib : Libbbfdm) (uci : Named) (start : KernelCpu) (readings : List StatReading),
      List.IsChain Unwrapped (start.counters :: readings.map StatReading.counters) →
      List.IsChain WithinTotal (start.counters :: readings.map StatReading.counters) →
      PercentagesThroughout lib uci start readings) := by
  constructor
  · intro hall
    have hstores := (hall .clearing twoSamples (usage 100 100 50) [⟨usage 120 100 40, 100, 100⟩]
      (by decide) (by decide) (.cons_cons (by decide) (.singleton _))).1.user
    have hsample : (polled .clearing twoSamples (usage 100 100 50)
      [⟨usage 120 100 40, 100, 100⟩]).userUtilizationSamples = [200, 0] := by decide +kernel
    rw [hsample] at hstores
    exact absurd (hstores 200 (List.mem_cons_self ..)) (by decide)
  · intro hall
    have hstores := (hall .clearing twoSamples (longLine (10 ^ 14) 99999999999999)
      [⟨longLine (2 * 10 ^ 14) (10 ^ 14), 100, 100⟩]
      (.cons_cons (by decide) (.singleton _)) (.cons_cons (by decide) (.singleton _))).1.total
    have hsample : ∃ s ∈ (polled .clearing twoSamples (longLine (10 ^ 14) 99999999999999)
        [⟨longLine (2 * 10 ^ 14) (10 ^ 14), 100, 100⟩]).utilizationSamples, 100 < s.toNat := by
      decide +kernel
    obtain ⟨s, hs, hlt⟩ := hsample
    exact absurd (hstores s hs) (Nat.not_le.mpr hlt)

end Sysmngr.Monitor
