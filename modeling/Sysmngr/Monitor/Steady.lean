import Sysmngr.Monitor.Clock
import Sysmngr.Monitor.Settings

/-!
# A utilisation that stays the same

Under a utilisation that does not change one notification at most is due: the first
poll brings the mode to its side and the later ones find it there. The two thresholds
are set independently, and a utilisation above the one and below the other is on
either side at once.
-/

namespace Sysmngr.Monitor
open Text Uci Machine Hysteresis

/-! ### The two tests of a poll -/

def Ctx.afterRise (c : Ctx) (p : Poll) : Ctx :=
  if RiseFires c p then { c with criticalRiseTime := p.riseNow } else c

def Ctx.afterFall (c : Ctx) (p : Poll) : Ctx :=
  if FallFires c p then { c with criticalFallTime := p.fallNow } else c

/-- A poll as far as the timestamps and the notifications go. -/
def Ctx.test (c : Ctx) (p : Poll) : Ctx × List Edge :=
  let r := c.afterRise p
  (r.afterFall p,
    (if RiseFires c p then [.rise] else []) ++ if FallFires r p then [.fall] else [])

theorem runMonitor_test (n : Names) (event : ℕ → Effect) (s : State) (p : Poll)
    (hevent : ∀ u, edgeOf (event u) = none) :
    ((runMonitor n event s p.utilization p.riseNow p.fallNow).1.ctx,
        edges (runMonitor n event s p.utilization p.riseNow p.fallNow).2) = s.ctx.test p := by
  have hrise : (checkRise n event s p.utilization p.riseNow).1.ctx = s.ctx.afterRise p ∧
      edges (checkRise n event s p.utilization p.riseNow).2 =
        if RiseFires s.ctx p then [.rise] else [] := by
    rcases checkRise_cases n event s p with ⟨hr, hcheck⟩ | ⟨hr, hcheck⟩
    · rw [hcheck, Ctx.afterRise, if_pos hr, if_pos hr]
      exact ⟨rfl, edges_render n event s.ctx p (some .rise) hevent⟩
    · rw [hcheck, Ctx.afterRise, if_neg hr, if_neg hr]
      exact ⟨rfl, rfl⟩
  have hfall : ∀ t : State, (checkFall n t p.utilization p.fallNow).1.ctx = t.ctx.afterFall p ∧
      edges (checkFall n t p.utilization p.fallNow).2 =
        if FallFires t.ctx p then [.fall] else [] := by
    intro t
    rcases checkFall_cases n event t p with ⟨hf, hcheck⟩ | ⟨hf, hcheck⟩
    · rw [hcheck, Ctx.afterFall, if_pos hf, if_pos hf]
      exact ⟨rfl, edges_render n event t.ctx p (some .fall) hevent⟩
    · rw [hcheck, Ctx.afterFall, if_neg hf, if_neg hf]
      exact ⟨rfl, rfl⟩
  have hrearm : edges [rearm s.ctx] = [] := rfl
  obtain ⟨hctx, hedges⟩ := hfall (checkRise n event s p.utilization p.riseNow).1
  simp only [runMonitor, hctx, edges_append, hrise.2, hedges, hrise.1, hrearm, List.append_nil,
    Ctx.test]

/-! ### Constant utilisation -/

/-- Polls of one utilisation whose clock advances from each to the next. -/
structure Steady (u : ℕ) (ps : List Poll) : Prop where
  utilization : ∀ p ∈ ps, p.utilization = u
  within : ∀ p ∈ ps, p.riseNow ≤ p.fallNow
  between : ps.IsChain fun p q => p.fallNow < q.riseNow

def AtMostOnce (es : List Edge) : Prop := es.count .rise ≤ 1 ∧ es.count .fall ≤ 1

/-- The utilisation is not above the one threshold and below the other. -/
def Ctx.OneSided (c : Ctx) (u : ℕ) : Prop :=
  ¬(c.criticalRiseThreshold < u ∧ u < c.criticalFallThreshold)

instance (c : Ctx) (u : ℕ) : Decidable (c.OneSided u) := inferInstanceAs (Decidable (¬_))

/-- There are no two polls, or the utilisation is on one side and the first timestamp
written comes to lie on its side of the other one. -/
def Settles (c : Ctx) (u : ℕ) (ps : List Poll) : Prop :=
  ps.length ≤ 1 ∨ c.OneSided u ∧ ∀ p ∈ ps.head?, p.Moves c

/-- The mode is the one the utilisation calls for. -/
structure Ctx.Settled (c : Ctx) (u : ℕ) : Prop where
  rise : c.criticalRiseThreshold < u → c.criticalFallTime < c.criticalRiseTime
  fall : u < c.criticalFallThreshold → c.criticalRiseTime ≤ c.criticalFallTime

theorem test_settled (c : Ctx) (p : Poll) (h : c.Settled p.utilization) : c.test p = (c, []) := by
  have hr : ¬RiseFires c p := fun hr => absurd (h.rise hr.1) (Int.not_lt.mpr hr.2)
  have hf : ¬FallFires c p := fun hf => absurd hf.2 (Int.not_lt.mpr (h.fall hf.1))
  simp only [Ctx.test, Ctx.afterRise, Ctx.afterFall, if_neg hr, if_neg hf, List.append_nil]

theorem run_settled (c : Ctx) (u : ℕ) (ps : List Poll) (hu : ∀ p ∈ ps, p.utilization = u)
    (h : c.Settled u) : (run Ctx.test c ps).2.flatten = [] := by
  induction ps with
  | nil => rfl
  | cons p ps ih =>
    have hp : p.utilization = u := hu p (List.mem_cons_self ..)
    have htest := test_settled c p (hp.symm ▸ h)
    rw [run_cons_outputs, htest, List.flatten_cons, List.nil_append]
    exact ih fun q hq => hu q (List.mem_cons_of_mem _ hq)

theorem test_oneSided (c : Ctx) (p : Poll) (h : c.OneSided p.utilization) :
    (RiseFires c p ∧ c.test p = ({ c with criticalRiseTime := p.riseNow }, [.rise])) ∨
    (FallFires c p ∧ c.test p = ({ c with criticalFallTime := p.fallNow }, [.fall])) ∨
    (¬RiseFires c p ∧ ¬FallFires c p ∧ c.test p = (c, [])) := by
  by_cases hr : RiseFires c p
  · have hno : ¬FallFires { c with criticalRiseTime := p.riseNow } p :=
      fun hf => h ⟨hr.1, hf.1⟩
    left
    refine ⟨hr, ?_⟩
    simp only [Ctx.test, Ctx.afterRise, Ctx.afterFall, if_pos hr, if_neg hno, List.append_nil]
  · by_cases hf : FallFires c p
    · refine Or.inr (Or.inl ⟨hf, ?_⟩)
      simp only [Ctx.test, Ctx.afterRise, Ctx.afterFall, if_neg hr, if_pos hf, List.nil_append]
    · refine Or.inr (Or.inr ⟨hr, hf, ?_⟩)
      simp only [Ctx.test, Ctx.afterRise, Ctx.afterFall, if_neg hr, if_neg hf, List.append_nil]

theorem test_settles (c : Ctx) (p : Poll) (h : c.OneSided p.utilization) (hp : p.Moves c) :
    (c.test p).1.Settled p.utilization := by
  rcases test_oneSided c p h with ⟨hr, htest⟩ | ⟨hf, htest⟩ | ⟨hr, hf, htest⟩
  · rw [htest]
    exact ⟨fun _ => hp.rise hr, fun hlt => absurd ⟨hr.1, hlt⟩ h⟩
  · rw [htest]
    exact ⟨fun hlt => absurd ⟨hlt, hf.1⟩ h, fun _ => hp.fall hf⟩
  · rw [htest]
    refine ⟨fun hlt => ?_, fun hlt => ?_⟩
    · by_contra hle
      exact hr ⟨hlt, Int.not_lt.mp hle⟩
    · by_contra hle
      exact hf ⟨hlt, Int.not_le.mp hle⟩

theorem test_atMostOnce (c : Ctx) (p : Poll) : AtMostOnce (c.test p).2 := by
  unfold Ctx.test AtMostOnce
  dsimp only
  split <;> split <;> decide

/-! ### A second notification -/

theorem rise_mem_test (c : Ctx) (p : Poll) : .rise ∈ (c.test p).2 ↔ RiseFires c p := by
  unfold Ctx.test
  dsimp only
  split <;> split <;> simp_all

theorem fall_mem_test (c : Ctx) (p : Poll) :
    .fall ∈ (c.test p).2 ↔ FallFires (c.afterRise p) p := by
  unfold Ctx.test
  dsimp only
  split <;> split <;> simp_all

/-- With the utilisation on both sides every poll leaves the mode for a test of the next
one to fire again. -/
theorem twice_twoSided (c : Ctx) (p q : Poll) (hp : ¬c.OneSided p.utilization)
    (hpq : q.utilization = p.utilization) (hwithin : p.riseNow ≤ p.fallNow)
    (hbetween : p.fallNow < q.riseNow) :
    ∃ e, e ∈ (c.test p).2 ∧ e ∈ ((c.test p).1.test q).2 := by
  obtain ⟨hrise, hfall⟩ := Classical.not_not.mp hp
  by_cases hmode : c.criticalRiseTime > c.criticalFallTime
  · have hr : ¬RiseFires c p := fun hr => absurd hmode (Int.not_lt.mpr hr.2)
    have hf : FallFires c p := ⟨hfall, hmode⟩
    have htest : c.test p = ({ c with criticalFallTime := p.fallNow }, [.fall]) := by
      simp only [Ctx.test, Ctx.afterRise, Ctx.afterFall, if_neg hr, if_pos hf, List.nil_append]
    refine ⟨.fall, ?_, ?_⟩
    · rw [htest]
      exact List.mem_singleton_self _
    · rw [htest, fall_mem_test, Ctx.afterRise]
      by_cases hr' : RiseFires { c with criticalFallTime := p.fallNow } q
      · rw [if_pos hr']
        exact ⟨by rw [hpq]; exact hfall, hbetween⟩
      · rw [if_neg hr']
        refine ⟨by rw [hpq]; exact hfall, ?_⟩
        by_contra hle
        exact hr' ⟨by rw [hpq]; exact hrise, Int.not_lt.mp hle⟩
  · have hr : RiseFires c p := ⟨hrise, Int.not_lt.mp hmode⟩
    have hctx : (c.test p).1 = ({ c with criticalRiseTime := p.riseNow } : Ctx).afterFall p := by
      simp only [Ctx.test, Ctx.afterRise, if_pos hr]
    refine ⟨.rise, (rise_mem_test c p).mpr hr, ?_⟩
    rw [rise_mem_test, hctx, Ctx.afterFall]
    by_cases hf : FallFires { c with criticalRiseTime := p.riseNow } p
    · rw [if_pos hf]
      exact ⟨by rw [hpq]; exact hrise, hwithin⟩
    · rw [if_neg hf]
      refine ⟨by rw [hpq]; exact hrise, ?_⟩
      by_contra hle
      exact hf ⟨hfall, Int.not_le.mp hle⟩

/-- A timestamp that does not come to lie on its side leaves the mode as it was. -/
theorem twice_unmoved (c : Ctx) (p q : Poll) (hp : c.OneSided p.utilization) (hmoves : ¬p.Moves c)
    (hpq : q.utilization = p.utilization) :
    ∃ e, e ∈ (c.test p).2 ∧ e ∈ ((c.test p).1.test q).2 := by
  rcases test_oneSided c p hp with ⟨hr, htest⟩ | ⟨hf, htest⟩ | ⟨hr, hf, -⟩
  · have hstays : ¬c.criticalFallTime < p.riseNow := fun h =>
      hmoves ⟨fun _ => h, fun hf => absurd hf.2 (Int.not_lt.mpr hr.2)⟩
    refine ⟨.rise, (rise_mem_test c p).mpr hr, (rise_mem_test _ q).mpr ?_⟩
    rw [htest]
    exact ⟨by rw [hpq]; exact hr.1, Int.not_lt.mp hstays⟩
  · have hstays : ¬c.criticalRiseTime ≤ p.fallNow := fun h =>
      hmoves ⟨fun hr => absurd hf.2 (Int.not_lt.mpr hr.2), fun _ => h⟩
    have hnone : ¬RiseFires { c with criticalFallTime := p.fallNow } q :=
      fun hr => hstays hr.2
    refine ⟨.fall, ?_, ?_⟩
    · rw [htest]
      exact List.mem_singleton_self _
    · rw [htest, fall_mem_test, Ctx.afterRise, if_neg hnone]
      exact ⟨by rw [hpq]; exact hf.1, Int.not_le.mp hstays⟩
  · exact absurd ⟨fun h => absurd h hr, fun h => absurd h hf⟩ hmoves

theorem not_atMostOnce (a b rest : List Edge) (e : Edge) (ha : e ∈ a) (hb : e ∈ b) :
    ¬AtMostOnce (a ++ (b ++ rest)) := by
  have hcount : 2 ≤ (a ++ (b ++ rest)).count e := by
    have ha' := List.count_pos_iff.mpr ha
    have hb' := List.count_pos_iff.mpr hb
    rw [List.count_append, List.count_append]
    omega
  rintro ⟨hrise, hfall⟩
  cases e <;> omega

theorem steady_once_iff (c : Ctx) (u : ℕ) (ps : List Poll) (h : Steady u ps) :
    AtMostOnce (run Ctx.test c ps).2.flatten ↔ Settles c u ps := by
  cases ps with
  | nil => exact iff_of_true ⟨Nat.zero_le 1, Nat.zero_le 1⟩ (Or.inl (Nat.zero_le 1))
  | cons p ps =>
    have hp : p.utilization = u := h.utilization p (List.mem_cons_self ..)
    rw [run_cons_outputs, List.flatten_cons]
    constructor
    · intro honce
      cases ps with
      | nil => exact Or.inl (Nat.le_refl 1)
      | cons q ps =>
        have hq : q.utilization = p.utilization := by
          rw [hp]
          exact h.utilization q (List.mem_cons_of_mem _ (List.mem_cons_self ..))
        have hbetween := (List.isChain_cons_cons.mp h.between).1
        rw [run_cons_outputs, List.flatten_cons] at honce
        right
        by_contra hno
        have htwice : ∃ e, e ∈ (c.test p).2 ∧ e ∈ ((c.test p).1.test q).2 := by
          by_cases hsided : c.OneSided p.utilization
          · refine twice_unmoved c p q hsided (fun hmoves => hno ⟨hp ▸ hsided, ?_⟩) hq
            exact fun p' hp' => Option.mem_some.mp hp' ▸ hmoves
          · exact twice_twoSided c p q hsided hq (h.within p (List.mem_cons_self ..)) hbetween
        obtain ⟨e, hfirst, hsecond⟩ := htwice
        exact not_atMostOnce _ _ _ e hfirst hsecond honce
    · intro hsettles
      have hrest : (run Ctx.test (c.test p).1 ps).2.flatten = [] := by
        rcases hsettles with hone | ⟨hsided, hmoves⟩
        · obtain rfl : ps = [] := by simpa using hone
          rfl
        · exact run_settled _ u ps (fun q hq => h.utilization q (List.mem_cons_of_mem _ hq))
            (hp ▸ test_settles c p (hp.symm ▸ hsided) (hmoves p rfl))
      rw [hrest, List.append_nil]
      exact test_atMostOnce c p

/-! ### Runs of the monitors -/

def pollsOf (outs : List Out) : List Poll := outs.filterMap Out.polled

def NotifiesOnce (outs : List Out) : Prop := AtMostOnce (notifications outs).flatten

instance (outs : List Out) : Decidable (NotifiesOnce outs) := inferInstanceAs (Decidable (_ ∧ _))

/-- A machine each of whose steps is a poll notifies what its polls do. -/
theorem notifications_polls {σ ρ : Type} (step : σ → ρ → σ × Out) (mon : σ → State) (n : Names)
    (event : ℕ → Effect) (hevent : ∀ u, edgeOf (event u) = none)
    (hstep : ∀ s r, ∃ p, (step s r).2.polled = some p ∧
      (mon (step s r).1, (step s r).2.effects) =
        runMonitor n event (mon s) p.utilization p.riseNow p.fallNow)
    (s : σ) (rs : List ρ) :
    notifications (run step s rs).2 =
      (run Ctx.test (mon s).ctx (pollsOf (run step s rs).2)).2 := by
  induction rs generalizing s with
  | nil => rfl
  | cons r rs ih =>
    obtain ⟨p, hpolled, hrun⟩ := hstep s r
    have htest := runMonitor_test n event (mon s) p hevent
    rw [← hrun] at htest
    have hpolls : pollsOf (run step s (r :: rs)).2 = p :: pollsOf (run step (step s r).1 rs).2 := by
      rw [run_cons_outputs, pollsOf, List.filterMap_cons, hpolled]
      rfl
    rw [hpolls, run_cons_outputs, notifications, List.map_cons, run_cons_outputs, ← htest]
    exact congrArg _ (ih (step s r).1)

/-- Under a constant utilisation both monitors notify one rise and one fall at most,
exactly when their polls settle. -/
theorem steady_notifies_once_iff (u : ℕ) :
    (∀ (m : State) (rs : List MemoryReading),
      Steady u (pollsOf (run runMemoryMonitor m rs).2) →
      (NotifiesOnce (run runMemoryMonitor m rs).2 ↔
        Settles m.ctx u (pollsOf (run runMemoryMonitor m rs).2))) ∧
    (∀ (c : CpuInfo) (rs : List CpuReading),
      Steady u (pollsOf (run runCpuMonitor c rs).2) →
      (NotifiesOnce (run runCpuMonitor c rs).2 ↔
        Settles c.mon.ctx u (pollsOf (run runCpuMonitor c rs).2))) := by
  constructor
  · intro m rs hsteady
    have hpolls := notifications_polls runMemoryMonitor id memoryNames memoryCriticalStateEvent
      (fun _ => rfl) (fun m r => ⟨r.poll, rfl, rfl⟩) m rs
    rw [NotifiesOnce, hpolls]
    exact steady_once_iff m.ctx u _ hsteady
  · intro c rs hsteady
    have hpolls := notifications_polls runCpuMonitor CpuInfo.mon cpuNames cpuCriticalStateEvent
      (fun _ => rfl) (fun c r => ⟨_, rfl, rfl⟩) c rs
    rw [NotifiesOnce, hpolls]
    exact steady_once_iff c.mon.ctx u _ hsteady

/-- Memory and CPU use in percent, at each of the given times. -/
def memoryUsed (percent : UInt64) (times : List ℤ) : List MemoryReading :=
  times.map fun t => ⟨some ⟨100, 100 - percent, 0, 0, 0⟩, t, t⟩

def cpuUsed (percent : UInt64) (times : List ℤ) : List CpuReading :=
  times.mapIdx fun i t =>
    ⟨[[percent * (UInt64.ofNat i + 1), 0, 0, (100 - percent) * (UInt64.ofNat i + 1)]], t, t⟩

theorem steady_notifies_once_sample :
    NotifiesOnce (run runMemoryMonitor (.load memoryNames sampleUci)
        (memoryUsed 90 [100, 160, 220])).2 ∧
      NotifiesOnce (run runCpuMonitor (fillGlobalCpuInfo sampleUci [])
        (cpuUsed 90 [100, 105, 110])).2 := by
  obtain ⟨hmemory, hcpu⟩ := steady_notifies_once_iff 90
  have hmoves : ∀ c p, c.criticalFallTime < p.riseNow → ¬FallFires c p → Poll.Moves c p :=
    fun c p hrise hfall => ⟨fun _ => hrise, fun hf => absurd hf hfall⟩
  constructor
  · refine (hmemory _ _ ⟨by decide, by decide, by decide⟩).mpr (Or.inr ⟨by decide, ?_⟩)
    intro p hp
    obtain rfl := Option.mem_some.mp hp
    exact hmoves _ _ (by decide) (by decide)
  · refine (hcpu _ _ ⟨by decide, by decide, by decide⟩).mpr (Or.inr ⟨by decide, ?_⟩)
    intro p hp
    obtain rfl := Option.mem_some.mp hp
    exact hmoves _ _ (by decide) (by decide)

def crossed : Named :=
  (sampleUci.set "memory" "critical_rise_threshold" "20".toList).set "memory"
    "critical_fall_threshold" "80".toList

theorem crossed_thresholds_repeat :
    ¬∀ (validate : Range → Str → Bool), DocumentedUnsignedInt validate →
      ∀ (uci risen fallen : Named) (rise fall : Str),
      setDeviceInfoMemoryStatusMemoryMonitorCriticalRiseThreshold validate uci rise = some risen →
      setDeviceInfoMemoryStatusMemoryMonitorCriticalFallThreshold validate risen fall =
        some fallen →
      ∀ (rs : List MemoryReading) (u : ℕ),
        Steady u (pollsOf (run runMemoryMonitor (.load memoryNames fallen) rs).2) →
        NotifiesOnce (run runMemoryMonitor (.load memoryNames fallen) rs).2 := by
  intro hall
  have honce := hall Range.accepts accepts_documented sampleUci _ crossed "20".toList "80".toList
    rfl rfl (memoryUsed 50 [100, 160]) 50 ⟨by decide, by decide, by decide⟩
  exact absurd honce (by decide)

end Sysmngr.Monitor
