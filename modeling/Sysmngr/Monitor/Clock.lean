import Sysmngr.Monitor.Automaton

/-!
# The monitors and the wall clock

The mode is the order of two timestamps, so a notification whose timestamp does not
come to lie on its side of the other one leaves the mode as it was. Where every
timestamp does, in memory and as a reload reads it back, the clock has no say in
what is notified.
-/

namespace Sysmngr.Monitor
open Text Uci Machine Hysteresis

/-! ### One poll -/

/-- A timestamp written by the poll comes to lie on its side of the other one, in
memory and in the package. -/
structure Poll.Turns (n : Names) (s : State) (p : Poll) : Prop where
  moves : p.Moves s.ctx
  riseStored : RiseFires s.ctx p → (fillGlobal n s.uci).criticalFallTime < readBack p.riseNow
  fallStored : FallFires s.ctx p → (fillGlobal n s.uci).criticalRiseTime ≤ readBack p.fallNow

instance (c : Ctx) (p : Poll) : Decidable (RiseFires c p) := inferInstanceAs (Decidable (_ ∧ _))

instance (c : Ctx) (p : Poll) : Decidable (FallFires c p) := inferInstanceAs (Decidable (_ ∧ _))

instance (n : Names) (s : State) (p : Poll) : Decidable (p.Turns n s) :=
  decidable_of_iff
    ((RiseFires s.ctx p → s.ctx.criticalFallTime < p.riseNow ∧
        (fillGlobal n s.uci).criticalFallTime < readBack p.riseNow) ∧
      (FallFires s.ctx p → s.ctx.criticalRiseTime ≤ p.fallNow ∧
        (fillGlobal n s.uci).criticalRiseTime ≤ readBack p.fallNow))
    ⟨fun h => ⟨⟨fun hr => (h.1 hr).1, fun hf => (h.2 hf).1⟩, fun hr => (h.1 hr).2,
        fun hf => (h.2 hf).2⟩,
      fun h => ⟨fun hr => ⟨h.moves.rise hr, h.riseStored hr⟩,
        fun hf => ⟨h.moves.fall hf, h.fallStored hf⟩⟩⟩

def SettingsOf (c d : Ctx) : Prop :=
  ∃ rise fall, d = { c with criticalRiseTime := rise, criticalFallTime := fall }

/-- The context and what a reload would read have the settings of `c` and the mode `m`. -/
structure Keeps (n : Names) (c : Ctx) (m : Mode) (s : State) : Prop where
  settings : SettingsOf c s.ctx
  storedSettings : SettingsOf c (fillGlobal n s.uci)
  mode : modeOf s.ctx = m
  storedMode : modeOf (fillGlobal n s.uci) = m

theorem keeps_load (n : Names) (c : Ctx) (m : Mode) (s : State) (h : Keeps n c m s) :
    Keeps n c m (.load n s.uci) :=
  ⟨h.storedSettings, h.storedSettings, h.storedMode, h.storedMode⟩

theorem runMonitor_keeps (n : Names) (event : ℕ → Effect) (c : Ctx) (m : Mode) (s : State)
    (p : Poll) (hevent : ∀ u, edgeOf (event u) = none) (hs : Keeps n c m s)
    (hle : c.criticalFallThreshold ≤ c.criticalRiseThreshold) (hp : p.Turns n s) :
    Keeps n c (Hysteresis.step c.criticalRiseThreshold c.criticalFallThreshold m p.utilization).1
        (runMonitor n event s p.utilization p.riseNow p.fallNow).1 ∧
      edges (runMonitor n event s p.utilization p.riseNow p.fallNow).2 =
        (Hysteresis.step c.criticalRiseThreshold c.criticalFallThreshold m p.utilization).2.toList := by
  obtain ⟨⟨rise, fall, hctx⟩, ⟨rise', fall', hstored⟩, rfl, hmode'⟩ := hs
  have hrise : s.ctx.criticalRiseThreshold = c.criticalRiseThreshold := by rw [hctx]
  have hfall : s.ctx.criticalFallThreshold = c.criticalFallThreshold := by rw [hctx]
  have hedges : ∀ e, edges (render n event s.ctx p e ++ [rearm s.ctx]) = e.toList := by
    intro e
    have hrearm : edges [rearm s.ctx] = [] := rfl
    rw [edges_append, edges_render n event s.ctx p e hevent, hrearm, List.append_nil]
  rw [← hrise, ← hfall] at hle ⊢
  rcases runMonitor_cases n event s p hle with ⟨hr, hrun⟩ | ⟨hf, hrun⟩ | ⟨hr, hf, hrun⟩
  · have hmode : modeOf s.ctx = .normal := if_neg (Int.not_lt.mpr hr.2)
    have hstep : Hysteresis.step s.ctx.criticalRiseThreshold s.ctx.criticalFallThreshold
        (modeOf s.ctx) p.utilization = (.critical, some .rise) := by
      rw [hmode]
      exact if_pos hr.1
    rw [hrun, hstep, hedges]
    refine ⟨⟨⟨p.riseNow, fall, by rw [hctx]⟩, ⟨readBack p.riseNow, fall', ?_⟩, ?_, ?_⟩, rfl⟩
    · rw [fillGlobal_riseTime, hstored]
    · exact if_pos (hp.moves.rise hr)
    · rw [fillGlobal_riseTime]
      exact if_pos (hp.riseStored hr)
  · have hmode : modeOf s.ctx = .critical := if_pos hf.2
    have hstep : Hysteresis.step s.ctx.criticalRiseThreshold s.ctx.criticalFallThreshold
        (modeOf s.ctx) p.utilization = (.normal, some .fall) := by
      rw [hmode]
      exact if_pos hf.1
    rw [hrun, hstep, hedges]
    refine ⟨⟨⟨rise, p.fallNow, by rw [hctx]⟩, ⟨rise', readBack p.fallNow, ?_⟩, ?_, ?_⟩, rfl⟩
    · rw [fillGlobal_fallTime, hstored]
    · exact if_neg (Int.not_lt.mpr (hp.moves.fall hf))
    · rw [fillGlobal_fallTime]
      exact if_neg (Int.not_lt.mpr (hp.fallStored hf))
  · have hstep : Hysteresis.step s.ctx.criticalRiseThreshold s.ctx.criticalFallThreshold
        (modeOf s.ctx) p.utilization = (modeOf s.ctx, none) := by
      by_cases hm : s.ctx.criticalRiseTime > s.ctx.criticalFallTime
      · have hmode : modeOf s.ctx = .critical := if_pos hm
        rw [hmode]
        exact if_neg fun h => hf ⟨h, hm⟩
      · have hmode : modeOf s.ctx = .normal := if_neg hm
        rw [hmode]
        exact if_neg fun h => hr ⟨h, Int.not_lt.mp hm⟩
    rw [hrun, hstep, hedges]
    exact ⟨⟨⟨rise, fall, hctx⟩, ⟨rise', fall', hstored⟩, rfl, hmode'⟩, rfl⟩

/-! ### Runs -/

/-- A machine that runs the monitor: the state in which a poll tests the thresholds
is the one kept or the one read from the package. -/
structure Monitors {σ ε : Type} (n : Names) (event : ℕ → Effect) (step : σ → ε → σ × Out)
    (mon : σ → State) (met : σ → ε → State) : Prop where
  meets : ∀ s e, met s e = mon s ∨ met s e = .load n (mon s).uci
  polls : ∀ s e p, (step s e).2.polled = some p →
    (mon (step s e).1, (step s e).2.effects) =
      runMonitor n event (met s e) p.utilization p.riseNow p.fallNow
  idles : ∀ s e, (step s e).2.polled = none →
    mon (step s e).1 = met s e ∧ edges (step s e).2.effects = []

def PollsTurn {σ ε : Type} (n : Names) (step : σ → ε → σ × Out) (met : σ → ε → State) (s : σ)
    (e : ε) : Prop := ∀ p ∈ (step s e).2.polled, p.Turns n (met s e)

instance {σ ε : Type} (n : Names) (step : σ → ε → σ × Out) (met : σ → ε → State) (s : σ) (e : ε) :
    Decidable (PollsTurn n step met s e) :=
  inferInstanceAs (Decidable (∀ p ∈ (step s e).2.polled, p.Turns n (met s e)))

def utilizationsPolled (outs : List Out) : List (Option ℕ) :=
  outs.map fun o => o.polled.map Poll.utilization

def notifications (outs : List Out) : List (List Edge) := outs.map fun o => edges o.effects

def hear (c : Ctx) (m : Mode) : Option ℕ → Mode × List Edge
  | none => (m, [])
  | some u =>
    let r := Hysteresis.step c.criticalRiseThreshold c.criticalFallThreshold m u
    (r.1, r.2.toList)

theorem notifications_eq {σ ε : Type} {n : Names} {event : ℕ → Effect} {step : σ → ε → σ × Out}
    {mon : σ → State} {met : σ → ε → State} (hmon : Monitors n event step mon met)
    (hevent : ∀ u, edgeOf (event u) = none) (c : Ctx)
    (hle : c.criticalFallThreshold ≤ c.criticalRiseThreshold) (m : Mode) (s : σ) (es : List ε)
    (hs : Keeps n c m (mon s)) (hP : Along step (PollsTurn n step met) s es) :
    notifications (run step s es).2 = (run (hear c) m (utilizationsPolled (run step s es).2)).2 := by
  have hstep : ∀ s m e, Keeps n c m (mon s) → PollsTurn n step met s e →
      Keeps n c (hear c m ((step s e).2.polled.map Poll.utilization)).1 (mon (step s e).1) ∧
        edges (step s e).2.effects = (hear c m ((step s e).2.polled.map Poll.utilization)).2 := by
    intro s m e hk ht
    have hmet : Keeps n c m (met s e) := by
      rcases hmon.meets s e with h | h
      · rw [h]
        exact hk
      · rw [h]
        exact keeps_load n c m _ hk
    cases hp : (step s e).2.polled with
    | none =>
      obtain ⟨hnext, hedges⟩ := hmon.idles s e hp
      rw [hnext, hedges]
      exact ⟨hmet, rfl⟩
    | some p =>
      have hrun := hmon.polls s e p hp
      have hkeeps := runMonitor_keeps n event c m (met s e) p hevent hmet hle (ht p hp)
      rw [← hrun] at hkeeps
      exact hkeeps
  exact (run_simulates_observed step (hear c) (fun s m => Keeps n c m (mon s))
    (fun o => o.polled.map Poll.utilization) (fun o => edges o.effects) (PollsTurn n step met)
    hstep s m es hs hP).2

/-! ### Both monitors -/

def memoryMet (m : State) : MemoryEvent → State
  | .timer _ => m
  | .reload _ => .load memoryNames m.uci

def cpuMet (c : CpuInfo) : CpuEvent → State
  | .timer _ => c.mon
  | .reload _ => .load cpuNames c.mon.uci

/-- A reload of the memory monitor polls at once, or it does nothing further. -/
theorem memory_reload (s : State) (r : MemoryReading) :
    memoryStep s (.reload r) = runMemoryMonitor (.load memoryNames s.uci) r ∨
      memoryStep s (.reload r) = (.load memoryNames s.uci, ⟨none, []⟩) := by
  simp only [memoryStep, sysmngrMemoryInit]
  split
  · exact Or.inl rfl
  · exact Or.inr rfl

theorem memory_monitors : Monitors memoryNames memoryCriticalStateEvent memoryStep id memoryMet where
  meets s e := by
    cases e with
    | timer r => exact Or.inl rfl
    | reload r => exact Or.inr rfl
  polls s e p hp := by
    cases e with
    | timer r =>
      obtain rfl := Option.some.inj hp
      rfl
    | reload r =>
      rcases memory_reload s r with h | h
      · rw [h] at hp ⊢
        obtain rfl := Option.some.inj hp
        rfl
      · rw [h] at hp
        simp at hp
  idles s e hp := by
    cases e with
    | timer r => simp [memoryStep, runMemoryMonitor] at hp
    | reload r =>
      rcases memory_reload s r with h | h
      · rw [h] at hp
        simp [runMemoryMonitor] at hp
      · rw [h]
        exact ⟨rfl, rfl⟩

theorem cpu_monitors : Monitors cpuNames cpuCriticalStateEvent cpuStep CpuInfo.mon cpuMet where
  meets s e := by
    cases e with
    | timer r => exact Or.inl rfl
    | reload stat => exact Or.inr rfl
  polls s e p hp := by
    cases e with
    | timer r =>
      obtain rfl := Option.some.inj hp
      rfl
    | reload stat => simp [cpuStep, sysmngrCpuInit] at hp
  idles s e hp := by
    cases e with
    | timer r => simp [cpuStep, runCpuMonitor] at hp
    | reload stat =>
      refine ⟨rfl, ?_⟩
      simp only [cpuStep, sysmngrCpuInit]
      split <;> rfl

theorem keeps_initial (n : Names) (uci : Named) :
    Keeps n (fillGlobal n uci) (modeOf (fillGlobal n uci)) (.load n uci) :=
  ⟨⟨_, _, rfl⟩, ⟨_, _, rfl⟩, rfl, rfl⟩

/-- Two runs from the same package that poll the same utilisations notify the same
rises and falls, whatever their clocks read, as long as every timestamp turns the mode. -/
theorem notifications_clock_free (uci : Named) :
    (∀ events events' : List MemoryEvent,
      (fillGlobal memoryNames uci).criticalFallThreshold ≤
        (fillGlobal memoryNames uci).criticalRiseThreshold →
      utilizationsPolled (run memoryStep (.load memoryNames uci) events).2 =
        utilizationsPolled (run memoryStep (.load memoryNames uci) events').2 →
      Along memoryStep (PollsTurn memoryNames memoryStep memoryMet) (.load memoryNames uci) events →
      Along memoryStep (PollsTurn memoryNames memoryStep memoryMet) (.load memoryNames uci) events' →
      notifications (run memoryStep (.load memoryNames uci) events).2 =
        notifications (run memoryStep (.load memoryNames uci) events').2) ∧
    (∀ (stat stat' : List (List UInt64)) (events events' : List CpuEvent),
      (fillGlobal cpuNames uci).criticalFallThreshold ≤
        (fillGlobal cpuNames uci).criticalRiseThreshold →
      utilizationsPolled (run cpuStep (fillGlobalCpuInfo uci stat) events).2 =
        utilizationsPolled (run cpuStep (fillGlobalCpuInfo uci stat') events').2 →
      Along cpuStep (PollsTurn cpuNames cpuStep cpuMet) (fillGlobalCpuInfo uci stat) events →
      Along cpuStep (PollsTurn cpuNames cpuStep cpuMet) (fillGlobalCpuInfo uci stat') events' →
      notifications (run cpuStep (fillGlobalCpuInfo uci stat) events).2 =
        notifications (run cpuStep (fillGlobalCpuInfo uci stat') events').2) := by
  constructor
  · intro events events' hle hsame hP hP'
    have h := notifications_eq memory_monitors (fun _ => rfl) _ hle _ (.load memoryNames uci)
      events (keeps_initial memoryNames uci) hP
    have h' := notifications_eq memory_monitors (fun _ => rfl) _ hle _ (.load memoryNames uci)
      events' (keeps_initial memoryNames uci) hP'
    rw [h, h', hsame]
  · intro stat stat' events events' hle hsame hP hP'
    have h := notifications_eq cpu_monitors (fun _ => rfl) _ hle _
      (fillGlobalCpuInfo uci stat) events (keeps_initial cpuNames uci) hP
    have h' := notifications_eq cpu_monitors (fun _ => rfl) _ hle _
      (fillGlobalCpuInfo uci stat') events' (keeps_initial cpuNames uci) hP'
    rw [h, h', hsame]

/-- Memory use of 90, 50, 90 and 90 percent, polled at the given times. -/
def memoryAt (a b c d : ℤ) : List MemoryEvent :=
  [.timer ⟨some ⟨100, 10, 0, 0, 0⟩, a, a⟩, .timer ⟨some ⟨100, 50, 0, 0, 0⟩, b, b⟩,
    .timer ⟨some ⟨100, 10, 0, 0, 0⟩, c, c⟩, .timer ⟨some ⟨100, 10, 0, 0, 0⟩, d, d⟩]

def cpuAt (a b : ℤ) : List CpuEvent :=
  [.timer ⟨[[90, 0, 0, 10]], a, a⟩, .timer ⟨[[100, 0, 0, 100]], b, b⟩]

theorem notifications_clock_free_sample :
    notifications (run memoryStep (.load memoryNames sampleUci) (memoryAt 100 100 101 50)).2 =
      notifications (run memoryStep (.load memoryNames sampleUci) (memoryAt 5 70 80 90)).2 ∧
    notifications (run cpuStep (fillGlobalCpuInfo sampleUci []) (cpuAt 100 100)).2 =
      notifications (run cpuStep (fillGlobalCpuInfo sampleUci []) (cpuAt 5 70)).2 := by
  obtain ⟨hmemory, hcpu⟩ := notifications_clock_free sampleUci
  exact ⟨hmemory _ _ (by decide) (by decide) (by decide) (by decide),
    hcpu [] [] _ _ (by decide) (by decide) (by decide) (by decide)⟩

/-- The clock steps back before the second rise: it is notified twice. -/
theorem rise_repeated_after_step_back :
    (fillGlobal memoryNames sampleUci).criticalFallThreshold ≤
        (fillGlobal memoryNames sampleUci).criticalRiseThreshold ∧
      utilizationsPolled
          (run memoryStep (.load memoryNames sampleUci) (memoryAt 100 200 150 160)).2 =
        utilizationsPolled
          (run memoryStep (.load memoryNames sampleUci) (memoryAt 100 200 300 400)).2 ∧
      notifications (run memoryStep (.load memoryNames sampleUci) (memoryAt 100 200 150 160)).2 ≠
        notifications (run memoryStep (.load memoryNames sampleUci) (memoryAt 100 200 300 400)).2 := by
  decide

end Sysmngr.Monitor
