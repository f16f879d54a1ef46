import Sysmngr.Monitor.Delays
import Sysmngr.Monitor.Samples

/-!
# Timers and arrays of the monitors (`memory.c`, `processes.c`, `sysmngr.c`)

A start or a reload cancels a monitor's timer and reads its settings; until the next one
the configuration may change as it will. The arrays of the CPU monitor are allocated with
the settings, and any of the four allocations may fail.
-/

namespace Sysmngr.Monitor
open Text Uci Machine

/-- A monitor with what the main loop holds for it. -/
structure Timed (σ : Type) where
  state : σ
  timer : Option ℤ

/-- The timer fires, the package is written, or `sysmngr.reload` is received. -/
inductive LifeEvent (ρ γ : Type) where
  | timer (r : ρ)
  | config (uci : Named)
  | reload (r : γ)

def LifeEvent.isTimer {ρ γ : Type} : LifeEvent ρ γ → Bool
  | .timer _ => true
  | _ => false

/-- Without a reload, and the timer fires only when it is pending. -/
def LifeEvent.Continues {σ ρ γ : Type} (s : Timed σ) : LifeEvent ρ γ → Prop
  | .timer _ => s.timer.isSome
  | .config _ => True
  | .reload _ => False

instance {σ ρ γ : Type} (s : Timed σ) : ∀ e : LifeEvent ρ γ, Decidable (e.Continues s)
  | .timer _ => inferInstanceAs (Decidable (s.timer.isSome = true))
  | .config _ => isTrue trivial
  | .reload _ => isFalse id

def timerAfter (timer : Option ℤ) (o : Out) : Option ℤ := (delays o.effects).getLast?.or timer

/-! ### Memory -/

/-- `sysmngr_memory_clean` has cancelled the timer before a reload reads the settings. -/
def memoryLife (s : Timed State) : LifeEvent MemoryReading MemoryReading → Timed State × Out
  | .timer r =>
    let t := runMemoryMonitor s.state r
    (⟨t.1, timerAfter none t.2⟩, t.2)
  | .config uci => ({ s with state := { s.state with uci := uci } }, ⟨none, []⟩)
  | .reload r =>
    let t := sysmngrMemoryInit s.state r
    (⟨t.1, timerAfter none t.2⟩, t.2)

/-! ### CPU -/

/-- What `calloc` gave for each of the four arrays. -/
structure Allocated where
  utilization : Bool
  user : Bool
  system : Bool
  idle : Bool

def Allocated.all (a : Allocated) : Bool := a.utilization && a.user && a.system && a.idle

/-- An array that is not allocated has no elements, and the counters are not read then. -/
def fillGlobalCpuInfoAlloc (uci : Named) (a : Allocated) (stat : List (List UInt64)) : CpuInfo :=
  let c := fillGlobalCpuInfo uci stat
  if a.all then c
  else
    { c with
      jiffy := .zero
      utilizationSamples := if a.utilization then c.utilizationSamples else []
      userUtilizationSamples := if a.user then c.userUtilizationSamples else []
      systemUtilizationSamples := if a.system then c.systemUtilizationSamples else []
      idleUtilizationSamples := if a.idle then c.idleUtilizationSamples else [] }

def sysmngrCpuInitAlloc (uci : Named) (a : Allocated) (stat : List (List UInt64)) :
    CpuInfo × Out :=
  let c := fillGlobalCpuInfoAlloc uci a stat
  (c, ⟨none, if a.all && c.mon.ctx.enable then [rearm c.mon.ctx] else []⟩)

def cpuLife (s : Timed CpuInfo) :
    LifeEvent CpuReading (Allocated × List (List UInt64)) → Timed CpuInfo × Out
  | .timer r =>
    let t := runCpuMonitor s.state r
    (⟨t.1, timerAfter none t.2⟩, t.2)
  | .config uci =>
    ({ s with state := { s.state with mon := { s.state.mon with uci := uci } } }, ⟨none, []⟩)
  | .reload r =>
    let t := sysmngrCpuInitAlloc s.state.mon.uci r.1 r.2
    (⟨t.1, timerAfter none t.2⟩, t.2)

/-! ### Timers -/

def millis (c : Ctx) : ℤ := toInt ((c.interval : ℤ) * 1000)

/-- The timer of a monitor with these settings, and that every poll sets it once. -/
structure Scheduled (c : Ctx) (armed : Bool) (timer : Option ℤ) (outs : List Out) : Prop where
  timer : timer = if armed then some (millis c) else none
  polls : ∀ o ∈ outs, delays o.effects = if o.polled.isSome then [millis c] else []
  idle : armed = false → ∀ o ∈ outs, o.polled = none

theorem runMonitor_settings (n : Names) (event : ℕ → Effect) (hevent : ∀ u, delayOf (event u) = none)
    (c : Ctx) (s : State) (p : Poll) (h : SettingsOf c s.ctx) :
    SettingsOf c (runMonitor n event s p.utilization p.riseNow p.fallNow).1.ctx ∧
      delays (runMonitor n event s p.utilization p.riseNow p.fallNow).2 = [millis c] := by
  have hrise : ∀ s : State, SettingsOf c s.ctx →
      SettingsOf c (checkRise n event s p.utilization p.riseNow).1.ctx ∧
        delays (checkRise n event s p.utilization p.riseNow).2 = [] := by
    rintro s ⟨rise, fall, hctx⟩
    rcases checkRise_cases n event s p with ⟨-, hcheck⟩ | ⟨-, hcheck⟩
    · rw [hcheck]
      exact ⟨⟨p.riseNow, fall, by rw [hctx]⟩, delays_render n event hevent s.ctx p (some .rise)⟩
    · rw [hcheck]
      exact ⟨⟨rise, fall, hctx⟩, rfl⟩
  have hfall : ∀ s : State, SettingsOf c s.ctx →
      SettingsOf c (checkFall n s p.utilization p.fallNow).1.ctx ∧
        delays (checkFall n s p.utilization p.fallNow).2 = [] := by
    rintro s ⟨rise, fall, hctx⟩
    rcases checkFall_cases n event s p with ⟨-, hcheck⟩ | ⟨-, hcheck⟩
    · rw [hcheck]
      exact ⟨⟨rise, p.fallNow, by rw [hctx]⟩, delays_render n event hevent s.ctx p (some .fall)⟩
    · rw [hcheck]
      exact ⟨⟨rise, fall, hctx⟩, rfl⟩
  obtain ⟨hset, hquiet⟩ := hrise s h
  obtain ⟨hset', hquiet'⟩ := hfall _ hset
  refine ⟨hset', ?_⟩
  simp only [runMonitor, delays_append, hquiet, hquiet', delays_rearm, h.interval, List.nil_append,
    millis]

section Life
variable {σ ρ γ : Type} (step : Timed σ → LifeEvent ρ γ → Timed σ × Out) (ctx : σ → Ctx)

/-- What the events between two reloads do to the settings and to the timer. -/
structure Lives : Prop where
  timer : ∀ c s r, SettingsOf c (ctx s.state) →
    SettingsOf c (ctx (step s (.timer r)).1.state) ∧ (step s (.timer r)).1.timer = some (millis c) ∧
      (step s (.timer r)).2.polled.isSome = true ∧
      delays (step s (.timer r)).2.effects = [millis c]
  config : ∀ s uci, ctx (step s (.config uci)).1.state = ctx s.state ∧
    (step s (.config uci)).1.timer = s.timer ∧ (step s (.config uci)).2 = ⟨none, []⟩

def OnTime (c : Ctx) (armed : Bool) (s : Timed σ) : Prop :=
  SettingsOf c (ctx s.state) ∧ s.timer = if armed then some (millis c) else none

variable {step ctx}

theorem OnTime.not_idle {c : Ctx} {armed : Bool} {s : Timed σ} (hs : OnTime ctx c armed s) (r : ρ)
    (he : (LifeEvent.timer r : LifeEvent ρ γ).Continues s) : armed = true := by
  cases armed with
  | true => rfl
  | false => exact absurd he (by simp [LifeEvent.Continues, hs.2])

theorem Lives.onTime (h : Lives step ctx) {c : Ctx} {armed : Bool} (s : Timed σ)
    (e : LifeEvent ρ γ) (hs : OnTime ctx c armed s) (he : e.Continues s) :
    OnTime ctx c armed (step s e).1 := by
  cases e with
  | timer r =>
    obtain ⟨hc, ht, -⟩ := h.timer c s r hs.1
    exact ⟨hc, by rw [ht, if_pos (hs.not_idle r he)]⟩
  | config uci =>
    obtain ⟨hc, ht, -⟩ := h.config s uci
    exact ⟨hc ▸ hs.1, ht.trans hs.2⟩
  | reload r => exact absurd he id

theorem Lives.scheduled (h : Lives step ctx) (c : Ctx) (armed : Bool) (s : Timed σ)
    (hs : OnTime ctx c armed s) (es : List (LifeEvent ρ γ))
    (hes : Along step (fun s e => e.Continues s) s es) :
    Scheduled c armed (run step s es).1.timer (run step s es).2 := by
  refine ⟨(run_invariant step _ (OnTime ctx c armed) h.onTime s es hs hes).2,
    run_outputs_forall step _ (OnTime ctx c armed) _ h.onTime ?_ s es hs hes, fun hidle =>
    run_outputs_forall step _ (OnTime ctx c armed) _ h.onTime ?_ s es hs hes⟩
  · intro s e hs he
    cases e with
    | timer r =>
      obtain ⟨-, -, hpolled, hdelays⟩ := h.timer c s r hs.1
      rw [hdelays, if_pos hpolled]
    | config uci => rw [(h.config s uci).2.2]; rfl
    | reload r => exact absurd he id
  · intro s e hs he
    cases e with
    | timer r => exact absurd (hs.not_idle r he) (by simp [hidle])
    | config uci => rw [(h.config s uci).2.2]
    | reload r => exact absurd he id

end Life

theorem timerAfter_of_delays (o : Out) (ms : ℤ) (h : delays o.effects = [ms]) :
    timerAfter none o = some ms := by
  rw [timerAfter, h]
  rfl

theorem memory_lives : Lives memoryLife State.ctx where
  timer c s r hc := by
    obtain ⟨hset, hdelays⟩ := runMonitor_settings memoryNames memoryCriticalStateEvent
      (fun _ => rfl) c s.state r.poll hc
    exact ⟨hset, timerAfter_of_delays _ _ hdelays, rfl, hdelays⟩
  config _ _ := ⟨rfl, rfl, rfl⟩

theorem cpu_lives : Lives cpuLife fun c => c.mon.ctx where
  timer c s r hc := by
    obtain ⟨hset, hdelays⟩ := runMonitor_settings cpuNames cpuCriticalStateEvent (fun _ => rfl) c
      s.state.mon (s.state.poll r) hc
    exact ⟨hset, timerAfter_of_delays _ _ hdelays, rfl, hdelays⟩
  config _ _ := ⟨rfl, rfl, rfl⟩

theorem fillGlobalCpuInfoAlloc_mon (uci : Named) (a : Allocated) (stat : List (List UInt64)) :
    (fillGlobalCpuInfoAlloc uci a stat).mon = .load cpuNames uci := by
  unfold fillGlobalCpuInfoAlloc
  dsimp only
  split <;> rfl

theorem settingsOf_self (c : Ctx) : SettingsOf c c := ⟨_, _, rfl⟩

theorem memory_reload_onTime (s : Timed State) (r : MemoryReading) :
    OnTime State.ctx (fillGlobal memoryNames s.state.uci)
      (fillGlobal memoryNames s.state.uci).enable (memoryLife s (.reload r)).1 := by
  have hinit : sysmngrMemoryInit s.state r =
      if (fillGlobal memoryNames s.state.uci).enable then
        runMemoryMonitor (.load memoryNames s.state.uci) r
      else (.load memoryNames s.state.uci, ⟨none, []⟩) := rfl
  rw [memoryLife, OnTime]
  dsimp only
  rw [hinit]
  split
  · obtain ⟨hset, hdelays⟩ := runMonitor_settings memoryNames memoryCriticalStateEvent
      (fun _ => rfl) _ (.load memoryNames s.state.uci) r.poll (settingsOf_self _)
    exact ⟨hset, timerAfter_of_delays _ _ hdelays⟩
  · exact ⟨settingsOf_self _, rfl⟩

theorem cpu_reload_onTime (s : Timed CpuInfo) (a : Allocated) (stat : List (List UInt64)) :
    OnTime (fun c : CpuInfo => c.mon.ctx) (fillGlobal cpuNames s.state.mon.uci)
      (a.all && (fillGlobal cpuNames s.state.mon.uci).enable)
      (cpuLife s (.reload (a, stat))).1 := by
  have hmon := fillGlobalCpuInfoAlloc_mon s.state.mon.uci a stat
  simp only [cpuLife, OnTime, sysmngrCpuInitAlloc, hmon]
  refine ⟨settingsOf_self _, ?_⟩
  have hload : (State.load cpuNames s.state.mon.uci).ctx = fillGlobal cpuNames s.state.mon.uci :=
    rfl
  rw [hload]
  split
  · exact timerAfter_of_delays _ _ (delays_rearm _)
  · rfl

/-- After a start or a reload, whatever the configuration becomes until the next one, a
monitor's timer is pending with the interval then read exactly when it was then enabled (and
the arrays allocated); every poll sets it once, and a monitor that is not armed never polls. -/
theorem timers_follow_reload :
    (∀ (s : Timed State) (r : MemoryReading) (es : List (LifeEvent MemoryReading MemoryReading)),
      Along memoryLife (fun s e => e.Continues s) (memoryLife s (.reload r)).1 es →
      Scheduled (fillGlobal memoryNames s.state.uci) (fillGlobal memoryNames s.state.uci).enable
        (run memoryLife (memoryLife s (.reload r)).1 es).1.timer
        (run memoryLife (memoryLife s (.reload r)).1 es).2) ∧
    (∀ (s : Timed CpuInfo) (a : Allocated) (stat : List (List UInt64))
        (es : List (LifeEvent CpuReading (Allocated × List (List UInt64)))),
      Along cpuLife (fun s e => e.Continues s) (cpuLife s (.reload (a, stat))).1 es →
      Scheduled (fillGlobal cpuNames s.state.mon.uci)
        (a.all && (fillGlobal cpuNames s.state.mon.uci).enable)
        (run cpuLife (cpuLife s (.reload (a, stat))).1 es).1.timer
        (run cpuLife (cpuLife s (.reload (a, stat))).1 es).2) :=
  ⟨fun s r es hes => memory_lives.scheduled _ _ _ (memory_reload_onTime s r) es hes,
    fun s a stat es hes => cpu_lives.scheduled _ _ _ (cpu_reload_onTime s a stat) es hes⟩

/-! ### Arrays -/

def CpuInfo.arrays (c : CpuInfo) : List (List UInt32) :=
  [c.utilizationSamples, c.userUtilizationSamples, c.systemUtilizationSamples,
    c.idleUtilizationSamples]

/-- A poll writes into all four arrays and takes a remainder by `num_samples`. -/
def WritesInside (c : CpuInfo) : Prop :=
  c.numSamples ≠ 0 ∧ ∀ l ∈ c.arrays, c.sampleIndex < l.length

/-- An average of any of the arrays reads elements it has. -/
def ReadsInside (c : CpuInfo) : Prop := ∀ l ∈ c.arrays, sampleCount c ≤ l.length

/-- Arrays of `n` elements with the index in them, or no timer and nothing written yet. -/
structure ArraysFit (n : ℕ) (s : Timed CpuInfo) : Prop where
  size : s.state.numSamples = n
  inside : ((∀ l ∈ s.state.arrays, l.length = n) ∧
      (s.state.sampleIndex < n ∨ s.state.sampleIndex = 0)) ∨
    (s.timer = none ∧ s.state.sampleIndex = 0 ∧ s.state.fullSamplesReached = false)

theorem ArraysFit.reads {n : ℕ} {s : Timed CpuInfo} (h : ArraysFit n s) :
    ReadsInside s.state := by
  intro l hl
  rw [sampleCount]
  rcases h.inside with ⟨harrays, hindex⟩ | ⟨-, hindex, hfull⟩
  · rw [harrays l hl]
    split
    · exact h.size.le
    · rw [toUInt]
      omega
  · rw [hfull, hindex]
    exact Nat.zero_le _

theorem ArraysFit.writes {n : ℕ} (hn : n ≠ 0) {s : Timed CpuInfo} (h : ArraysFit n s)
    (ht : s.timer.isSome = true) : WritesInside s.state := by
  rcases h.inside with ⟨harrays, hindex⟩ | ⟨hnone, -⟩
  · refine ⟨h.size ▸ hn, fun l hl => ?_⟩
    rw [harrays l hl]
    omega
  · exact absurd ht (by simp [hnone])

theorem cpu_reload_fits (s : Timed CpuInfo) (a : Allocated) (stat : List (List UInt64)) :
    ArraysFit (configuredSamples s.state.mon.uci) (cpuLife s (.reload (a, stat))).1 := by
  have hsize : (fillGlobalCpuInfoAlloc s.state.mon.uci a stat).numSamples =
      configuredSamples s.state.mon.uci := by
    unfold fillGlobalCpuInfoAlloc
    dsimp only
    split <;> rfl
  refine ⟨hsize, ?_⟩
  cases ha : a.all with
  | true =>
    have hfill : fillGlobalCpuInfoAlloc s.state.mon.uci a stat =
        fillGlobalCpuInfo s.state.mon.uci stat := if_pos ha
    refine Or.inl ⟨?_, Or.inr ?_⟩
    · simp only [cpuLife, sysmngrCpuInitAlloc, hfill]
      simp [CpuInfo.arrays, fillGlobalCpuInfo, configuredSamples]
    · simp only [cpuLife, sysmngrCpuInitAlloc, hfill]
      rfl
  | false =>
    refine Or.inr ?_
    simp [cpuLife, sysmngrCpuInitAlloc, fillGlobalCpuInfoAlloc, fillGlobalCpuInfo, ha, timerAfter,
      delays]

theorem takeSamples_arrays (c : CpuInfo) (stat : List (List UInt64)) (n : ℕ)
    (h : ∀ l ∈ c.arrays, l.length = n) : ∀ l ∈ (takeSamples c stat).arrays, l.length = n := by
  simp only [CpuInfo.arrays, takeSamples, List.mem_cons, List.not_mem_nil, or_false,
    forall_eq_or_imp, forall_eq, List.length_set] at h ⊢
  exact h

theorem ArraysFit.step {n : ℕ} {s : Timed CpuInfo} (h : ArraysFit n s)
    (e : LifeEvent CpuReading (Allocated × List (List UInt64))) (he : e.Continues s)
    (hn : e.isTimer = true → n ≠ 0) : ArraysFit n (cpuLife s e).1 := by
  cases e with
  | timer r =>
    refine ⟨h.size, Or.inl ?_⟩
    rcases h.inside with ⟨harrays, -⟩ | ⟨hnone, -⟩
    · refine ⟨takeSamples_arrays _ r.stat n harrays, Or.inl ?_⟩
      have hindex : (cpuLife s (.timer r)).1.state.sampleIndex =
          (s.state.sampleIndex + 1) % s.state.numSamples := rfl
      rw [hindex, h.size]
      exact Nat.mod_lt _ (Nat.pos_of_ne_zero (hn rfl))
    · exact absurd he (by simp [LifeEvent.Continues, hnone])
  | config uci => exact ⟨h.size, h.inside⟩
  | reload r => exact absurd he id

/-- What is to be seen of the arrays at every event of a run. -/
def PollsInside (s : Timed CpuInfo) (e : LifeEvent CpuReading (Allocated × List (List UInt64))) : Prop :=
  ReadsInside s.state ∧ (e.isTimer = true → WritesInside s.state)

theorem inside_of_fits {n : ℕ} {s : Timed CpuInfo} (h : ArraysFit n s)
    (es : List (LifeEvent CpuReading (Allocated × List (List UInt64))))
    (hes : Along cpuLife (fun s e => e.Continues s) s es)
    (hn : es.any LifeEvent.isTimer = true → n ≠ 0) : Along cpuLife PollsInside s es := by
  induction es generalizing s with
  | nil => trivial
  | cons e es ih =>
    have hfirst : e.isTimer = true → n ≠ 0 := fun ht => hn (by simp [ht])
    refine ⟨⟨h.reads, fun ht => h.writes (hfirst ht) ?_⟩,
      ih (h.step e hes.1 hfirst) hes.2 fun ht => hn (by simp [ht])⟩
    cases e with
    | timer r => exact hes.1
    | config uci => exact Bool.noConfusion ht
    | reload r => exact Bool.noConfusion ht

theorem samples_of_inside {n : ℕ} {s : Timed CpuInfo} (h : s.state.numSamples = n)
    (es : List (LifeEvent CpuReading (Allocated × List (List UInt64))))
    (hes : Along cpuLife (fun s e => e.Continues s) s es) (hin : Along cpuLife PollsInside s es)
    (ht : es.any LifeEvent.isTimer = true) : n ≠ 0 := by
  induction es generalizing s with
  | nil => exact absurd ht Bool.false_ne_true
  | cons e es ih =>
    cases e with
    | timer r => exact h ▸ (hin.1.2 rfl).1
    | config uci => exact ih (s := (cpuLife s (.config uci)).1) h hes.2 hin.2 ht
    | reload r => exact absurd hes.1 id

/-- Between two reloads, with any of the allocations failing, averages read inside their
arrays, and every poll writes inside them and divides by a positive number, exactly when
NumSamples was not 0 at the reload or the monitor does not poll. -/
theorem cpu_arrays_inside_iff (s : Timed CpuInfo) (a : Allocated) (stat : List (List UInt64))
    (es : List (LifeEvent CpuReading (Allocated × List (List UInt64))))
    (hes : Along cpuLife (fun s e => e.Continues s) (cpuLife s (.reload (a, stat))).1 es) :
    Along cpuLife PollsInside (cpuLife s (.reload (a, stat))).1 es ↔
      (es.any LifeEvent.isTimer = true → configuredSamples s.state.mon.uci ≠ 0) :=
  ⟨fun hin => samples_of_inside (cpu_reload_fits s a stat).size es hes hin,
    inside_of_fits (cpu_reload_fits s a stat) es hes⟩

def cpuEnabled : Named := fun _ option => if option = "enable" then some "1".toList else none

/-- Polls before and after NumSamples is set to 0, which is read at the next reload. -/
def setToZero : List (LifeEvent CpuReading (Allocated × List (List UInt64))) :=
  [.timer ⟨[], 1, 1⟩, .config (cpuEnabled.set "cpu" "num_samples" "0".toList),
    .timer ⟨[], 2, 2⟩]

def cpuStart (uci : Named) : Timed CpuInfo := ⟨fillGlobalCpuInfo uci [], none⟩

theorem cpu_arrays_inside_sample :
    Along cpuLife PollsInside
      (cpuLife (cpuStart cpuEnabled) (.reload (⟨true, true, true, true⟩, []))).1 setToZero :=
  (cpu_arrays_inside_iff (cpuStart cpuEnabled) ⟨true, true, true, true⟩ [] setToZero
    ⟨by decide, trivial, by decide, trivial⟩).mpr fun _ => by decide

theorem timers_follow_reload_sample :
    (run cpuLife (cpuLife (cpuStart cpuEnabled) (.reload (⟨true, true, true, true⟩, []))).1
      setToZero).1.timer = some 5000 :=
  (timers_follow_reload.2 (cpuStart cpuEnabled) ⟨true, true, true, true⟩ [] setToZero
    ⟨by decide, trivial, by decide, trivial⟩).timer.trans (by decide)

end Sysmngr.Monitor
