import Sysmngr.Monitor.Clock
import Sysmngr.Monitor.Settings
import Sysmngr.Processes.Model

/-!
# Seconds and milliseconds

Intervals are configured in seconds, and every site that sets a timer multiplies by 1000
in a type of 32 bits and hands the product over as an `int`.
-/

namespace Sysmngr.Monitor
open Text Uci Machine Hysteresis

/-! ### The product -/

theorem millis_iff (n : ℕ) : toInt ((n : ℤ) * 1000) = n * 1000 ↔ n < 2147484 := by
  rw [toInt_eq_self_iff]
  omega

theorem toInt_toUInt (n : ℕ) : toInt (toUInt n : ℕ) = toInt n := by
  rw [toInt_eq_iff, toUInt]
  omega

def delayOf : Effect → Option ℤ
  | .timeoutSet ms => some ms
  | _ => none

def delays (effects : List Effect) : List ℤ := effects.filterMap delayOf

theorem delays_append (a b : List Effect) : delays (a ++ b) = delays a ++ delays b :=
  List.filterMap_append

theorem delays_criticalLog (n : Names) (c : Ctx) (critical : Bool) :
    delays (criticalLog n c critical) = [] := by
  unfold criticalLog
  split <;> rfl

theorem delays_render (n : Names) (event : ℕ → Effect) (hevent : ∀ u, delayOf (event u) = none)
    (c : Ctx) (p : Poll) (e : Option Edge) : delays (render n event c p e) = [] := by
  have hev : delays [event p.utilization] = [] := by
    simp only [delays, List.filterMap_cons, hevent, List.filterMap_nil]
  rcases e with _ | _ | _
  · rfl
  · simp only [render_rise, delays_append, delays_criticalLog, hev]
    rfl
  · simp only [render_fall, delays_append, delays_criticalLog]
    rfl

theorem delays_rearm (c : Ctx) : delays [rearm c] = [toInt ((c.interval : ℤ) * 1000)] := by
  have hrearm : delays [rearm c] = [toInt (toUInt (c.interval * 1000) : ℕ)] := rfl
  rw [hrearm, toInt_toUInt]
  push_cast
  rfl

/-! ### One poll -/

/-- The context and what a reload would read have the settings of `c`. -/
structure KeepsSettings (n : Names) (c : Ctx) (s : State) : Prop where
  settings : SettingsOf c s.ctx
  stored : SettingsOf c (fillGlobal n s.uci)

theorem keepsSettings_load (n : Names) (c : Ctx) (s : State) (h : KeepsSettings n c s) :
    KeepsSettings n c (.load n s.uci) :=
  ⟨h.stored, h.stored⟩

theorem checkRise_keepsSettings (n : Names) (event : ℕ → Effect) (c : Ctx) (s : State) (p : Poll)
    (h : KeepsSettings n c s) :
    KeepsSettings n c (checkRise n event s p.utilization p.riseNow).1 := by
  obtain ⟨⟨rise, fall, hctx⟩, rise', fall', hstored⟩ := h
  rcases checkRise_cases n event s p with ⟨-, hcheck⟩ | ⟨-, hcheck⟩
  · rw [hcheck]
    refine ⟨⟨p.riseNow, fall, by rw [hctx]⟩, readBack p.riseNow, fall', ?_⟩
    rw [fillGlobal_riseTime, hstored]
  · rw [hcheck]
    exact ⟨⟨rise, fall, hctx⟩, rise', fall', hstored⟩

theorem checkFall_keepsSettings (n : Names) (event : ℕ → Effect) (c : Ctx) (s : State) (p : Poll)
    (h : KeepsSettings n c s) : KeepsSettings n c (checkFall n s p.utilization p.fallNow).1 := by
  obtain ⟨⟨rise, fall, hctx⟩, rise', fall', hstored⟩ := h
  rcases checkFall_cases n event s p with ⟨-, hcheck⟩ | ⟨-, hcheck⟩
  · rw [hcheck]
    refine ⟨⟨rise, p.fallNow, by rw [hctx]⟩, rise', readBack p.fallNow, ?_⟩
    rw [fillGlobal_fallTime, hstored]
  · rw [hcheck]
    exact ⟨⟨rise, fall, hctx⟩, rise', fall', hstored⟩

theorem SettingsOf.interval {c d : Ctx} (h : SettingsOf c d) : d.interval = c.interval := by
  obtain ⟨rise, fall, rfl⟩ := h
  rfl

theorem SettingsOf.enable {c d : Ctx} (h : SettingsOf c d) : d.enable = c.enable := by
  obtain ⟨rise, fall, rfl⟩ := h
  rfl

/-- A poll keeps the settings, and sets the timer once. -/
theorem runMonitor_delays (n : Names) (event : ℕ → Effect) (hevent : ∀ u, delayOf (event u) = none)
    (c : Ctx) (s : State) (p : Poll) (h : KeepsSettings n c s) :
    KeepsSettings n c (runMonitor n event s p.utilization p.riseNow p.fallNow).1 ∧
      delays (runMonitor n event s p.utilization p.riseNow p.fallNow).2 =
        [toInt ((c.interval : ℤ) * 1000)] := by
  have hrise : delays (checkRise n event s p.utilization p.riseNow).2 = [] := by
    rcases checkRise_cases n event s p with ⟨-, hcheck⟩ | ⟨-, hcheck⟩
    · rw [hcheck]
      exact delays_render n event hevent s.ctx p (some .rise)
    · rw [hcheck]
      rfl
  have hfall : ∀ t, delays (checkFall n t p.utilization p.fallNow).2 = [] := by
    intro t
    rcases checkFall_cases n event t p with ⟨-, hcheck⟩ | ⟨-, hcheck⟩
    · rw [hcheck]
      exact delays_render n event hevent t.ctx p (some .fall)
    · rw [hcheck]
      rfl
  refine ⟨checkFall_keepsSettings n event c _ p (checkRise_keepsSettings n event c s p h), ?_⟩
  simp only [runMonitor, delays_append, hrise, hfall, delays_rearm, h.settings.interval,
    List.nil_append]

/-! ### Runs -/

theorem memoryStep_delays (c : Ctx) (henable : c.enable = true) (s : State) (e : MemoryEvent)
    (h : KeepsSettings memoryNames c s) :
    KeepsSettings memoryNames c (memoryStep s e).1 ∧
      delays (memoryStep s e).2.effects = [toInt ((c.interval : ℤ) * 1000)] := by
  cases e with
  | timer r => exact runMonitor_delays memoryNames _ (fun _ => rfl) c s r.poll h
  | reload r =>
    have hload := keepsSettings_load memoryNames c s h
    have hrun : memoryStep s (.reload r) = runMemoryMonitor (.load memoryNames s.uci) r :=
      if_pos (hload.settings.enable.trans henable)
    rw [hrun]
    exact runMonitor_delays memoryNames _ (fun _ => rfl) c _ r.poll hload

theorem cpuStep_delays (c : Ctx) (henable : c.enable = true) (s : CpuInfo) (e : CpuEvent)
    (h : KeepsSettings cpuNames c s.mon) :
    KeepsSettings cpuNames c (cpuStep s e).1.mon ∧
      delays (cpuStep s e).2.effects = [toInt ((c.interval : ℤ) * 1000)] := by
  cases e with
  | timer r =>
    exact runMonitor_delays cpuNames cpuCriticalStateEvent (fun _ => rfl) c s.mon (s.poll r) h
  | reload stat =>
    have hload := keepsSettings_load cpuNames c s.mon h
    have harm : (cpuStep s (.reload stat)).2.effects =
        [rearm (State.load cpuNames s.mon.uci).ctx] :=
      if_pos (hload.settings.enable.trans henable)
    refine ⟨hload, ?_⟩
    rw [harm, delays_rearm, hload.settings.interval]

/-! ### Configured intervals -/

/-- The product fits an `int`, and the number is not cut off on the way from the package. -/
def DelayFits (value : Str) (n : ℕ) : Prop := n < 2147484 ∧ (value.length ≤ 15 ∨ n = 0)

instance (value : Str) (n : ℕ) : Decidable (DelayFits value n) :=
  inferInstanceAs (Decidable (_ ∧ _))

theorem interval_accepted (validate : Range → Str → Bool) (hdoc : DocumentedUnsignedInt validate)
    (n : Names) (range : Range) (uci uci' : Named) (value : Str)
    (h : setUnsignedInt validate n.package n.interval range uci value = some uci') :
    (fillGlobal n uci').interval = digitsValue (value.take 15) := by
  obtain ⟨⟨m, hm, hlt, -⟩, rfl⟩ := setUnsignedInt_some validate hdoc _ _ _ _ _ _ h
  obtain ⟨-, -, rfl⟩ := (decimal_eq_some value m).mp hm
  exact read_number uci n.package n.interval n.intervalDefault value _ hm hlt

theorem delay_iff (value : Str) :
    toInt ((digitsValue (value.take 15) : ℤ) * 1000) = digitsValue value * 1000 ↔
      DelayFits value (digitsValue value) := by
  obtain ⟨hle, hcut⟩ := digitsValue_take value 15
  unfold DelayFits
  rw [← hcut]
  constructor
  · intro h
    have hrange := toInt_range ((digitsValue (value.take 15) : ℤ) * 1000)
    have hlt : digitsValue value < 2147484 := by omega
    rw [(millis_iff (digitsValue (value.take 15))).mpr (by omega)] at h
    omega
  · rintro ⟨hlt, heq⟩
    rw [heq]
    exact (millis_iff _).mpr hlt

/-! ### The process list -/

def refreshDelayOf : Processes.Effect → Option ℤ
  | .timeoutSet ms => some ms
  | _ => none

def refreshDelays (effects : List Processes.Effect) : List ℤ := effects.filterMap refreshDelayOf

theorem refreshDelays_append (a b : List Processes.Effect) :
    refreshDelays (a ++ b) = refreshDelays a ++ refreshDelays b :=
  List.filterMap_append

theorem initProcessList_delays (c : Processes.ProcessCtx) (proc : Option Processes.Proc) :
    refreshDelays (Processes.initProcessList c proc).2 = [] := by
  have hbroadcast : ∀ m diff, refreshDelays (Processes.broadcastAddDelEvent m diff) = [] := by
    intro m diff
    unfold Processes.broadcastAddDelEvent
    split <;> rfl
  cases proc with
  | none => rfl
  | some p =>
    unfold Processes.initProcessList
    dsimp only
    split
    · rfl
    split
    · exact hbroadcast _ _
    · rfl

theorem refresh_delays (n : ℕ) (hpos : 0 < n) (c : Processes.ProcessCtx)
    (proc : Option Processes.Proc) (h : c.refreshInterval = n) :
    (Processes.runRefreshProcessList c proc).1.refreshInterval = n ∧
      refreshDelays (Processes.runRefreshProcessList c proc).2 = [toInt ((n : ℤ) * 1000)] := by
  refine ⟨(Processes.refresh_interval c proc).trans h, ?_⟩
  have hset : 0 < c.refreshInterval := by omega
  rw [Processes.refresh_effects c proc hset, refreshDelays_append, initProcessList_delays, h]
  rfl

theorem getInstanceRefreshInterval_decimal (uci : Named) (value : Str) (n : ℕ)
    (hstored : uci "process" "instance_refresh_interval" = some value)
    (hvalue : decimal value = some n) (hlen : value.length ≤ 7) (hn : n < 2 ^ 31) :
    Processes.getInstanceRefreshInterval uci = n := by
  rw [Processes.getInstanceRefreshInterval, Named.get, hstored, Option.getD_some,
    snprintf_of_le 8 value hlen, strtol_decimal value n hvalue (by omega)]
  exact toInt_of_mem _ (by omega) (by omega)

/-! ### All sites -/

/-- Each delay a monitor or the refresh of the process list sets is the configured number
of seconds exactly when the product fits, and the text what is read of it. -/
theorem delays_in_milliseconds_iff (validate : Range → Str → Bool)
    (hdoc : DocumentedUnsignedInt validate) (uci : Named) :
    (∀ (configured : Named) (value : Str),
      setDeviceInfoMemoryStatusMemoryMonitorPollingInterval validate uci value = some configured →
      (fillGlobal memoryNames configured).enable = true →
      ∀ (es : List MemoryEvent) (e : MemoryEvent),
        delays (memoryStep (run memoryStep (.load memoryNames configured) es).1 e).2.effects =
            [(digitsValue value : ℤ) * 1000] ↔ DelayFits value (digitsValue value)) ∧
    (∀ (configured : Named) (value : Str),
      setDeviceInfoProcessStatusCPUPollInterval validate uci value = some configured →
      (fillGlobal cpuNames configured).enable = true →
      ∀ (stat : List (List UInt64)) (es : List CpuEvent) (e : CpuEvent),
        delays (cpuStep (run cpuStep (fillGlobalCpuInfo configured stat) es).1 e).2.effects =
            [(digitsValue value : ℤ) * 1000] ↔ DelayFits value (digitsValue value)) ∧
    (∀ (value : Str) (n : ℕ), uci "process" "instance_refresh_interval" = some value →
      decimal value = some n → 0 < n → value.length ≤ 7 →
      ∀ (first : Option Processes.Proc),
        (refreshDelays (Processes.sysmngrProcessInit uci first).2 = [(n : ℤ) * 1000] ↔
          n < 2147484) ∧
        ∀ (procs : List (Option Processes.Proc)) (proc : Option Processes.Proc),
          refreshDelays (Processes.runRefreshProcessList (run Processes.runRefreshProcessList
              (Processes.sysmngrProcessInit uci first).1 procs).1 proc).2 = [(n : ℤ) * 1000] ↔
            n < 2147484) := by
  refine ⟨?_, ?_, ?_⟩
  · intro configured value hset henable es e
    have hinterval := interval_accepted validate hdoc memoryNames _ uci configured value hset
    have hkeeps := run_keeps memoryStep
      (KeepsSettings memoryNames (fillGlobal memoryNames configured))
      (fun s e h => (memoryStep_delays _ henable s e h).1) (.load memoryNames configured) es
      ⟨⟨_, _, rfl⟩, _, _, rfl⟩
    rw [(memoryStep_delays _ henable _ e hkeeps).2, hinterval, List.singleton_inj]
    exact delay_iff value
  · intro configured value hset henable stat es e
    have hinterval := interval_accepted validate hdoc cpuNames _ uci configured value hset
    have hkeeps := run_keeps cpuStep
      (fun s => KeepsSettings cpuNames (fillGlobal cpuNames configured) s.mon)
      (fun s e h => (cpuStep_delays _ henable s e h).1) (fillGlobalCpuInfo configured stat) es
      ⟨⟨_, _, rfl⟩, _, _, rfl⟩
    rw [(cpuStep_delays _ henable _ e hkeeps).2, hinterval, List.singleton_inj]
    exact delay_iff value
  · intro value n hstored hvalue hpos hlen first
    have hn : n < 2 ^ 31 := by
      obtain ⟨-, hdigits, rfl⟩ := (decimal_eq_some value n).mp hvalue
      have hlt := digitsValue_lt value hdigits
      have hpow : 10 ^ value.length ≤ 10 ^ 7 := Nat.pow_le_pow_right (by decide) hlen
      omega
    have hinterval := getInstanceRefreshInterval_decimal uci value n hstored hvalue hlen hn
    have hinit := refresh_delays n hpos ⟨[], Processes.getInstanceRefreshInterval uci, 0⟩ first
      hinterval
    refine ⟨?_, fun procs proc => ?_⟩
    · rw [Processes.sysmngrProcessInit, hinit.2, List.singleton_inj]
      exact millis_iff n
    · have hkeeps := run_keeps Processes.runRefreshProcessList (fun c => c.refreshInterval = n)
        (fun c proc h => (refresh_delays n hpos c proc h).1) _ procs hinit.1
      rw [Processes.sysmngrProcessInit, (refresh_delays n hpos _ proc hkeeps).2,
        List.singleton_inj]
      exact millis_iff n

def refreshEvery (seconds : Str) : Named :=
  sampleUci.set "process" "instance_refresh_interval" seconds

theorem delays_in_milliseconds_sample :
    delays (memoryStep (.load memoryNames ((refreshEvery "10".toList).set "memory"
        "polling_interval" "2147483".toList)) (.timer ⟨none, 0, 0⟩)).2.effects = [2147483000] ∧
      delays (cpuStep (fillGlobalCpuInfo ((refreshEvery "10".toList).set "cpu"
        "poll_interval" "5".toList) []) (.reload [])).2.effects = [5000] ∧
      refreshDelays (Processes.sysmngrProcessInit (refreshEvery "10".toList) none).2 = [10000] := by
  obtain ⟨hmemory, hcpu, hprocess⟩ := delays_in_milliseconds_iff Range.accepts accepts_documented
    (refreshEvery "10".toList)
  exact ⟨(hmemory _ "2147483".toList rfl rfl [] (.timer ⟨none, 0, 0⟩)).mpr (by decide),
    (hcpu _ "5".toList rfl rfl [] [] (.reload [])).mpr (by decide),
    (hprocess "10".toList 10 rfl rfl (by decide) (by decide) none).1.mpr (by decide)⟩

/-- An interval of nearly fifty days polls again after 704 milliseconds. -/
theorem long_interval_wraps :
    ¬∀ (validate : Range → Str → Bool), DocumentedUnsignedInt validate →
      ∀ (uci configured : Named) (value : Str),
      setDeviceInfoMemoryStatusMemoryMonitorPollingInterval validate uci value = some configured →
      (fillGlobal memoryNames configured).enable = true →
      ∀ (es : List MemoryEvent) (e : MemoryEvent),
        delays (memoryStep (run memoryStep (.load memoryNames configured) es).1 e).2.effects =
          [(digitsValue value : ℤ) * 1000] := by
  intro hall
  have hdelay := hall Range.accepts accepts_documented sampleUci _ "4294968".toList rfl rfl []
    (.timer ⟨none, 0, 0⟩)
  exact absurd hdelay (by decide)

end Sysmngr.Monitor
