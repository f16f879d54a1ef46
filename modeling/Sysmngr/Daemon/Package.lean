import Sysmngr.FwImages.KeepConfig
import Sysmngr.Monitor.Lifecycle
import Sysmngr.Reboots.Cause
import Sysmngr.Reboots.Registration
import Sysmngr.Reboots.TimeStamps
import Sysmngr.Shared

/-!
# The parts of the daemon and their package (`sysmngr.c`)

The monitors, the registration of boots and the requests on firmware images keep what
they keep in one package, each in a section of its own, and every callback and request
reads and writes it as the one before has left it.
-/

namespace Sysmngr.Daemon
open Text Uci Machine Shared

/-! ### Sections -/

theorem set_section_other (c : Named) (section_ other option : String) (value : Str)
    (h : other ≠ section_) : c.set section_ option value other = c other := by
  funext o
  exact Named.set_other c section_ option other o value fun hno => h hno.1

theorem set_section_congr (c d : Named) (section_ option : String) (value : Str)
    (h : c section_ = d section_) :
    c.set section_ option value section_ = d.set section_ option value section_ := by
  funext o
  simp only [Named.set, h]

/-! ### The monitors -/

open Monitor

/-- The timer fires, the settings are read, or a request writes an option. -/
inductive MonitorEvent (ρ γ : Type) where
  | timer (r : ρ)
  | reload (r : γ)
  | set (option : String) (value : Str)

def memoryPart (s : Timed State) : MonitorEvent MemoryReading MemoryReading → Timed State × Out
  | .timer r => memoryLife s (.timer r)
  | .reload r => memoryLife s (.reload r)
  | .set option value => memoryLife s (.config (s.state.uci.set "memory" option value))

def cpuPart (s : Timed CpuInfo) :
    MonitorEvent CpuReading (Allocated × List (List UInt64)) → Timed CpuInfo × Out
  | .timer r => cpuLife s (.timer r)
  | .reload r => cpuLife s (.reload r)
  | .set option value => cpuLife s (.config (s.state.mon.uci.set "cpu" option value))

def memoryHolder : Holder String (String → Option Str) (Timed State) where
  store s := s.state.uci
  put s f := { s with state := { s.state with uci := f } }
  store_put _ _ := rfl
  put_store _ := rfl
  put_put _ _ _ := rfl

def cpuHolder : Holder String (String → Option Str) (Timed CpuInfo) where
  store s := s.state.mon.uci
  put s f := { s with state := { s.state with mon := { s.state.mon with uci := f } } }
  store_put _ _ := rfl
  put_store _ := rfl
  put_put _ _ _ := rfl

theorem fillGlobal_congr (n : Names) (c d : Named) (h : c n.package = d n.package) :
    fillGlobal n c = fillGlobal n d := by
  simp only [fillGlobal, Named.get, h]

/-- A check writes its own section and goes by the context it has. -/
structure ChecksAlike (n : Names) (f : Named) (s : State) (r r' : State × List Effect) : Prop where
  ctx : r'.1.ctx = r.1.ctx
  effects : r'.2 = r.2
  writes : ∀ k, k ≠ n.package → r.1.uci k = s.uci k
  keys : s.uci n.package = f n.package → r.1.uci n.package = r'.1.uci n.package

theorem checkRise_alike (n : Names) (event : ℕ → Effect) (s : State) (f : Named) (u : ℕ) (now : ℤ) :
    ChecksAlike n f s (checkRise n event s u now) (checkRise n event ⟨f, s.ctx⟩ u now) := by
  unfold checkRise
  split
  · exact ⟨rfl, rfl, fun k hk => set_section_other _ _ _ _ _ hk, set_section_congr _ _ _ _ _⟩
  · exact ⟨rfl, rfl, fun _ _ => rfl, id⟩

theorem checkFall_alike (n : Names) (s : State) (f : Named) (u : ℕ) (now : ℤ) :
    ChecksAlike n f s (checkFall n s u now) (checkFall n ⟨f, s.ctx⟩ u now) := by
  unfold checkFall
  split
  · exact ⟨rfl, rfl, fun k hk => set_section_other _ _ _ _ _ hk, set_section_congr _ _ _ _ _⟩
  · exact ⟨rfl, rfl, fun _ _ => rfl, id⟩

theorem runMonitor_alike (n : Names) (event : ℕ → Effect) (s : State) (f : Named) (u : ℕ)
    (riseNow fallNow : ℤ) :
    ChecksAlike n f s (runMonitor n event s u riseNow fallNow)
      (runMonitor n event ⟨f, s.ctx⟩ u riseNow fallNow) := by
  have hrise := checkRise_alike n event s f u riseNow
  generalize hr : checkRise n event s u riseNow = rise at hrise
  generalize hr' : checkRise n event ⟨f, s.ctx⟩ u riseNow = rise' at hrise
  obtain ⟨⟨uci, ctx⟩, effects⟩ := rise
  obtain ⟨⟨uci', ctx'⟩, effects'⟩ := rise'
  obtain ⟨hctx, heffects, hwrites, hkeys⟩ := hrise
  dsimp only at hctx heffects hwrites hkeys
  subst hctx heffects
  have hfall := checkFall_alike n ⟨uci, ctx'⟩ uci' u fallNow
  simp only [runMonitor, hr, hr']
  refine ⟨hfall.ctx, ?_, fun k hk => (hfall.writes k hk).trans (hwrites k hk), fun h => ?_⟩
  · rw [hfall.effects]
  · exact hfall.keys (hkeys h)

theorem memory_alike {f : Named} {s : State} {r r' : State × List Effect}
    (h : ChecksAlike memoryNames f s r r') (hkey : s.uci "memory" = f "memory")
    (timer : Option ℤ) : memoryHolder.Alike {"memory"} ⟨r.1, timer⟩ ⟨r'.1, timer⟩ where
  keys := by
    rintro k rfl
    exact h.keys hkey
  rest := by
    obtain ⟨⟨uci, ctx⟩, effects⟩ := r
    obtain ⟨⟨uci', ctx'⟩, effects'⟩ := r'
    obtain rfl : ctx' = ctx := h.ctx
    rfl

theorem memory_poll (s : State) (f : Named) (r : MemoryReading) (hkey : s.uci "memory" = f "memory") :
    let t := runMemoryMonitor s r
    let t' := runMemoryMonitor ⟨f, s.ctx⟩ r
    memoryHolder.Alike {"memory"} ⟨t.1, timerAfter none t.2⟩ ⟨t'.1, timerAfter none t'.2⟩ ∧
      t.2 = t'.2 ∧ ∀ k, k ≠ "memory" → t.1.uci k = s.uci k := by
  have h := runMonitor_alike memoryNames memoryCriticalStateEvent s f
    (calculateMemoryUtilization r.info) r.riseNow r.fallNow
  have hout : (runMemoryMonitor s r).2 = (runMemoryMonitor ⟨f, s.ctx⟩ r).2 :=
    congrArg (Out.mk (some r.poll)) h.effects.symm
  refine ⟨?_, hout, h.writes⟩
  rw [← hout]
  exact memory_alike h hkey _

theorem memory_init (s : State) (f : Named) (r : MemoryReading) (hkey : s.uci "memory" = f "memory") :
    let t := sysmngrMemoryInit s r
    let t' := sysmngrMemoryInit ⟨f, s.ctx⟩ r
    memoryHolder.Alike {"memory"} ⟨t.1, timerAfter none t.2⟩ ⟨t'.1, timerAfter none t'.2⟩ ∧
      t.2 = t'.2 ∧ ∀ k, k ≠ "memory" → t.1.uci k = s.uci k := by
  have hctx : fillGlobal memoryNames s.uci = fillGlobal memoryNames f :=
    fillGlobal_congr memoryNames s.uci f hkey
  have hinit : ∀ m : State, sysmngrMemoryInit m r =
      if (fillGlobal memoryNames m.uci).enable = true then
        runMemoryMonitor ⟨m.uci, fillGlobal memoryNames m.uci⟩ r
      else (⟨m.uci, fillGlobal memoryNames m.uci⟩, ⟨none, []⟩) := fun _ => rfl
  dsimp only
  by_cases henable : (fillGlobal memoryNames s.uci).enable = true
  · rw [hinit s, hinit ⟨f, s.ctx⟩, ← hctx, if_pos henable, if_pos henable]
    exact memory_poll ⟨s.uci, fillGlobal memoryNames s.uci⟩ f r hkey
  · rw [hinit s, hinit ⟨f, s.ctx⟩, ← hctx, if_neg henable, if_neg henable]
    refine ⟨⟨?_, rfl⟩, rfl, fun _ _ => rfl⟩
    rintro k rfl
    exact hkey

theorem memory_owns : memoryHolder.Owns {"memory"} memoryPart := by
  apply Holder.owns_of_put
  · intro s e k hk
    have hk : k ≠ "memory" := hk
    cases e with
    | timer r => exact (memory_poll s.state s.state.uci r rfl).2.2 k hk
    | reload r => exact (memory_init s.state s.state.uci r rfl).2.2 k hk
    | set option value => exact set_section_other _ _ _ _ _ hk
  · intro s f e hf
    have hkey : s.state.uci "memory" = f "memory" := hf rfl
    cases e with
    | timer r =>
      obtain ⟨halike, hout, -⟩ := memory_poll s.state f r hkey
      exact ⟨halike, hout⟩
    | reload r =>
      obtain ⟨halike, hout, -⟩ := memory_init s.state f r hkey
      exact ⟨halike, hout⟩
    | set option value =>
      refine ⟨⟨?_, rfl⟩, rfl⟩
      rintro k rfl
      exact set_section_congr _ _ _ _ _ hkey

theorem cpu_poll (c : CpuInfo) (f : Named) (r : CpuReading) (hkey : c.mon.uci "cpu" = f "cpu") :
    let t := runCpuMonitor c r
    let t' := runCpuMonitor { c with mon := ⟨f, c.mon.ctx⟩ } r
    cpuHolder.Alike {"cpu"} ⟨t.1, timerAfter none t.2⟩ ⟨t'.1, timerAfter none t'.2⟩ ∧
      t.2 = t'.2 ∧ ∀ k, k ≠ "cpu" → t.1.mon.uci k = c.mon.uci k := by
  have h := runMonitor_alike cpuNames cpuCriticalStateEvent c.mon f (c.poll r).utilization
    r.riseNow r.fallNow
  have hout : (runCpuMonitor c r).2 =
      (runCpuMonitor { c with mon := ⟨f, c.mon.ctx⟩ } r).2 :=
    congrArg (Out.mk (some (c.poll r))) h.effects.symm
  refine ⟨?_, hout, h.writes⟩
  rw [← hout]
  refine ⟨?_, ?_⟩
  · rintro k rfl
    exact h.keys hkey
  · have hctx : (runCpuMonitor { c with mon := ⟨f, c.mon.ctx⟩ } r).1.mon.ctx =
        (runCpuMonitor c r).1.mon.ctx := h.ctx
    show (⟨{ (runCpuMonitor c r).1 with
      mon := ⟨(runCpuMonitor { c with mon := ⟨f, c.mon.ctx⟩ } r).1.mon.uci,
        (runCpuMonitor c r).1.mon.ctx⟩ }, _⟩ : Timed CpuInfo) = _
    rw [← hctx]
    rfl

theorem cpu_fill (uci f : Named) (a : Allocated) (stat : List (List UInt64))
    (hkey : uci "cpu" = f "cpu") : fillGlobalCpuInfoAlloc f a stat =
      { fillGlobalCpuInfoAlloc uci a stat with mon := ⟨f, fillGlobal cpuNames uci⟩ } := by
  have hctx : fillGlobal cpuNames f = fillGlobal cpuNames uci :=
    fillGlobal_congr cpuNames f uci hkey.symm
  have hfill : fillGlobalCpuInfo f stat =
      { fillGlobalCpuInfo uci stat with mon := ⟨f, fillGlobal cpuNames uci⟩ } := by
    simp only [fillGlobalCpuInfo, Named.get, State.load, hctx, hkey]
  unfold fillGlobalCpuInfoAlloc
  dsimp only
  rw [hfill]
  split <;> rfl

theorem cpu_init (uci f : Named) (a : Allocated) (stat : List (List UInt64))
    (hkey : uci "cpu" = f "cpu") :
    let t := sysmngrCpuInitAlloc uci a stat
    let t' := sysmngrCpuInitAlloc f a stat
    cpuHolder.Alike {"cpu"} ⟨t.1, timerAfter none t.2⟩ ⟨t'.1, timerAfter none t'.2⟩ ∧
      t.2 = t'.2 := by
  have hmon := fillGlobalCpuInfoAlloc_mon uci a stat
  have hfill := cpu_fill uci f a stat hkey
  have hout : (sysmngrCpuInitAlloc uci a stat).2 = (sysmngrCpuInitAlloc f a stat).2 := by
    simp only [sysmngrCpuInitAlloc, hfill, hmon]
    rfl
  refine ⟨⟨?_, ?_⟩, hout⟩
  · rintro k rfl
    show (fillGlobalCpuInfoAlloc uci a stat).mon.uci "cpu" =
      (fillGlobalCpuInfoAlloc f a stat).mon.uci "cpu"
    rw [hmon, fillGlobalCpuInfoAlloc_mon]
    exact hkey
  · rw [hout]
    show (⟨{ fillGlobalCpuInfoAlloc uci a stat with
      mon := ⟨(fillGlobalCpuInfoAlloc f a stat).mon.uci,
        (fillGlobalCpuInfoAlloc uci a stat).mon.ctx⟩ }, _⟩ : Timed CpuInfo) =
      ⟨fillGlobalCpuInfoAlloc f a stat, _⟩
    rw [hfill, hmon]
    rfl

theorem cpu_owns : cpuHolder.Owns {"cpu"} cpuPart := by
  apply Holder.owns_of_put
  · intro s e k hk
    have hk : k ≠ "cpu" := hk
    cases e with
    | timer r => exact (cpu_poll s.state s.state.mon.uci r rfl).2.2 k hk
    | reload r =>
      show (fillGlobalCpuInfoAlloc s.state.mon.uci r.1 r.2).mon.uci k = _
      rw [fillGlobalCpuInfoAlloc_mon]
      rfl
    | set option value => exact set_section_other _ _ _ _ _ hk
  · intro s f e hf
    have hkey : s.state.mon.uci "cpu" = f "cpu" := hf rfl
    cases e with
    | timer r =>
      obtain ⟨halike, hout, -⟩ := cpu_poll s.state f r hkey
      exact ⟨halike, hout⟩
    | reload r => exact cpu_init s.state.mon.uci f r.1 r.2 hkey
    | set option value =>
      refine ⟨⟨?_, rfl⟩, rfl⟩
      rintro k rfl
      exact set_section_congr _ _ _ _ _ hkey

/-! ### The registration of boots -/

open Reboots

/-- What the daemon does on its own, and the requests on the records. -/
inductive RebootsEvent where
  | daemon (e : Reboots.Event)
  | setMax (value : ℤ)
  | removeAll
  | remove (name : Str)
  | execReboot (rebooted : Bool)

def rebootsPart (w : World) : RebootsEvent → World × List Reboots.Action
  | .daemon e => ((w.step e).1, (w.step e).2.2)
  | .setMax value =>
    ({ w with config := setDeviceInfoRebootsMaxRebootEntries w.config value }, [])
  | .removeAll => ({ w with config := operateDeviceInfoRebootsRemoveAllReboots w.config }, [])
  | .remove name => ({ w with config := operateDeviceInfoRebootsRebootRemove w.config name }, [])
  | .execReboot rebooted => ({ w with config := execReboot w.config rebooted }, [])

def rebootsHolder : Holder String (String → Option Str) World where
  store w := w.config.named
  put w f := { w with config := { w.config with named := f } }
  store_put _ _ := rfl
  put_store _ := rfl
  put_put _ _ _ := rfl

structure SameConfig (c d : Config) : Prop where
  named : c.named "reboots" = d.named "reboots"
  reboot : c.reboot = d.reboot

theorem SameConfig.set {c d : Config} (h : SameConfig c d) (option : String) (value : Str) :
    SameConfig { c with named := c.named.set "reboots" option value }
      { d with named := d.named.set "reboots" option value } :=
  ⟨set_section_congr _ _ _ _ _ h.named, h.reboot⟩

theorem SameConfig.increment {c d : Config} (h : SameConfig c d) (option : String) :
    SameConfig (incrementOptionCounter c option) (incrementOptionCounter d option) := by
  have hvalue : counterValue c option = counterValue d option :=
    counterValue_congr c d option (congrFun h.named option)
  unfold incrementOptionCounter
  rw [hvalue]
  exact h.set option _

theorem SameConfig.countBoot {c d : Config} (h : SameConfig c d) (trigger reason : Str) :
    SameConfig (countBoot c trigger reason) (countBoot d trigger reason) := by
  have htrigger : SameConfig (countTrigger c trigger) (countTrigger d trigger) := by
    unfold countTrigger
    split
    · exact (h.set "boot_count" _).set "curr_version_boot_count" _
    · exact (h.increment _).increment _
  have hwatchdog : ∀ {c d : Config}, SameConfig c d →
      SameConfig (countWatchdog c reason) (countWatchdog d reason) := by
    intro c d h
    unfold countWatchdog
    split
    · exact h.increment _
    · exact h
  unfold Reboots.countBoot countReason
  split
  · exact (hwatchdog htrigger).increment _
  · exact (hwatchdog htrigger).increment _

theorem SameConfig.create {c d : Config} (h : SameConfig c d) (clk : Clock) (trigger reason : Str) :
    SameConfig (createRebootSection c clk trigger reason)
      (createRebootSection d clk trigger reason) := by
  have hcause : c.named.get "reboots" "last_reboot_cause" "LocalReboot".toList 32 =
      d.named.get "reboots" "last_reboot_cause" "LocalReboot".toList 32 := by
    simp only [Named.get, h.named]
  unfold createRebootSection
  dsimp only
  rw [h.reboot, hcause]
  split
  · exact ⟨h.named, rfl⟩
  · exact ⟨set_section_congr _ _ _ _ _ h.named, rfl⟩

theorem SameConfig.register {c d : Config} (h : SameConfig c d) (env : Env) (clk : Clock)
    (trigger reason : Str) :
    SameConfig (registerBoot env c clk trigger reason) (registerBoot env d clk trigger reason) := by
  have hcount := h.countBoot trigger reason
  unfold registerBoot
  generalize Reboots.countBoot c trigger reason = c' at hcount
  generalize Reboots.countBoot d trigger reason = d' at hcount
  have hmax : maxRebootEntries c' = maxRebootEntries d' := by
    simp only [maxRebootEntries, Named.get, hcount.named]
  unfold recordBoot
  rw [hmax, hcount.reboot]
  split
  · apply SameConfig.create
    exact ⟨hcount.named, rfl⟩
  · exact hcount

/-- Equal but for other sections of the package. -/
structure SameWorld (w v : World) : Prop where
  config : SameConfig w.config v.config
  rest : { w with config := v.config } = v

theorem sameWorld_iff (w v : World) : SameWorld w v ↔ rebootsHolder.Alike {"reboots"} w v := by
  constructor
  · intro h
    refine ⟨?_, ?_⟩
    · rintro k rfl
      exact h.config.named
    · have hconfig : ({ w.config with named := v.config.named } : Config) = v.config := by
        show Config.mk v.config.named w.config.reboot = v.config
        rw [h.config.reboot]
      show ({ w with config := { w.config with named := v.config.named } } : World) = v
      rw [hconfig]
      exact h.rest
  · intro h
    have hv : ({ w with config := { w.config with named := v.config.named } } : World) = v := h.rest
    have hconfig : v.config = { w.config with named := v.config.named } :=
      (congrArg World.config hv).symm
    exact ⟨⟨h.keys rfl, (congrArg Config.reboot hconfig).symm⟩, by rw [hconfig]; exact hv⟩

theorem SameWorld.init {w v : World} (h : SameWorld w v) (env : Env) (clk : Clock) :
    SameWorld (sysmngrRebootsInit env clk w).1 (sysmngrRebootsInit env clk v).1 ∧
      (sysmngrRebootsInit env clk w).2 = (sysmngrRebootsInit env clk v).2 := by
  obtain ⟨config, lock, resetReason, retryCount, timer⟩ := w
  obtain ⟨config', lock', resetReason', retryCount', timer'⟩ := v
  obtain ⟨hconfig, hrest⟩ := h
  simp only [World.mk.injEq, true_and] at hrest hconfig
  obtain ⟨rfl, rfl, rfl, rfl⟩ := hrest
  let trigger := getBootOptionValue env.lib resetReason "triggered".toList 32
  let reason := getBootOptionValue env.lib resetReason "reason".toList 32
  have hregister := hconfig.register env clk trigger reason
  cases lock with
  | true => exact ⟨⟨hconfig, rfl⟩, rfl⟩
  | false =>
    simp only [sysmngrRebootsInit, sysmngrRegisterBootAction, Bool.false_eq_true, if_false]
    by_cases hvalid : checkValidResetReasonFile env.lib resetReason = true
    · simp only [hvalid, if_true]
      exact ⟨⟨hregister, rfl⟩, trivial⟩
    · by_cases hretry : retryCount < REBOOT_MAX_RETRIES
      · simp only [hvalid, hretry, Bool.false_eq_true, if_false, if_true]
        exact ⟨⟨hconfig, rfl⟩, trivial⟩
      · simp only [hvalid, hretry, Bool.false_eq_true, if_false]
        exact ⟨⟨hregister, rfl⟩, trivial⟩

theorem SameWorld.step {w v : World} (h : SameWorld w v) (e : Reboots.Event) :
    SameWorld (w.step e).1 (v.step e).1 ∧ (w.step e).2.2 = (v.step e).2.2 := by
  obtain ⟨config, lock, resetReason, retryCount, timer⟩ := w
  obtain ⟨config', lock', resetReason', retryCount', timer'⟩ := v
  obtain ⟨hconfig, hrest⟩ := h
  simp only [World.mk.injEq, true_and] at hrest hconfig
  obtain ⟨rfl, rfl, rfl, rfl⟩ := hrest
  cases e with
  | boot file => exact ⟨⟨hconfig, rfl⟩, rfl⟩
  | file content => exact ⟨⟨hconfig, rfl⟩, rfl⟩
  | start env clk =>
    have hstart : SameWorld ⟨config, lock, resetReason, 0, false⟩
        ⟨config', lock, resetReason, 0, false⟩ := ⟨hconfig, rfl⟩
    exact hstart.init env.locking clk
  | timer env clk =>
    have hfires : SameWorld ⟨config, lock, resetReason, retryCount, false⟩
        ⟨config', lock, resetReason, retryCount, false⟩ := ⟨hconfig, rfl⟩
    cases timer with
    | false =>
      simp only [World.step, Bool.false_eq_true, if_false]
      exact ⟨hfires, trivial⟩
    | true =>
      simp only [World.step, if_true]
      exact hfires.init env.locking clk

theorem SameWorld.part {w v : World} (h : SameWorld w v) (e : RebootsEvent) :
    SameWorld (rebootsPart w e).1 (rebootsPart v e).1 ∧
      (rebootsPart w e).2 = (rebootsPart v e).2 := by
  have hrequest : ∀ c d : Config, SameConfig c d →
      SameWorld { w with config := c } { v with config := d } := by
    intro c d hc
    rw [← h.rest]
    exact ⟨hc, rfl⟩
  have hreboot := h.config.reboot
  cases e with
  | daemon e => exact h.step e
  | setMax value =>
    refine ⟨hrequest _ _ ?_, rfl⟩
    unfold setDeviceInfoRebootsMaxRebootEntries
    rw [hreboot]
    exact ⟨set_section_congr _ _ _ _ _ h.config.named, rfl⟩
  | removeAll => exact ⟨hrequest _ _ ⟨h.config.named, rfl⟩, rfl⟩
  | remove name =>
    refine ⟨hrequest _ _ ⟨h.config.named, ?_⟩, rfl⟩
    show deleteSection w.config.reboot name = deleteSection v.config.reboot name
    rw [hreboot]
  | execReboot rebooted =>
    refine ⟨hrequest _ _ ?_, rfl⟩
    have hset := h.config.set "last_reboot_cause" "RemoteReboot".toList
    cases rebooted with
    | true => exact hset
    | false => exact hset.set "last_reboot_cause" "".toList

/-- Sections other than that of the reboots are as they were. -/
def Keeps (c d : Config) : Prop := ∀ k, k ≠ "reboots" → d.named k = c.named k

theorem Keeps.set {c d : Config} (h : Keeps c d) (option : String) (value : Str) :
    Keeps c { d with named := d.named.set "reboots" option value } := by
  intro k hk
  rw [← h k hk]
  exact set_section_other _ _ _ _ _ hk

theorem keeps_countBoot (c : Config) (trigger reason : Str) :
    Keeps c (Reboots.countBoot c trigger reason) := by
  have hself : Keeps c c := fun _ _ => rfl
  have htrigger : Keeps c (countTrigger c trigger) := by
    unfold countTrigger
    split
    · exact (hself.set "boot_count" _).set "curr_version_boot_count" _
    · exact (hself.set "boot_count" _).set "curr_version_boot_count" _
  have hwatchdog : Keeps c (countWatchdog (countTrigger c trigger) reason) := by
    unfold countWatchdog
    split
    · exact htrigger.set "watchdog_boot_count" _
    · exact htrigger
  unfold Reboots.countBoot countReason
  split
  · exact hwatchdog.set "cold_boot_count" _
  · exact hwatchdog.set "warm_boot_count" _

theorem keeps_register (env : Env) (c : Config) (clk : Clock) (trigger reason : Str) :
    Keeps c (registerBoot env c clk trigger reason) := by
  have hcount := keeps_countBoot c trigger reason
  unfold registerBoot recordBoot
  split
  · unfold createRebootSection
    dsimp only
    split
    · exact hcount
    · exact hcount.set "last_reboot_cause" _
  · exact hcount

theorem keeps_init (env : Env) (clk : Clock) (w : World) :
    Keeps w.config (sysmngrRebootsInit env clk w).1.config := by
  have hself : Keeps w.config w.config := fun _ _ => rfl
  unfold sysmngrRebootsInit sysmngrRegisterBootAction
  split
  · exact hself
  · dsimp only
    split
    · exact keeps_register env w.config clk _ _
    · split
      · exact hself
      · exact keeps_register env w.config clk _ _

theorem keeps_part (w : World) (e : RebootsEvent) :
    Keeps w.config (rebootsPart w e).1.config := by
  have hself : Keeps w.config w.config := fun _ _ => rfl
  cases e with
  | daemon e =>
    cases e with
    | boot file => exact hself
    | file content => exact hself
    | start env clk => exact keeps_init env.locking clk { w with retryCount := 0, timer := false }
    | timer env clk =>
      simp only [rebootsPart, World.step]
      split
      · exact keeps_init env.locking clk { w with timer := false }
      · exact hself
  | setMax value => exact hself.set "max_reboot_entries" _
  | removeAll => exact hself
  | remove name => exact hself
  | execReboot rebooted =>
    have hset := hself.set "last_reboot_cause" "RemoteReboot".toList
    cases rebooted with
    | true => exact hset
    | false => exact hset.set "last_reboot_cause" "".toList

theorem reboots_owns : rebootsHolder.Owns {"reboots"} rebootsPart where
  writes w e k hk := keeps_part w e k hk
  reads w v e h := by
    obtain ⟨hnext, hout⟩ := ((sameWorld_iff w v).mpr h).part e
    exact ⟨(sameWorld_iff _ _).mp hnext, hout⟩

/-! ### The records -/

/-- The records are among the old ones, or have the name a boot gives to its record. -/
def RecordsFrom (old : List Section) (l : List Section) : Prop :=
  ∀ s ∈ l, s ∈ old ∨ ∃ clk, s.name = Reboots.sectionName clk

theorem RecordsFrom.subset {old l l' : List Section} (h : RecordsFrom old l) (hsub : l' ⊆ l) :
    RecordsFrom old l' := fun s hs => h s (hsub hs)

theorem RecordsFrom.register {old : List Section} {c : Config} (h : RecordsFrom old c.reboot)
    (env : Env) (clk : Clock) (trigger reason : Str) :
    RecordsFrom old (registerBoot env c clk trigger reason).reboot := by
  have hcount := countBoot_reboot c trigger reason
  unfold registerBoot recordBoot
  split
  · intro s hs
    rcases createRebootSection_stamped _ _ _ _ s hs with ⟨hname, -⟩ | ⟨-, hold⟩
    · exact Or.inr ⟨clk, hname⟩
    · rw [hcount] at hold
      exact h s (deleteExcess_subset env c.reboot _ hold)
  · rw [hcount]
    exact h

theorem RecordsFrom.init {old : List Section} {w : World} (h : RecordsFrom old w.config.reboot)
    (env : Env) (clk : Clock) : RecordsFrom old (sysmngrRebootsInit env clk w).1.config.reboot := by
  unfold sysmngrRebootsInit sysmngrRegisterBootAction
  split
  · exact h
  · dsimp only
    split
    · exact h.register env clk _ _
    · split
      · exact h
      · exact h.register env clk _ _

theorem RecordsFrom.part {old : List Section} {w : World} (h : RecordsFrom old w.config.reboot)
    (e : RebootsEvent) : RecordsFrom old (rebootsPart w e).1.config.reboot := by
  cases e with
  | daemon e =>
    cases e with
    | boot file => exact h
    | file content => exact h
    | start env clk => exact RecordsFrom.init (w := { w with retryCount := 0, timer := false }) h _ clk
    | timer env clk =>
      simp only [rebootsPart, World.step]
      split
      · exact RecordsFrom.init (w := { w with timer := false }) h env.locking clk
      · exact h
  | setMax value =>
    refine h.subset ?_
    simp only [rebootsPart, setDeviceInfoRebootsMaxRebootEntries]
    split
    · exact List.nil_subset _
    · split
      · exact deleteEarliest_subset _ _ _
      · exact List.Subset.refl _
  | removeAll => exact h.subset (List.nil_subset _)
  | remove name => exact h.subset (deleteSection_sublist w.config.reboot name).subset
  | execReboot rebooted =>
    cases rebooted with
    | true => exact h
    | false => exact h

/-! ### Requests on firmware images -/

open FwImages (Bbfdm Request Response requestStep keepConfig)
open Transfer (Lib)

def firmwareHolder : Holder String (String → Option Str) FwImages.State where
  store s := s.config
  put s f := { s with config := f }
  store_put _ _ := rfl
  put_store _ := rfl
  put_put _ _ _ := rfl

/-- A response that goes by KeepConfig alone, and a state that differs in `globals` alone. -/
structure AnswersAlike (s : FwImages.State) (f : Named) (r r' : FwImages.State × Response) :
    Prop where
  response : r.2 = r'.2
  dmmap : r.1.dmmap = r'.1.dmmap
  writes : ∀ k, k ≠ "globals" → r.1.config k = s.config k
  keys : r.1.config "globals" = r'.1.config "globals"

theorem boot_alike (api : Bbfdm) (lib : Lib) (env : FwImages.Env) (s : FwImages.State) (f : Named)
    (value : Str) (hkey : s.config "globals" = f "globals") :
    AnswersAlike s f (requestStep api lib s (.boot env value))
      (requestStep api lib { s with config := f } (.boot env value)) := by
  have hkeep : keepConfig { s with config := f } = keepConfig s := by
    simp only [keepConfig, hkey]
  have hsame : ∀ o, AnswersAlike s f (s, o) ({ s with config := f }, o) :=
    fun _ => ⟨rfl, rfl, fun _ _ => rfl, hkey⟩
  simp only [requestStep, FwImages.setDeviceBootFwimage, hkeep]
  split
  · exact hsame _
  split
  · exact hsame _
  cases (api.getReferenceLinker value).dropWhile (· != '-') with
  | nil => exact hsame _
  | cons c bankId =>
    dsimp only
    split
    · exact hsame _
    split
    · exact ⟨rfl, rfl, fun k hk => set_section_other _ _ _ _ _ hk,
        set_section_congr _ _ _ _ _ hkey⟩
    · exact hsame _

theorem request_alike (api : Bbfdm) (lib : Lib) (s : FwImages.State) (f : Named) (r : Request)
    (hkey : s.config "globals" = f "globals") :
    AnswersAlike s f (requestStep api lib s r) (requestStep api lib { s with config := f } r) := by
  have hkeep : keepConfig { s with config := f } = keepConfig s := by
    simp only [keepConfig, hkey]
  cases r with
  | keepConfig value =>
    simp only [requestStep, FwImages.setDeviceinfoKeepConfig]
    split
    · exact ⟨rfl, rfl, fun _ _ => rfl, hkey⟩
    · exact ⟨rfl, rfl, fun k hk => set_section_other _ _ _ _ _ hk,
        set_section_congr _ _ _ _ _ hkey⟩
  | available entry value =>
    simp only [requestStep, FwImages.setDeviceInfoFirmwareImageAvailable]
    split
    · exact ⟨rfl, rfl, fun _ _ => rfl, hkey⟩
    · split
      · exact ⟨rfl, rfl, fun _ _ => rfl, hkey⟩
      · exact ⟨rfl, rfl, fun _ _ => rfl, hkey⟩
  | boot env value => exact boot_alike api lib env s f value hkey
  | activate env entry value =>
    have hanswer : FwImages.operateDeviceInfoFirmwareImageActivate api env s entry value =
        FwImages.operateDeviceInfoFirmwareImageActivate api env { s with config := f } entry
          value := by
      simp only [FwImages.operateDeviceInfoFirmwareImageActivate, hkeep]
    simp only [requestStep, hanswer]
    exact ⟨rfl, rfl, fun _ _ => rfl, hkey⟩
  | download data refparam value o =>
    have hanswer : Transfer.operateDeviceInfoFirmwareImageDownload lib s data refparam value o =
        Transfer.operateDeviceInfoFirmwareImageDownload lib { s with config := f } data refparam value
          o := by
      simp only [Transfer.operateDeviceInfoFirmwareImageDownload, Transfer.downloadRequest, hkeep]
    simp only [requestStep, hanswer]
    exact ⟨rfl, rfl, fun _ _ => rfl, hkey⟩
  | upgrade msg =>
    have hanswer : Fwbank.upgradeHandler s.config msg = Fwbank.upgradeHandler f msg := by
      simp only [Fwbank.upgradeHandler, Fwbank.keepConfigDefault, Named.get, hkey]
    simp only [requestStep, hanswer]
    exact ⟨rfl, rfl, fun _ _ => rfl, hkey⟩

theorem firmware_owns (api : Bbfdm) (lib : Lib) :
    firmwareHolder.Owns {"globals"} (requestStep api lib) := by
  apply Holder.owns_of_put
  · intro s r k hk
    exact (request_alike api lib s s.config r rfl).writes k hk
  · intro s f r hf
    have h := request_alike api lib s f r (hf rfl)
    refine ⟨⟨?_, ?_⟩, h.response⟩
    · rintro k rfl
      exact h.keys
    · show FwImages.State.mk (requestStep api lib { s with config := f } r).1.config
        (requestStep api lib s r).1.dmmap = (requestStep api lib { s with config := f } r).1
      rw [h.dmmap]

/-! ### The daemon -/

inductive Part where
  | memory
  | cpu
  | reboots
  | firmware
  deriving DecidableEq

/-- The section of the package in which a part keeps what it keeps. -/
def Part.sectionName : Part → String
  | .memory => "memory"
  | .cpu => "cpu"
  | .reboots => "reboots"
  | .firmware => "globals"

abbrev Part.State : Part → Type
  | .memory => Timed Monitor.State
  | .cpu => Timed CpuInfo
  | .reboots => World
  | .firmware => FwImages.State

abbrev Part.Event : Part → Type
  | .memory => MonitorEvent MemoryReading MemoryReading
  | .cpu => MonitorEvent CpuReading (Allocated × List (List UInt64))
  | .reboots => RebootsEvent
  | .firmware => Request

abbrev Part.Output : Part → Type
  | .memory => Out
  | .cpu => Out
  | .reboots => List Reboots.Action
  | .firmware => Response

def holder : ∀ i : Part, Holder String (String → Option Str) i.State
  | .memory => memoryHolder
  | .cpu => cpuHolder
  | .reboots => rebootsHolder
  | .firmware => firmwareHolder

/-- `main`, `config_reload_cb`, or the turn of one part: the callback of a timer or a
request. -/
inductive DaemonEvent where
  | start (env : Reboots.Env) (clk : Clock) (a : Allocated) (stat : List (List UInt64))
      (r : MemoryReading)
  | reload (a : Allocated) (stat : List (List UInt64)) (r : MemoryReading)
  | turn (i : Part) (e : i.Event)

def DaemonEvent.turns : DaemonEvent → List (Σ i : Part, i.Event)
  | .start env clk a stat r =>
    [⟨.reboots, .daemon (.start env clk)⟩, ⟨.cpu, .reload (a, stat)⟩, ⟨.memory, .reload r⟩]
  | .reload a stat r => [⟨.cpu, .reload (a, stat)⟩, ⟨.memory, .reload r⟩]
  | .turn i e => [⟨i, e⟩]

section Run
variable (api : Bbfdm) (lib : Lib)

def partStep : ∀ i : Part, i.State → i.Event → i.State × i.Output
  | .memory => memoryPart
  | .cpu => cpuPart
  | .reboots => rebootsPart
  | .firmware => requestStep api lib

/-- The package with what each part holds besides. -/
abbrev DaemonState := Named × ∀ i : Part, i.State

def daemonStep : DaemonState → DaemonEvent → DaemonState × List (Σ i : Part, i.Output) :=
  grouped (sharedStep holder (partStep api lib)) DaemonEvent.turns

theorem sectionName_injective : Function.Injective Part.sectionName := by
  intro i j h
  cases i <;> cases j <;> first | rfl | exact absurd h (by decide)

theorem part_owns : ∀ i : Part, (holder i).Owns {i.sectionName} (partStep api lib i)
  | .memory => memory_owns
  | .cpu => cpu_owns
  | .reboots => reboots_owns
  | .firmware => firmware_owns api lib

/-- A part has done what it does alone, on its own events and from what it held at first,
and it holds, with its section, what it holds then. -/
structure Undisturbed (d : DaemonState) (es : List DaemonEvent) (i : Part) : Prop where
  outputs : partOf i (run (daemonStep api lib) d es).2.flatten =
    (run (partStep api lib i) (part holder d i) (partOf i (es.flatMap DaemonEvent.turns))).2
  held : (holder i).Alike {i.sectionName} (part holder (run (daemonStep api lib) d es).1 i)
    (run (partStep api lib i) (part holder d i) (partOf i (es.flatMap DaemonEvent.turns))).1

/-- Whatever order starts, reloads, timers and requests come in, no part of the daemon
disturbs another through the package, and no other section of it is written but those that
boots add as their records. -/
theorem parts_undisturbed (d : DaemonState) (es : List DaemonEvent) :
    (∀ i : Part, Undisturbed api lib d es i) ∧
      (∀ k, (∀ i : Part, k ≠ i.sectionName) → (run (daemonStep api lib) d es).1.1 k = d.1 k) ∧
      ∀ s ∈ (part holder (run (daemonStep api lib) d es).1 .reboots).config.reboot,
        s ∈ (part holder d .reboots).config.reboot ∨ ∃ clk, s.name = Reboots.sectionName clk := by
  obtain ⟨hstate, houts⟩ := run_grouped (sharedStep holder (partStep api lib))
    DaemonEvent.turns d es
  have hdisjoint : Pairwise fun i j : Part =>
      ({i.sectionName} : Set String) ∩ {j.sectionName} = ∅ := by
    intro i j hij
    rw [Set.singleton_inter_eq_empty, Set.mem_singleton_iff]
    exact sectionName_injective.ne hij
  have halone : ∀ i : Part, Undisturbed api lib d es i := by
    intro i
    obtain ⟨hheld, houtputs⟩ := run_alone (part_owns api lib) hdisjoint i d (part holder d i)
      (es.flatMap DaemonEvent.turns) (Holder.Alike.refl _)
    refine ⟨?_, ?_⟩
    · rw [daemonStep, houts]
      exact houtputs
    · rw [daemonStep, hstate]
      exact hheld
  refine ⟨halone, fun k hk => ?_, ?_⟩
  · rw [daemonStep, hstate]
    exact run_unowned (part_owns api lib) k hk d _
  · have hrecords := congrArg (fun w : World => w.config.reboot) (halone .reboots).held.rest
    change (part holder (run (daemonStep api lib) d es).1 .reboots).config.reboot = _ at hrecords
    rw [hrecords]
    exact run_keeps rebootsPart
      (fun w => RecordsFrom (part holder d .reboots).config.reboot w.config.reboot)
      (fun w e h => h.part e) _ _ fun s hs => Or.inl hs

end Run

end Sysmngr.Daemon
