import Sysmngr.Daemon.Package
import Sysmngr.IsoTime

/-!
# The critical timestamps as they are shown (`memory.c`, `processes.c`)

A monitor stores the clock of each rise and each fall as a number, cut to 15 characters
when it is read again. The parameters read the whole number and show it as a date. What
the two dates say of the critical state is what the next poll goes by.
-/

namespace Sysmngr.Daemon
open Text Uci Machine Calendar Hysteresis Monitor

/-! ### The parameters -/

/-- The option as `DM_STRTOL` reads it, 0 where there is none. -/
def storedTime (uci : Named) (n : Names) (option : String) : ℤ :=
  strtol ((uci n.package option).getD [])

section Getters
variable (format : ℤ → Str)

/-- `format` is `dm_time_utc_format` of the library. -/
def getCriticalTimeStamp (n : Names) (option : String) (uci : Named) : Str :=
  format (storedTime uci n option)

def getDeviceInfoMemoryStatusMemoryMonitorCriticalRiseTimeStamp : Named → Str :=
  getCriticalTimeStamp format memoryNames "critical_rise_time"

def getDeviceInfoMemoryStatusMemoryMonitorCriticalFallTimeStamp : Named → Str :=
  getCriticalTimeStamp format memoryNames "critical_fall_time"

def getDeviceInfoProcessStatusCPUCriticalRiseTimeStamp : Named → Str :=
  getCriticalTimeStamp format cpuNames "critical_rise_time"

def getDeviceInfoProcessStatusCPUCriticalFallTimeStamp : Named → Str :=
  getCriticalTimeStamp format cpuNames "critical_fall_time"

/-- A second from 1970 to the end of the year 9999. -/
def Datable (t : ℤ) : Prop := 0 ≤ t ∧ t < 253402300800

instance (t : ℤ) : Decidable (Datable t) := inferInstanceAs (Decidable (_ ∧ _))

/-- What `dm_time_utc_format` is documented to give. -/
def DocumentedUtcFormat : Prop := ∀ t, Datable t → format t = strftimeIso 32 (gmtime t)

theorem format_read (hformat : DocumentedUtcFormat format) (t : ℤ) (ht : Datable t) :
    readIso (format t) = some t := by
  rw [hformat t ht]
  apply (readIso_strftimeIso 32 (by decide) t).mpr
  exact ⟨by have := ht.1; omega, ht.2⟩

end Getters

/-! ### Stored and kept times -/

/-- The times in the context are those stored, and these fit the buffer of a reload. -/
structure Stamped (n : Names) (s : State) (rise fall : ℤ) : Prop where
  ctxRise : s.ctx.criticalRiseTime = rise
  ctxFall : s.ctx.criticalFallTime = fall
  storedRise : storedTime s.uci n "critical_rise_time" = rise
  storedFall : storedTime s.uci n "critical_fall_time" = fall
  riseShort : ((s.uci n.package "critical_rise_time").getD []).length ≤ 15
  fallShort : ((s.uci n.package "critical_fall_time").getD []).length ≤ 15
  riseDatable : Datable rise
  fallDatable : Datable fall

/-- A package whose two times can be stored and shown. -/
structure DatedPackage (n : Names) (uci : Named) : Prop where
  riseShort : ((uci n.package "critical_rise_time").getD []).length ≤ 15
  fallShort : ((uci n.package "critical_fall_time").getD []).length ≤ 15
  rise : Datable (storedTime uci n "critical_rise_time")
  fall : Datable (storedTime uci n "critical_fall_time")

theorem loaded_time (n : Names) (uci : Named) (option : String)
    (h : ((uci n.package option).getD []).length ≤ 15) :
    strtol (uci.get n.package option "0".toList 16) = storedTime uci n option := by
  unfold Named.get storedTime
  cases htext : uci n.package option with
  | none => decide
  | some text =>
    rw [htext] at h
    rw [Option.getD_some, Option.getD_some, snprintf_of_le 16 text h]

theorem stamped_load (n : Names) (uci : Named) (h : DatedPackage n uci) :
    Stamped n (.load n uci) (storedTime uci n "critical_rise_time")
      (storedTime uci n "critical_fall_time") where
  ctxRise := loaded_time n uci _ h.riseShort
  ctxFall := loaded_time n uci _ h.fallShort
  storedRise := rfl
  storedFall := rfl
  riseShort := h.riseShort
  fallShort := h.fallShort
  riseDatable := h.rise
  fallDatable := h.fall

theorem Stamped.package {n : Names} {s : State} {rise fall : ℤ} (h : Stamped n s rise fall) :
    DatedPackage n s.uci where
  riseShort := h.riseShort
  fallShort := h.fallShort
  rise := h.storedRise ▸ h.riseDatable
  fall := h.storedFall ▸ h.fallDatable

theorem Stamped.reload {n : Names} {s : State} {rise fall : ℤ} (h : Stamped n s rise fall) :
    Stamped n (.load n s.uci) rise fall := by
  have hload := stamped_load n s.uci h.package
  rwa [h.storedRise, h.storedFall] at hload

theorem set_time (uci : Named) (n : Names) (option : String) (now : ℤ) (h : Datable now) :
    storedTime (uci.set n.package option (snprintf 32 (printInt now))) n option = now ∧
      (((uci.set n.package option (snprintf 32 (printInt now))) n.package option).getD []).length ≤
        15 := by
  obtain ⟨hlo, hhi⟩ := h
  have hlen := printInt_length_le now 12 (by decide) (by omega)
  have hcut : snprintf 32 (printInt now) = printInt now := snprintf_of_le 32 _ (by omega)
  rw [storedTime, hcut, Named.set_self _ _ _ _ (printInt_ne_nil now), Option.getD_some]
  exact ⟨strtol_printInt now (by omega) (by omega), by omega⟩

/-- Another option leaves both times. -/
theorem Stamped.set_other {n : Names} {s : State} {rise fall : ℤ} (h : Stamped n s rise fall)
    (option : String) (value : Str) (hrise : option ≠ "critical_rise_time")
    (hfall : option ≠ "critical_fall_time") :
    Stamped n ⟨s.uci.set n.package option value, s.ctx⟩ rise fall := by
  have hother : ∀ o, option ≠ o → (s.uci.set n.package option value) n.package o =
      s.uci n.package o := fun o ho => Named.set_other _ _ _ _ _ _ fun hh => ho hh.2.symm
  have hr := hother "critical_rise_time" hrise
  have hf := hother "critical_fall_time" hfall
  obtain ⟨hctxRise, hctxFall, hstoredRise, hstoredFall, hriseShort, hfallShort, hrd, hfd⟩ := h
  simp only [storedTime] at hstoredRise hstoredFall
  rw [← hr] at hstoredRise hriseShort
  rw [← hf] at hstoredFall hfallShort
  exact ⟨hctxRise, hctxFall, hstoredRise, hstoredFall, hriseShort, hfallShort, hrd, hfd⟩

/-! ### One poll -/

/-- The time of an edge after what was done, its clock if it was among it. -/
def timeAfter (edge : Edge) (now before : ℤ) (done : List Edge) : ℤ :=
  if edge ∈ done then now else before

theorem rise_stamped (n : Names) (event : ℕ → Effect) (hevent : ∀ u, edgeOf (event u) = none)
    (s : State) (p : Poll) (rise fall : ℤ) (h : Stamped n s rise fall) (hp : Datable p.riseNow) :
    let r := checkRise n event s p.utilization p.riseNow
    Stamped n r.1 (timeAfter .rise p.riseNow rise (edges r.2)) fall ∧ Edge.fall ∉ edges r.2 := by
  rcases checkRise_cases n event s p with ⟨-, hcheck⟩ | ⟨-, hcheck⟩
  · have hedges := edges_render n event s.ctx p (some .rise) hevent
    obtain ⟨hread, hshort⟩ := set_time s.uci n "critical_rise_time" p.riseNow hp
    have hother : (s.uci.set n.package "critical_rise_time" (snprintf 32 (printInt p.riseNow)))
        n.package "critical_fall_time" = s.uci n.package "critical_fall_time" :=
      Named.set_other _ _ _ _ _ _ fun hh => absurd hh.2 (by decide)
    simp only [hcheck, hedges, timeAfter, Option.toList_some, List.mem_singleton, if_true]
    have hstored := h.storedFall
    have hfits := h.fallShort
    rw [storedTime, ← hother] at hstored
    rw [← hother] at hfits
    exact ⟨⟨rfl, h.ctxFall, hread, hstored, hshort, hfits, hp, h.fallDatable⟩, by decide⟩
  · simp only [hcheck]
    exact ⟨h, List.not_mem_nil⟩

theorem fall_stamped (n : Names) (event : ℕ → Effect) (hevent : ∀ u, edgeOf (event u) = none)
    (s : State) (p : Poll) (rise fall : ℤ) (h : Stamped n s rise fall) (hp : Datable p.fallNow) :
    let r := checkFall n s p.utilization p.fallNow
    Stamped n r.1 rise (timeAfter .fall p.fallNow fall (edges r.2)) ∧ Edge.rise ∉ edges r.2 := by
  rcases checkFall_cases n event s p with ⟨-, hcheck⟩ | ⟨-, hcheck⟩
  · have hedges := edges_render n event s.ctx p (some .fall) hevent
    obtain ⟨hread, hshort⟩ := set_time s.uci n "critical_fall_time" p.fallNow hp
    have hother : (s.uci.set n.package "critical_fall_time" (snprintf 32 (printInt p.fallNow)))
        n.package "critical_rise_time" = s.uci n.package "critical_rise_time" :=
      Named.set_other _ _ _ _ _ _ fun hh => absurd hh.2 (by decide)
    simp only [hcheck, hedges, timeAfter, Option.toList_some, List.mem_singleton, if_true]
    have hstored := h.storedRise
    have hfits := h.riseShort
    rw [storedTime, ← hother] at hstored
    rw [← hother] at hfits
    exact ⟨⟨h.ctxRise, rfl, hstored, hread, hfits, hshort, h.riseDatable, hp⟩, by decide⟩
  · simp only [hcheck]
    exact ⟨h, List.not_mem_nil⟩

/-- The last clock of an edge among the outputs, or what was stored before. -/
def lastTime (edge : Edge) (now : Poll → ℤ) : ℤ → List Out → ℤ
  | before, [] => before
  | before, o :: outs =>
    lastTime edge now
      (match o.polled with
        | some p => timeAfter edge (now p) before (edges o.effects)
        | none => before) outs

theorem poll_stamped (n : Names) (event : ℕ → Effect) (hevent : ∀ u, edgeOf (event u) = none)
    (s : State) (p : Poll) (rise fall : ℤ) (h : Stamped n s rise fall)
    (hp : Datable p.riseNow ∧ Datable p.fallNow) :
    let r := runMonitor n event s p.utilization p.riseNow p.fallNow
    Stamped n r.1 (lastTime .rise Poll.riseNow rise [⟨some p, r.2⟩])
      (lastTime .fall Poll.fallNow fall [⟨some p, r.2⟩]) := by
  obtain ⟨hrise, hno⟩ := rise_stamped n event hevent s p rise fall h hp.1
  obtain ⟨hfall, hno'⟩ := fall_stamped n event hevent _ p _ fall hrise hp.2
  have hrearm : edges [rearm s.ctx] = [] := rfl
  simp only [runMonitor, lastTime, edges_append, hrearm, List.append_nil, timeAfter,
    List.mem_append, hno, hno', or_false, false_or] at hfall ⊢
  exact hfall

/-! ### Runs -/

/-- Clocks that can be shown, and no request on the times themselves. -/
def MonitorEvent.KeepsTimes {ρ γ : Type} (timer : ρ → Prop) (reload : γ → Prop) :
    MonitorEvent ρ γ → Prop
  | .timer r => timer r
  | .reload r => reload r
  | .set option _ => option ≠ "critical_rise_time" ∧ option ≠ "critical_fall_time"

def memoryDated (r : MemoryReading) : Prop := Datable r.riseNow ∧ Datable r.fallNow

def cpuDated (r : CpuReading) : Prop := Datable r.riseNow ∧ Datable r.fallNow

/-- The times of a state after the outputs of one event. -/
def StampedAfter (n : Names) (s : State) (rise fall : ℤ) (outs : List Out) : Prop :=
  Stamped n s (lastTime .rise Poll.riseNow rise outs) (lastTime .fall Poll.fallNow fall outs)

theorem memory_stamped (s : Timed State) (e : MonitorEvent MemoryReading MemoryReading)
    (rise fall : ℤ) (h : Stamped memoryNames s.state rise fall)
    (he : e.KeepsTimes memoryDated memoryDated) :
    StampedAfter memoryNames (memoryPart s e).1.state rise fall [(memoryPart s e).2] := by
  have hpoll : ∀ (m : State) (r : MemoryReading), Stamped memoryNames m rise fall →
      memoryDated r →
      StampedAfter memoryNames (runMemoryMonitor m r).1 rise fall [(runMemoryMonitor m r).2] :=
    fun m r hm hr => poll_stamped memoryNames memoryCriticalStateEvent (fun _ => rfl) m r.poll rise
      fall hm hr
  cases e with
  | timer r => exact hpoll s.state r h he
  | reload r =>
    show StampedAfter memoryNames (sysmngrMemoryInit s.state r).1 rise fall
      [(sysmngrMemoryInit s.state r).2]
    unfold sysmngrMemoryInit fillGlobalMemoryCtx
    dsimp only
    split
    · exact hpoll _ r h.reload he
    · exact h.reload
  | set option value => exact h.set_other option value he.1 he.2

theorem cpu_stamped (s : Timed CpuInfo)
    (e : MonitorEvent CpuReading (Allocated × List (List UInt64))) (rise fall : ℤ)
    (h : Stamped cpuNames s.state.mon rise fall) (he : e.KeepsTimes cpuDated fun _ => True) :
    StampedAfter cpuNames (cpuPart s e).1.state.mon rise fall [(cpuPart s e).2] := by
  cases e with
  | timer r =>
    exact poll_stamped cpuNames cpuCriticalStateEvent (fun _ => rfl) s.state.mon
      (s.state.poll r) rise fall h he
  | reload r =>
    have hload := h.reload
    rw [← fillGlobalCpuInfoAlloc_mon s.state.mon.uci r.1 r.2] at hload
    exact hload
  | set option value => exact h.set_other option value he.1 he.2

section Run
variable {σ ε : Type} (step : σ → ε → σ × Out) (mon : σ → State) (n : Names) (Keeps : ε → Prop)

theorem run_stamped
    (hstep : ∀ s e rise fall, Stamped n (mon s) rise fall → Keeps e →
      StampedAfter n (mon (step s e).1) rise fall [(step s e).2])
    (s : σ) (es : List ε) (rise fall : ℤ) (h : Stamped n (mon s) rise fall)
    (hes : ∀ e ∈ es, Keeps e) :
    StampedAfter n (mon (run step s es).1) rise fall (run step s es).2 := by
  induction es generalizing s rise fall with
  | nil => exact h
  | cons e es ih =>
    obtain ⟨he, hrest⟩ := List.forall_mem_cons.mp hes
    exact ih _ _ _ (hstep s e rise fall h he) hrest

end Run

/-- The dates shown are the clocks of the last rise and the last fall, and the monitor is
in the critical state, which its next poll starts from, exactly if the first is later. -/
structure TellsState (riseDate fallDate : Named → Str) (n : Names) (uci : Named) (s : State)
    (outs : List Out) : Prop where
  rise : readIso (riseDate s.uci) =
    some (lastTime .rise Poll.riseNow (storedTime uci n "critical_rise_time") outs)
  fall : readIso (fallDate s.uci) =
    some (lastTime .fall Poll.fallNow (storedTime uci n "critical_fall_time") outs)
  mode : modeOf s.ctx = .critical ↔
    lastTime .fall Poll.fallNow (storedTime uci n "critical_fall_time") outs <
      lastTime .rise Poll.riseNow (storedTime uci n "critical_rise_time") outs

theorem stamped_tells (format : ℤ → Str) (hformat : DocumentedUtcFormat format) (n : Names)
    (uci : Named) (s : State) (outs : List Out)
    (h : StampedAfter n s (storedTime uci n "critical_rise_time")
      (storedTime uci n "critical_fall_time") outs) :
    TellsState (getCriticalTimeStamp format n "critical_rise_time")
      (getCriticalTimeStamp format n "critical_fall_time") n uci s outs where
  rise := by
    rw [getCriticalTimeStamp, h.storedRise]
    exact format_read format hformat _ h.riseDatable
  fall := by
    rw [getCriticalTimeStamp, h.storedFall]
    exact format_read format hformat _ h.fallDatable
  mode := by
    rw [modeOf, h.ctxRise, h.ctxFall]
    split
    · exact iff_of_true rfl ‹_›
    · exact iff_of_false (by decide) ‹_›

/-- In every run of either monitor, with reloads and requests on other options. -/
theorem timestamps_tell_state (format : ℤ → Str) (hformat : DocumentedUtcFormat format) :
    (∀ (uci : Named) (timer : Option ℤ) (es : List (MonitorEvent MemoryReading MemoryReading)),
      DatedPackage memoryNames uci → (∀ e ∈ es, e.KeepsTimes memoryDated memoryDated) →
      TellsState (getDeviceInfoMemoryStatusMemoryMonitorCriticalRiseTimeStamp format)
        (getDeviceInfoMemoryStatusMemoryMonitorCriticalFallTimeStamp format) memoryNames uci
        (run memoryPart ⟨.load memoryNames uci, timer⟩ es).1.state
        (run memoryPart ⟨.load memoryNames uci, timer⟩ es).2) ∧
    (∀ (uci : Named) (s : Timed CpuInfo)
        (es : List (MonitorEvent CpuReading (Allocated × List (List UInt64)))),
      s.state.mon = .load cpuNames uci → DatedPackage cpuNames uci →
      (∀ e ∈ es, e.KeepsTimes cpuDated fun _ => True) →
      TellsState (getDeviceInfoProcessStatusCPUCriticalRiseTimeStamp format)
        (getDeviceInfoProcessStatusCPUCriticalFallTimeStamp format) cpuNames uci
        (run cpuPart s es).1.state.mon (run cpuPart s es).2) := by
  constructor
  · intro uci timer es huci hes
    apply stamped_tells format hformat
    exact run_stamped memoryPart Timed.state memoryNames _
      (fun s e rise fall h he => memory_stamped s e rise fall h he) _ es _ _
      (stamped_load memoryNames uci huci) hes
  · intro uci s es hs huci hes
    have hload := stamped_load cpuNames uci huci
    rw [← hs] at hload
    apply stamped_tells format hformat
    exact run_stamped cpuPart (fun c => c.state.mon) cpuNames _
      (fun s e rise fall h he => cpu_stamped s e rise fall h he) s es _ _ hload hes

def utcFormat (t : ℤ) : Str := strftimeIso 32 (gmtime t)

def memoryEnabled : Named := Named.set (fun _ _ => none) "memory" "enable" "1".toList

def free (kilobytes : UInt64) (now : ℤ) : MemoryReading := ⟨some ⟨100, kilobytes, 0, 0, 0⟩, now, now⟩

/-- A rise at the reload, another interval, and a fall. -/
def riseAndFall : List (MonitorEvent MemoryReading MemoryReading) :=
  [.reload (free 5 1727037285), .set "polling_interval" "30".toList, .timer (free 60 1727037345)]

theorem timestamps_tell_state_sample :
    TellsState (getDeviceInfoMemoryStatusMemoryMonitorCriticalRiseTimeStamp utcFormat)
      (getDeviceInfoMemoryStatusMemoryMonitorCriticalFallTimeStamp utcFormat) memoryNames
      memoryEnabled (run memoryPart ⟨.load memoryNames memoryEnabled, none⟩ riseAndFall).1.state
      (run memoryPart ⟨.load memoryNames memoryEnabled, none⟩ riseAndFall).2 := by
  have hdated : DatedPackage memoryNames memoryEnabled := by
    constructor <;> decide
  have htimes : ∀ e ∈ riseAndFall, e.KeepsTimes memoryDated memoryDated := by
    intro e he
    simp only [riseAndFall, List.mem_cons, List.not_mem_nil, or_false] at he
    rcases he with rfl | rfl | rfl
    · exact ⟨by decide, by decide⟩
    · exact ⟨by decide, by decide⟩
    · exact ⟨by decide, by decide⟩
  exact (timestamps_tell_state utcFormat (fun _ _ => rfl)).1 memoryEnabled none riseAndFall hdated
    htimes

end Sysmngr.Daemon
