import Sysmngr.Monitor.Automaton
import Sysmngr.Monitor.Meminfo

/-!
# From `/proc/meminfo` to the notifications (`memory.c`)

Polls of well-formed files notify as the automaton does on the percentages the files
give: reading the text, the percentage and the two tests together.
-/

namespace Sysmngr.Monitor
open Text Uci Machine Hysteresis

/-- A file whose total is positive and not exceeded by what is spare. -/
structure MeminfoFile where
  newline : Bool
  lines : List MeminfoLine
  keys : DistinctKeys lines
  total : 0 < named lines "MemTotal"
  spare_le : spare lines ≤ named lines "MemTotal"
  width : 100 * named lines "MemTotal" < 2 ^ 64

def MeminfoFile.text (f : MeminfoFile) : Str := meminfoText f.newline f.lines

def MeminfoFile.percentage (f : MeminfoFile) : ℕ :=
  100 * (named f.lines "MemTotal" - spare f.lines) / named f.lines "MemTotal"

/-- A poll's file and its clock. -/
structure MeminfoPoll where
  file : MeminfoFile
  riseNow : ℤ
  fallNow : ℤ

def MeminfoPoll.memory (p : MeminfoPoll) : MemoryReading :=
  ⟨(sysmngrMeminfo 64 (some p.file.text)).map Info.reading, p.riseNow, p.fallNow⟩

def MeminfoPoll.poll (p : MeminfoPoll) : Poll := ⟨p.file.percentage, p.riseNow, p.fallNow⟩

theorem MeminfoPoll.memory_poll (p : MeminfoPoll) : p.memory.poll = p.poll := by
  obtain ⟨info, hinfo⟩ := readsMeminfo (w := 64) p.file.newline p.file.lines p.file.keys
    p.file.total p.file.spare_le p.file.width
  have hutil := hinfo.utilization
  have hread : sysmngrMeminfo 64 (some p.file.text) = some info := hinfo.read
  rw [memoryUtilization, hinfo.read] at hutil
  change info.utilization = some _ at hutil
  have htotal : info.memTotal ≠ 0 := by
    intro hz
    rw [Info.utilization, if_pos hz] at hutil
    exact Option.some_ne_none _ hutil.symm
  have hcalc := (calculateMemoryUtilization_reading info htotal).symm.trans hutil
  rw [MemoryReading.poll, MeminfoPoll.memory, hread, Option.map_some, Option.some.inj hcalc]
  rfl

/-- A poll of the monitor and the notifications it gives. -/
def textStep (s : State) (p : MeminfoPoll) : State × List Edge :=
  let r := memoryStep s (.timer p.memory)
  (r.1, edges r.2.effects)

theorem textStep_spec (c : Ctx) (s : State) (p : MeminfoPoll) (hs : Tracks memoryNames c s)
    (hle : c.criticalFallThreshold ≤ c.criticalRiseThreshold) (hp : p.poll.Timely s.ctx) :
    Tracks memoryNames c (textStep s p).1 ∧
      (modeOf (textStep s p).1.ctx, (textStep s p).2) =
        ((Hysteresis.step c.criticalRiseThreshold c.criticalFallThreshold (modeOf s.ctx)
            p.file.percentage).1,
          (Hysteresis.step c.criticalRiseThreshold c.criticalFallThreshold (modeOf s.ctx)
            p.file.percentage).2.toList) := by
  rw [← p.memory_poll] at hp
  have htracks := runMonitor_tracks memoryNames memoryCriticalStateEvent c s p.memory.poll hs hle hp
  have hspec := runMonitor_spec memoryNames memoryCriticalStateEvent c [] s p.memory.poll
    hs.settings hle hp.moves
  have hrearm : edges [rearm c] = [] := rfl
  refine ⟨htracks, ?_⟩
  have hmode := congrArg Prod.fst hspec
  have heffects := congrArg (fun r => edges r.2) hspec
  simp only [spec_poll, edges_append, edges_render memoryNames memoryCriticalStateEvent c _ _
    (fun _ => rfl), hrearm, List.append_nil] at hmode heffects
  rw [p.memory_poll] at hmode heffects
  have hrun : runMonitor memoryNames memoryCriticalStateEvent s p.poll.utilization p.poll.riseNow
      p.poll.fallNow = runMonitor memoryNames memoryCriticalStateEvent s
      (calculateMemoryUtilization p.memory.info) p.memory.riseNow p.memory.fallNow := by
    rw [← p.memory_poll]
    rfl
  rw [hrun] at hmode heffects
  exact Prod.ext hmode heffects

/-- The notifications of polls of well-formed files are those of the automaton on the files'
percentages, from the mode that is stored. -/
theorem memory_texts_notify (uci : Named) (polls : List MeminfoPoll)
    (hle : (fillGlobal memoryNames uci).criticalFallThreshold ≤
      (fillGlobal memoryNames uci).criticalRiseThreshold)
    (hP : Along textStep (fun s p => p.poll.Timely s.ctx) (.load memoryNames uci) polls) :
    (run textStep (.load memoryNames uci) polls).2 =
      (run (Hysteresis.step (fillGlobal memoryNames uci).criticalRiseThreshold
          (fillGlobal memoryNames uci).criticalFallThreshold)
        (modeOf (fillGlobal memoryNames uci))
        (polls.map fun p => p.file.percentage)).2.map Option.toList :=
  (run_simulates textStep
    (Hysteresis.step (fillGlobal memoryNames uci).criticalRiseThreshold
      (fillGlobal memoryNames uci).criticalFallThreshold)
    (fun s m => Tracks memoryNames (fillGlobal memoryNames uci) s ∧ modeOf s.ctx = m)
    (fun p => p.file.percentage) Option.toList _ (by
      rintro s m p ⟨hs, rfl⟩ hp
      obtain ⟨hs', hspec⟩ := textStep_spec _ s p hs hle hp
      exact ⟨⟨hs', congrArg Prod.fst hspec⟩, congrArg Prod.snd hspec⟩)
    _ _ polls ⟨tracks_load memoryNames uci, rfl⟩ hP).2

/-- Files with 100 kB in all, of which so many are free. -/
def freeFile (free : String) (h : free.toList ≠ [] ∧ free.toList.all Char.isDigit = true ∧
    free.toList.length < 100) (hle : digitsValue free.toList ≤ 100) : MeminfoFile where
  newline := true
  lines := [meminfoLine "MemTotal" "100" (by decide),
    meminfoLine "MemFree" free ⟨by decide, by decide, h.1, h.2.1, by
      have hkey : "MemFree".toList.length = 7 := rfl
      have := h.2.2
      omega⟩]
  keys := by
    refine List.pairwise_pair.mpr ?_
    rfl
  total := by
    change 0 < digitsValue "100".toList
    decide
  spare_le := by
    change digitsValue free.toList + 0 + 0 + 0 ≤ digitsValue "100".toList
    exact hle
  width := by
    change 100 * digitsValue "100".toList < 2 ^ 64
    decide

def risesAndFalls : List MeminfoPoll :=
  [⟨freeFile "10" (by decide) (by decide), 100, 100⟩,
    ⟨freeFile "50" (by decide) (by decide), 160, 160⟩]

theorem memory_texts_notify_sample :
    (run textStep (.load memoryNames sampleUci) risesAndFalls).2 = [[.rise], [.fall]] :=
  (memory_texts_notify sampleUci risesAndFalls (by decide) (by decide +kernel)).trans
    (by decide +kernel)

end Sysmngr.Monitor
