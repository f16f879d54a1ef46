import Sysmngr.Uci

/-!
# The memory and CPU monitors (`memory.c`, `processes.c`)

Both monitors compare a utilisation with two thresholds in two separate tests, and
know whether they are in the critical state by comparing two timestamps that are
kept in the package `sysmngr` and read again by every start or reload.
-/

namespace Sysmngr.Monitor
open Text Uci

structure Names where
  package : String
  interval : String
  intervalDefault : Str
  logPath : Str
  logType : String
  interval_ne : interval ≠ "critical_rise_time" ∧ interval ≠ "critical_fall_time"

def memoryNames : Names where
  package := "memory"
  interval := "polling_interval"
  intervalDefault := "60".toList
  logPath := "/var/log/critical_memory.log".toList
  logType := "Memory"
  interval_ne := by decide

def cpuNames : Names where
  package := "cpu"
  interval := "poll_interval"
  intervalDefault := "5".toList
  logPath := "/var/log/critical_cpu.log".toList
  logType := "CPU"
  interval_ne := by decide

structure Ctx where
  enable : Bool
  enableCriticalLog : Bool
  interval : ℕ
  criticalRiseThreshold : ℕ
  criticalFallThreshold : ℕ
  criticalRiseTime : ℤ
  criticalFallTime : ℤ
  logFile : Str
  deriving DecidableEq

/-- The configuration a monitor reads into its context, option by option. -/
def fillGlobal (n : Names) (uci : Named) : Ctx where
  enable := toInt (strtol (uci.get n.package "enable" "0".toList 16)) != 0
  enableCriticalLog := toInt (strtol (uci.get n.package "enable_critical_log" "0".toList 16)) != 0
  interval := toUInt (strtoul (uci.get n.package n.interval n.intervalDefault 16))
  criticalRiseThreshold :=
    toUInt (strtoul (uci.get n.package "critical_rise_threshold" "80".toList 16))
  criticalFallThreshold :=
    toUInt (strtoul (uci.get n.package "critical_fall_threshold" "60".toList 16))
  criticalRiseTime := strtol (uci.get n.package "critical_rise_time" "0".toList 16)
  criticalFallTime := strtol (uci.get n.package "critical_fall_time" "0".toList 16)
  logFile := uci.get n.package "file_path" n.logPath 512

inductive DmtType where
  | unint
  | string
  deriving DecidableEq, Repr

/-- What a monitor is seen to do; an event carries its input parameters. -/
inductive Effect where
  | uciSet (package option : String) (value : Str)
  | criticalLog (path : Str) (logType : String) (critical : Bool)
  | event (name : String) (input : List (String × Str × DmtType))
  | timeoutSet (ms : ℤ)
  deriving DecidableEq, Repr

structure State where
  uci : Named
  ctx : Ctx

def State.load (n : Names) (uci : Named) : State := ⟨uci, fillGlobal n uci⟩

def criticalLog (n : Names) (c : Ctx) (critical : Bool) : List Effect :=
  if c.enableCriticalLog then [.criticalLog c.logFile n.logType critical] else []

/-! ### One check of the thresholds -/

/-- First test: the threshold is reached and the last change was a fall. -/
def checkRise (n : Names) (event : ℕ → Effect) (m : State) (utilization : ℕ) (now : ℤ) :
    State × List Effect :=
  if utilization > m.ctx.criticalRiseThreshold ∧ m.ctx.criticalFallTime ≥ m.ctx.criticalRiseTime then
    let buf := snprintf 32 (printInt now)
    (⟨m.uci.set n.package "critical_rise_time" buf, { m.ctx with criticalRiseTime := now }⟩,
      [.uciSet n.package "critical_rise_time" buf] ++ criticalLog n m.ctx true ++
        [event utilization])
  else (m, [])

/-- Second test, on what the first one leaves. -/
def checkFall (n : Names) (m : State) (utilization : ℕ) (now : ℤ) : State × List Effect :=
  if utilization < m.ctx.criticalFallThreshold ∧ m.ctx.criticalRiseTime > m.ctx.criticalFallTime then
    let buf := snprintf 32 (printInt now)
    (⟨m.uci.set n.package "critical_fall_time" buf, { m.ctx with criticalFallTime := now }⟩,
      [.uciSet n.package "critical_fall_time" buf] ++ criticalLog n m.ctx false)
  else (m, [])

/-- `uloop_timeout_set`: the product is an `unsigned int`, the parameter an `int`. -/
def rearm (c : Ctx) : Effect := .timeoutSet (toInt (toUInt (c.interval * 1000)))

def runMonitor (n : Names) (event : ℕ → Effect) (m : State) (utilization : ℕ)
    (riseNow fallNow : ℤ) : State × List Effect :=
  let rise := checkRise n event m utilization riseNow
  let fall := checkFall n rise.1 utilization fallNow
  (fall.1, rise.2 ++ fall.2 ++ [rearm m.ctx])

structure Poll where
  utilization : ℕ
  riseNow : ℤ
  fallNow : ℤ
  deriving DecidableEq, Repr

structure Out where
  polled : Option Poll
  effects : List Effect
  deriving DecidableEq

/-! ### Memory -/

structure MemInfo where
  memTotal : UInt64
  memFree : UInt64
  buffers : UInt64
  cached : UInt64
  sreclaimable : UInt64
  deriving DecidableEq

/-- `none` when `/proc/meminfo` cannot be read. A total of 0 gives 0 here, where the
division of the source traps. -/
def calculateMemoryUtilization (info : Option MemInfo) : ℕ :=
  match info with
  | none => 0
  | some i =>
    let used := i.memTotal - (i.memFree + i.buffers + i.cached + i.sreclaimable)
    ((used * 100) / i.memTotal).toUInt32.toNat

def memoryCriticalStateEvent (utilization : ℕ) : Effect :=
  .event "Device.DeviceInfo.MemoryStatus.MemoryMonitor.MemoryCriticalState!"
    [("MemUtilization", snprintf 32 (printNat utilization), .unint)]

structure MemoryReading where
  info : Option MemInfo
  riseNow : ℤ
  fallNow : ℤ

def MemoryReading.poll (r : MemoryReading) : Poll :=
  ⟨calculateMemoryUtilization r.info, r.riseNow, r.fallNow⟩

def runMemoryMonitor (m : State) (r : MemoryReading) : State × Out :=
  let t := runMonitor memoryNames memoryCriticalStateEvent m (calculateMemoryUtilization r.info)
    r.riseNow r.fallNow
  (t.1, ⟨some r.poll, t.2⟩)

def fillGlobalMemoryCtx (m : State) : State := .load memoryNames m.uci

def sysmngrMemoryInit (m : State) (r : MemoryReading) : State × Out :=
  let m := fillGlobalMemoryCtx m
  if m.ctx.enable then runMemoryMonitor m r else (m, ⟨none, []⟩)

/-- The timer fires, or the daemon restarts or gets `sysmngr.reload`. -/
inductive MemoryEvent where
  | timer (r : MemoryReading)
  | reload (r : MemoryReading)

def memoryStep (m : State) : MemoryEvent → State × Out
  | .timer r => runMemoryMonitor m r
  | .reload r => sysmngrMemoryInit m r

/-! ### CPU -/

structure Jiffies where
  usr : UInt64
  nic : UInt64
  sys : UInt64
  idle : UInt64
  iowait : UInt64
  irq : UInt64
  softirq : UInt64
  steal : UInt64
  totalTime : UInt64
  idleTime : UInt64
  sysTime : UInt64
  busyTime : UInt64
  deriving DecidableEq

def Jiffies.zero : Jiffies := ⟨0, 0, 0, 0, 0, 0, 0, 0, 0, 0, 0, 0⟩

/-- The fields one `sscanf` assigns, in order, of the numbers it found on a line. -/
def Jiffies.scan (j : Jiffies) (vals : List UInt64) : Jiffies :=
  { j with
    usr := vals.getD 0 j.usr
    nic := vals.getD 1 j.nic
    sys := vals.getD 2 j.sys
    idle := vals.getD 3 j.idle
    iowait := vals.getD 4 j.iowait
    irq := vals.getD 5 j.irq
    softirq := vals.getD 6 j.softirq
    steal := vals.getD 7 j.steal }

def Jiffies.total (j : Jiffies) : Jiffies :=
  let totalTime := j.usr + j.nic + j.sys + j.idle + j.iowait + j.irq + j.softirq + j.steal
  let idleTime := j.idle + j.iowait
  { j with
    totalTime := totalTime
    sysTime := j.sys + j.irq + j.softirq
    idleTime := idleTime
    busyTime := totalTime - idleTime }

/-- `/proc/stat` as the numbers `sscanf` finds on each line; a line with fewer than
four is passed over, but what it assigned stays. -/
def getJifVal (j : Jiffies) : List (List UInt64) → Jiffies
  | [] => j
  | vals :: rest =>
    if vals.length ≥ 4 then (j.scan vals).total else getJifVal (j.scan vals) rest

structure CpuInfo where
  mon : State
  jiffy : Jiffies
  fullSamplesReached : Bool
  userUtilizationSamples : List UInt32
  systemUtilizationSamples : List UInt32
  idleUtilizationSamples : List UInt32
  utilizationSamples : List UInt32
  numSamples : ℕ
  sampleIndex : ℕ

def calculateAverageSamples (c : CpuInfo) (samples : List UInt32) : ℕ :=
  let numSamples := if c.fullSamplesReached then c.numSamples else toUInt c.sampleIndex
  let sum : UInt32 := (samples.take numSamples).foldl (· + ·) 0
  if numSamples ≠ 0 then sum.toNat / numSamples else 0

def sample (diff totalDiff : UInt64) : UInt32 := ((diff * 100) / totalDiff).toUInt32

/-- The samples one reading of `/proc/stat` adds, before the thresholds are tested.
NumSamples is checked to be 1 to 300; the remainder by 0 would trap. -/
def takeSamples (c : CpuInfo) (stat : List (List UInt64)) : CpuInfo :=
  let prev := c.jiffy
  let jiffy := getJifVal c.jiffy stat
  let diff := jiffy.totalTime - prev.totalTime
  let totalDiff := if diff = 0 then 1 else diff
  { c with
    jiffy := jiffy
    userUtilizationSamples :=
      c.userUtilizationSamples.set c.sampleIndex (sample (jiffy.usr - prev.usr) totalDiff)
    systemUtilizationSamples :=
      c.systemUtilizationSamples.set c.sampleIndex (sample (jiffy.sysTime - prev.sysTime) totalDiff)
    idleUtilizationSamples :=
      c.idleUtilizationSamples.set c.sampleIndex (sample (jiffy.idleTime - prev.idleTime) totalDiff)
    utilizationSamples :=
      c.utilizationSamples.set c.sampleIndex (sample (jiffy.busyTime - prev.busyTime) totalDiff)
    fullSamplesReached := c.fullSamplesReached || decide (c.sampleIndex + 1 ≥ c.numSamples)
    sampleIndex := (c.sampleIndex + 1) % c.numSamples }

def cpuCriticalStateEvent (utilization : ℕ) : Effect :=
  .event "Device.DeviceInfo.ProcessStatus.CPU.1.CPUCriticalState!"
    [("CPUUtilization", snprintf 32 (printNat utilization), .unint),
      ("Name", "cpu".toList, .string)]

structure CpuReading where
  stat : List (List UInt64)
  riseNow : ℤ
  fallNow : ℤ

def runCpuMonitor (c : CpuInfo) (r : CpuReading) : CpuInfo × Out :=
  let c := takeSamples c r.stat
  let avgUtilization := calculateAverageSamples c c.utilizationSamples
  let t := runMonitor cpuNames cpuCriticalStateEvent c.mon avgUtilization r.riseNow r.fallNow
  ({ c with mon := t.1 }, ⟨some ⟨avgUtilization, r.riseNow, r.fallNow⟩, t.2⟩)

def fillGlobalCpuInfo (uci : Named) (stat : List (List UInt64)) : CpuInfo :=
  let numSamples := toUInt (strtoul (uci.get "cpu" "num_samples" "30".toList 16))
  { mon := .load cpuNames uci
    jiffy := getJifVal .zero stat
    fullSamplesReached := false
    userUtilizationSamples := List.replicate numSamples 0
    systemUtilizationSamples := List.replicate numSamples 0
    idleUtilizationSamples := List.replicate numSamples 0
    utilizationSamples := List.replicate numSamples 0
    numSamples := numSamples
    sampleIndex := 0 }

/-- The first poll after a start or a reload is the timer's. -/
def sysmngrCpuInit (uci : Named) (stat : List (List UInt64)) : CpuInfo × Out :=
  let c := fillGlobalCpuInfo uci stat
  (c, ⟨none, if c.mon.ctx.enable then [rearm c.mon.ctx] else []⟩)

inductive CpuEvent where
  | timer (r : CpuReading)
  | reload (stat : List (List UInt64))

def cpuStep (c : CpuInfo) : CpuEvent → CpuInfo × Out
  | .timer r => runCpuMonitor c r
  | .reload stat => sysmngrCpuInit c.mon.uci stat

end Sysmngr.Monitor
