import Mathlib.Data.Int.Interval
import Sysmngr.Processes.Cmdline
import Sysmngr.Processes.Fields
import Sysmngr.Processes.Instances
import Sysmngr.Processes.StatLine
import Sysmngr.Processes.Updater

/-!
# The process table and the processes

What browsing shows in a run of the updater is a table of the processes that the last
refresh found. A process that ends while `/proc` is read has no row, or, once its `stat`
has been read, its name for a command.
-/

namespace Sysmngr.Processes
open Text Uci Machine

/-! ### What the kernel has -/

/-- The largest process id. -/
def PID_MAX_LIMIT : ℤ := 2 ^ 22

/-- A process when its `stat` is read. The command line is missing when the process has
ended before that file is opened. -/
structure Running where
  stat : KernelStat
  cmdline : Option Str
  pid_pos : 1 ≤ stat.pid
  pid_le : stat.pid ≤ PID_MAX_LIMIT
  priority_ge : -101 ≤ stat.priority.toInt
  priority_le : stat.priority.toInt ≤ 39
  short : stat.line.length ≤ 1023

/-- How far the daemon gets with a process that ends before its `stat` is read. -/
inductive Ended where
  | beforeStat
  | beforeOpen
  | beforeRead
  deriving DecidableEq

/-- A name of `/proc` with what is behind it when it is its turn. -/
inductive Listed where
  | other (d : Dirent) (h : d.isProcess = false)
  | process (p : Running) (allocated : Bool)
  | ended (pid : ℤ) (stage : Ended) (h : 1 ≤ pid ∧ pid ≤ PID_MAX_LIMIT)

def Listed.dirent : Listed → Dirent
  | .other d _ => d
  | .process p allocated => ⟨printInt p.stat.pid, true, some p.stat.line, p.cmdline, allocated⟩
  | .ended pid stage _ =>
    ⟨printInt pid, stage ≠ .beforeStat, if stage = .beforeRead then some [] else none, none, true⟩

def Listed.pid : Listed → Option ℤ
  | .other _ _ => none
  | .process p _ => some p.stat.pid
  | .ended pid _ _ => some pid

/-- `/proc` as it is read from its first name to its last; none is listed twice. -/
structure Directory where
  names : List Listed
  distinct : (names.filterMap Listed.pid).Nodup

/-! ### The rows -/

def Running.percent (p : Running) : ℕ := ((p.stat.priority.toInt + 100) * 99 / 139).toNat

/-- The name keeps 31 bytes, the command 255, and size and CPU time their first seven
digits. -/
def Running.row (p : Running) : ProcessEntry where
  pid := printInt p.stat.pid
  command := (cmdlineText ((p.cmdline.getD []).take 255) (p.stat.comm.take 31)).take 255
  state := getProcState p.stat.state
  size := (printNat p.stat.stat.kilobytes).take 7
  priority := printNat p.percent
  cputime := (printNat (p.stat.stat.milliseconds % 2 ^ 64)).take 7

/-- The processes with a row: those alive when it is their turn, up to the first for which
there is no memory. -/
def alive : List Listed → List Running
  | [] => []
  | .process p true :: rest => p :: alive rest
  | .process _ false :: _ => []
  | _ :: rest => alive rest

def found (d : Option Directory) : List Running := (d.map fun d => alive d.names).getD []

/-- The instances up to the one at which the caller stops. -/
def upTo (stop : ℕ → Bool) : List (ℕ × ProcessEntry) → List (ℕ × ProcessEntry)
  | [] => []
  | i :: rest => if stop i.1 then [i] else i :: upTo stop rest

def numbered (table : List Running) : List (ℕ × ProcessEntry) :=
  table.mapIdx fun i p => (i + 1, p.row)

inductive TableEvent where
  | browse (stop : ℕ → Bool)
  | timer (res : ℤ) (d : Option Directory)
  | complete (d : Option Directory)

/-- A refresh replaces the table by what it finds; a call that is accepted leaves the
table as it is until the call completes. -/
def tableStep (table : List Running) :
    TableEvent → List Running × Option (List (ℕ × ProcessEntry))
  | .browse stop => (table, some (upTo stop (numbered table)))
  | .timer res d => (if res = 0 then table else found d, none)
  | .complete d => (found d, none)

/-! ### One process -/

theorem first_digits (n : ℕ) (h : n < 10 ^ 31) :
    snprintf 8 (snprintf 32 (printNat n)) = (printNat n).take 7 := by
  rw [snprintf_of_le 32 _ (printNat_length_le n 31 (by decide) h)]
  rfl

theorem pid_text (pid : ℤ) (hpos : 1 ≤ pid) (hle : pid ≤ PID_MAX_LIMIT) :
    snprintf 8 (printInt pid) = printInt pid := by
  have hmax : PID_MAX_LIMIT = 4194304 := rfl
  have hneg : ¬pid < 0 := by omega
  apply snprintf_of_le
  rw [printInt, if_neg hneg]
  exact printNat_length_le pid.natAbs 7 (by decide) (by omega)

theorem state_text (state : Char) : snprintf 16 (getProcState state) = getProcState state := by
  have hlen : (getProcState state).length ≤ 15 := by
    unfold getProcState
    split_ifs <;> decide
  exact snprintf_of_le 16 _ hlen

theorem percent_le (p : Running) : p.percent ≤ 99 := by
  have hle := p.priority_le
  unfold Running.percent
  omega

/-- A real-time priority below the highest is rounded to it. -/
theorem scaled (x : ℤ) (h : -139 < x) : x.tdiv 139 = (x / 139).toNat := by
  by_cases hneg : x < 0
  · have hzero : (-x).tdiv 139 = 0 := Int.tdiv_eq_zero_of_lt (by omega) (by omega)
    rw [← Int.neg_neg x, Int.neg_tdiv, hzero]
    omega
  · rw [Int.tdiv_eq_ediv_of_nonneg (Int.not_lt.mp hneg)]
    omega

theorem priority_text (p : Running) : snprintf 8 p.stat.stat.priori = printNat p.percent := by
  have hge := p.priority_ge
  have hle := p.priority_le
  have hfits : toInt ((p.stat.priority.toInt + 100) * 99) = (p.stat.priority.toInt + 100) * 99 :=
    toInt_of_mem _ (by omega) (by omega)
  have hpercent := percent_le p
  have hscaled : (((p.stat.priority.toInt + 100) * 99).tdiv 139 % 2 ^ 32).toNat = p.percent := by
    rw [scaled _ (by omega)]
    change ((p.percent : ℤ) % 2 ^ 32).toNat = p.percent
    omega
  have hlen := printNat_length_le p.percent 2 (by decide) (by omega)
  show snprintf 8 (snprintf 32 (printNat
    ((toInt ((p.stat.priority.toInt + 100) * 99)).tdiv 139 % 2 ^ 32).toNat)) = _
  rw [hfits, hscaled, snprintf_of_le 32 _ (by omega), snprintf_of_le 8 _ (by omega)]

theorem kilobytes_lt (k : KernelStat) : k.stat.kilobytes < 10 ^ 31 := by
  have hlt := k.vsize.toNat_lt
  have hshift : k.stat.kilobytes = k.vsize.toNat / 2 ^ 10 := Nat.shiftRight_eq_div_pow _ _
  omega

theorem entry_row (p : Running) (d : Dirent) (hname : d.name = printInt p.stat.pid)
    (hcmdline : d.cmdline = p.cmdline) : makeEntry d p.stat.stat = p.row := by
  have hnul : NUL ∉ p.stat.stat.comm := fun h => p.stat.comm_nul (List.mem_of_mem_take h)
  have hcommand : (makeEntry d p.stat.stat).command = p.row.command := by
    rw [command_eq d p.stat.stat hnul, hcmdline]
    rfl
  have hpid : (makeEntry d p.stat.stat).pid = p.row.pid := by
    show snprintf 8 d.name = printInt p.stat.pid
    rw [hname]
    exact pid_text p.stat.pid p.pid_pos p.pid_le
  have hsize : (makeEntry d p.stat.stat).size = p.row.size :=
    first_digits _ (kilobytes_lt p.stat)
  have hcputime : (makeEntry d p.stat.stat).cputime = p.row.cputime :=
    first_digits _ (Nat.lt_of_lt_of_le (Nat.mod_lt _ (by decide)) (by decide))
  have hpriority : (makeEntry d p.stat.stat).priority = p.row.priority := priority_text p
  have hstate : (makeEntry d p.stat.stat).state = p.row.state := state_text p.stat.state
  cases hentry : makeEntry d p.stat.stat
  cases hrow : p.row
  simp only [hentry, hrow] at hcommand hpid hsize hcputime hpriority hstate
  rw [hcommand, hpid, hsize, hcputime, hpriority, hstate]

/-! ### One scan -/

theorem ended_skipped (pid : ℤ) (stage : Ended) (h : 1 ≤ pid ∧ pid ≤ PID_MAX_LIMIT) :
    readProcess (Listed.ended pid stage h).dirent = none := by
  have hempty : readStat [] = none := rfl
  cases stage with
  | beforeStat => simp [readProcess, Listed.dirent]
  | beforeOpen => simp [readProcess, Listed.dirent]
  | beforeRead => simp [readProcess, Listed.dirent, hempty]

theorem pid_isProcess (pid : ℤ) (h : 1 ≤ pid) (stat : Bool) (text cmdline : Option Str)
    (allocated : Bool) :
    (⟨printInt pid, stat, text, cmdline, allocated⟩ : Dirent).isProcess = true := by
  have hneg : ¬pid < 0 := by omega
  rw [Dirent.isProcess, printInt, if_neg hneg]
  cases hdigits : printNat pid.natAbs with
  | nil => exact absurd hdigits (printNat_ne_nil _)
  | cons c r => exact printNat_isDigit pid.natAbs c (hdigits ▸ List.mem_cons_self ..)

theorem process_read (p : Running) (allocated : Bool) :
    readProcess (Listed.process p allocated).dirent = some p.row := by
  have hprocess := pid_isProcess p.stat.pid p.pid_pos true (some p.stat.line) p.cmdline allocated
  have hstat := readStat_line p.stat p.short
  simp only [Listed.dirent, readProcess, hprocess, Bool.and_self, if_true, Option.bind_some, hstat,
    Option.map_some, Option.some.injEq]
  exact entry_row p _ rfl rfl

theorem scan_alive (names : List Listed) :
    (scanProcesses (names.map Listed.dirent)).1 = (alive names).map Running.row := by
  induction names with
  | nil => rfl
  | cons l rest ih =>
    cases l with
    | other d h =>
      have hskip : readProcess d = none := by simp [readProcess, h]
      simp only [List.map_cons, Listed.dirent, scanProcesses, hskip, alive]
      exact ih
    | process p allocated =>
      rw [List.map_cons, scanProcesses, process_read]
      cases allocated with
      | false => rfl
      | true => exact congrArg (p.row :: ·) ih
    | ended pid stage h =>
      rw [List.map_cons, scanProcesses, ended_skipped]
      exact ih

/-! ### Directories -/

theorem isProcess_eq (l : Listed) : l.dirent.isProcess = l.pid.isSome := by
  cases l with
  | other d h => exact h
  | process p allocated => exact pid_isProcess p.stat.pid p.pid_pos _ _ _ _
  | ended pid stage h => exact pid_isProcess pid h.1 _ _ _ _

theorem process_names (names : List Listed) :
    ((names.map Listed.dirent).filter Dirent.isProcess).length =
      (names.filterMap Listed.pid).length := by
  rw [← List.countP_eq_length_filter, List.countP_map, List.length_filterMap_eq_countP]
  exact List.countP_congr fun l _ => by simp only [Function.comp_apply, isProcess_eq]

theorem pid_bounds (names : List Listed) :
    ∀ pid ∈ names.filterMap Listed.pid, 1 ≤ pid ∧ pid ≤ PID_MAX_LIMIT := by
  intro pid hpid
  obtain ⟨l, -, hl⟩ := List.mem_filterMap.mp hpid
  cases l with
  | other d h => exact absurd hl (by simp [Listed.pid])
  | process p allocated =>
    obtain rfl := Option.some.inj hl
    exact ⟨p.pid_pos, p.pid_le⟩
  | ended pid' stage h =>
    obtain rfl := Option.some.inj hl
    exact h

theorem pids_length_le (d : Directory) : (d.names.filterMap Listed.pid).length ≤ 2 ^ 22 := by
  have hsubset : (d.names.filterMap Listed.pid).toFinset ⊆ Finset.Icc 1 PID_MAX_LIMIT := by
    intro pid hpid
    exact Finset.mem_Icc.mpr (pid_bounds d.names pid (List.mem_toFinset.mp hpid))
  have hcard := Finset.card_le_card hsubset
  rw [List.toFinset_card_of_nodup d.distinct, Int.card_Icc] at hcard
  exact hcard

/-- What the daemon meets when it reads the directory. -/
def Directory.read (d : Directory) : Proc where
  dirents := d.names.map Listed.dirent
  processes_lt := by
    have hle := pids_length_le d
    rw [process_names]
    omega

theorem alive_pids (names : List Listed) :
    ((alive names).map fun p => p.stat.pid).Sublist (names.filterMap Listed.pid) := by
  induction names with
  | nil => exact List.Sublist.refl _
  | cons l rest ih =>
    cases l with
    | other d h => exact ih
    | process p allocated =>
      cases allocated with
      | false => exact List.nil_sublist _
      | true => exact ih.cons_cons _
    | ended pid stage h => exact ih.cons _

theorem found_distinct (d : Option Directory) : ((found d).map fun p => p.stat.pid).Nodup := by
  cases d with
  | none => exact List.nodup_nil
  | some d => exact d.distinct.sublist (alive_pids d.names)

theorem refresh_found (c : ProcessCtx) (d : Option Directory) :
    (runRefreshProcessList c (d.map Directory.read)).1.list = (found d).map Running.row := by
  rw [refresh_list]
  cases d with
  | none => rfl
  | some d => exact scan_alive d.names

/-! ### Runs -/

def TableEvent.read : TableEvent → UpdaterEvent
  | .browse stop => .browse stop
  | .timer res d => .timer res (d.map Directory.read)
  | .complete d => .complete (d.map Directory.read)

def Done.instances : Done → Option (List (ℕ × ProcessEntry))
  | .browsed instances _ => some instances
  | .refreshed _ => none
  | .asked => none

theorem upTo_eq (stop : ℕ → Bool) (l : List (ℕ × ProcessEntry)) :
    l.take ((l.takeWhile fun i => !stop i.1).length + 1) = upTo stop l := by
  induction l with
  | nil => rfl
  | cons i rest ih =>
    by_cases hstop : stop i.1 = true
    · simp [upTo, hstop]
    · simp only [upTo, hstop, Bool.false_eq_true, if_false]
      rw [List.takeWhile_cons_of_pos (by simp [hstop]), List.length_cons, List.take_succ_cons, ih]

theorem browse_table (c : ProcessCtx) (table : List Running) (stop : ℕ → Bool)
    (h : c.list = table.map Running.row) :
    (browseProcessEntriesInst c stop).1 = upTo stop (numbered table) := by
  have hrows : (c.list.mapIdx fun i entry => (i + 1, entry)) = numbered table := by
    rw [h, numbered]
    exact List.ext_getElem (by simp) fun i hi hi' => by simp
  rw [browseProcessEntriesInst, hrows]
  exact upTo_eq stop _

theorem step_table (table : List Running) (s : Updater) (e : TableEvent)
    (h : s.ctx.list = table.map Running.row) :
    (updaterStep s e.read).1.ctx.list = (tableStep table e).1.map Running.row ∧
      (tableStep table e).2 = (updaterStep s e.read).2.instances := by
  cases e with
  | browse stop => exact ⟨h, congrArg some (browse_table s.ctx table stop h).symm⟩
  | timer res d =>
    by_cases hres : res = 0
    · subst hres
      exact ⟨h, rfl⟩
    · simp only [tableStep, TableEvent.read, updaterStep, processRefreshInstanceTimer,
        ne_eq, hres, not_false_eq_true, if_true]
      exact ⟨refresh_found s.ctx d, rfl⟩
  | complete d => exact ⟨refresh_found s.ctx d, rfl⟩

/-- What the daemon shows in a run is what the table of running processes shows, and the
rows of one showing have different process ids. -/
structure ShowsProcesses (uci : Named) (first : Option Directory) (es : List TableEvent) :
    Prop where
  instances : (run updaterStep (startUpdater uci (first.map Directory.read))
      (es.map TableEvent.read)).2.map Done.instances = (run tableStep (found first) es).2
  distinct : ∀ rows ∈ (run tableStep (found first) es).2, ∀ l ∈ rows,
    (l.map fun i => i.2.pid).Nodup

theorem upTo_initial (stop : ℕ → Bool) (l : List (ℕ × ProcessEntry)) : upTo stop l <+: l := by
  induction l with
  | nil => exact List.prefix_rfl
  | cons i rest ih =>
    rw [upTo]
    split
    · exact List.prefix_append [i] rest
    · exact (List.prefix_cons_inj i).mpr ih

theorem upTo_distinct (stop : ℕ → Bool) (table : List Running)
    (h : (table.map fun p => p.stat.pid).Nodup) :
    ((upTo stop (numbered table)).map fun i => i.2.pid).Nodup := by
  have hpids : (numbered table).map (fun i => i.2.pid) =
      (table.map fun p => p.stat.pid).map printInt := by
    rw [numbered, List.map_map]
    exact List.ext_getElem (by simp) fun i hi hi' => by simp [Running.row]
  have hall : ((numbered table).map fun i => i.2.pid).Nodup := by
    rw [hpids]
    exact h.map printInt_injective
  exact hall.sublist ((upTo_initial stop (numbered table)).map _).sublist

theorem tableStep_distinct (table : List Running) (e : TableEvent)
    (h : (table.map fun p => p.stat.pid).Nodup) :
    ((tableStep table e).1.map fun p => p.stat.pid).Nodup := by
  cases e with
  | browse stop => exact h
  | timer res d =>
    rw [tableStep]
    split
    · exact h
    · exact found_distinct d
  | complete d => exact found_distinct d

/-- However the periodic refreshes, their calls and the requests come in turn. -/
theorem showsProcesses (uci : Named) (first : Option Directory) (es : List TableEvent) :
    ShowsProcesses uci first es where
  instances := by
    have hstart : (startUpdater uci (first.map Directory.read)).ctx.list =
        (found first).map Running.row := refresh_found _ first
    have hrun := run_simulates tableStep updaterStep
      (fun table s => s.ctx.list = table.map Running.row) TableEvent.read Done.instances
      (fun _ _ => True) (fun table s e h _ => step_table table s e h) (found first)
      (startUpdater uci (first.map Directory.read)) es hstart
      (along_of_forall tableStep _ (fun _ _ => trivial) _ es)
    exact hrun.2.symm
  distinct := by
    apply run_outputs_forall tableStep (fun _ _ => True)
      (fun table => (table.map fun p => p.stat.pid).Nodup)
    · exact fun table e h _ => tableStep_distinct table e h
    · intro table e h _ l hl
      cases e with
      | browse stop =>
        obtain rfl := Option.some.inj hl
        exact upTo_distinct stop table h
      | timer res d => exact absurd hl (by simp [tableStep])
      | complete d => exact absurd hl (by simp [tableStep])
    · exact found_distinct first
    · exact along_of_forall tableStep _ (fun _ _ => trivial) _ es

/-- The process with the misleading name, whose command line can no longer be read. -/
def mimic : Running where
  stat := mimicStat
  cmdline := none
  pid_pos := by decide
  pid_le := by decide
  priority_ge := by decide
  priority_le := by decide
  short := by decide +kernel

def mimicProc : Directory where
  names := [.other ⟨"self".toList, true, none, none, true⟩ (by decide), .process mimic true,
    .ended 42 .beforeOpen (by decide)]
  distinct := by decide

def mimicRow : ProcessEntry :=
  ⟨"[a) S 1 (2]".toList, "Running".toList, "7".toList, "1024".toList, "69".toList,
    "1844674".toList⟩

theorem showsProcesses_sample :
    (run updaterStep (startUpdater (fun _ _ => none) (some mimicProc.read))
      [.browse (fun _ => false), .timer 0 none, .complete none, .browse (fun _ => false)]).2.map
        Done.instances = [some [(1, mimicRow)], none, none, some []] :=
  (showsProcesses (fun _ _ => none) (some mimicProc)
    [.browse fun _ => false, .timer 0 none, .complete none, .browse fun _ => false]).instances.trans
    (by decide +kernel)

end Sysmngr.Processes
