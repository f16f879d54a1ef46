import Mathlib.Data.List.DropRight
import Sysmngr.Machine
import Sysmngr.Scanf
import Sysmngr.Uci

/-!
# The process list (`processes.c`)

A refresh frees the list and fills it again from the directory `/proc`, one entry for
each process whose files can be read and parsed. The change of the number of entries is
announced as instances added to, or deleted from, the end of the table.
-/

namespace Sysmngr.Processes
open Text Uci

/-! ### One process -/

structure ProcessEntry where
  command : Str
  state : Str
  pid : Str
  size : Str
  priority : Str
  cputime : Str
  deriving DecidableEq, Repr

/-- An entry of `/proc` with what its files `stat` and `cmdline` give when they can be
read, and whether memory for a list entry is found when it is its turn. -/
structure Dirent where
  name : Str
  statExists : Bool
  stat : Option Str
  cmdline : Option Str
  allocated : Bool
  deriving DecidableEq, Repr

def Dirent.isProcess (d : Dirent) : Bool := d.name.head?.any Char.isDigit

def getProcState (state : Char) : Str :=
  if state = 'R' then "Running".toList
  else if state = 'S' then "Sleeping".toList
  else if state = 'T' then "Stopped".toList
  else if state = 'D' then "Uninterruptible".toList
  else if state = 'Z' then "Zombie".toList
  else if state = 'I' then "Idle".toList
  else "Idle".toList

/-- `dm_file_to_buf`: the number of bytes read, none when the file does not open, and the
buffer with a NUL after them. -/
def dmFileToBuf (content : Option Str) (buf : List Char) : Option ℕ × List Char :=
  let text := snprintf buf.length (content.getD [])
  (content.map fun _ => text.length, store buf text)

/-- Overwrites the front of `buf`, for a position where it has room. -/
def memmove (buf : List Char) (dst : ℕ) (src : List Char) : List Char :=
  buf.take dst ++ src ++ buf.drop (dst + src.length)

/-- The buffer in which the command line of a process is put together in place. -/
def procpsGetCmdline (buf : List Char) (cmdline : Option Str) (comm : Option Str) : List Char :=
  let bufsz := buf.length
  let (sz, buf) := dmFileToBuf cmdline buf
  if sz.getD 0 > 0 then
    let kept := ((buf.take (sz.getD 0)).rdropWhile (· == NUL)).length
    let argv0 := (buf.takeWhile fun c => c != ' ' && c != NUL).length
    let buf := buf.set argv0 NUL
    let base := argv0 - ((cstr buf).rtakeWhile (· != '/')).length
    let buf := (buf.take kept).map (fun c => if c.toNat < 32 then ' ' else c) ++ buf.drop kept
    let base := if buf.getD base NUL = '-' then base + 1 else base
    match comm with
    | none => buf
    | some comm =>
      if comm.isPrefixOf (cstr (buf.drop base)) then buf
      else
        let commLen := comm.length + 3
        let buf := if bufsz > commLen then memmove buf commLen (buf.take (bufsz - commLen)) else buf
        let buf := store buf (snprintf bufsz ('{' :: comm ++ ['}']))
        if bufsz ≤ commLen then buf else (buf.set (commLen - 1) ' ').set (bufsz - 1) NUL
  else store buf (snprintf bufsz ('[' :: comm.getD ['?'] ++ [']']))

/-- The conversion string for what follows the name: state, ppid; pgid, sid, tty, tpgid;
flags, min_flt, cmin_flt, maj_flt, cmaj_flt; utime, stime; cutime, cstime, priority;
niceness; timeout, it_real_value; start_time; vsize. -/
def statFormat : List Scanf.Directive :=
  [.char, .blank, .skipNumber, .blank,
    .skipNumber, .blank, .skipNumber, .blank, .skipNumber, .blank, .skipWord, .blank,
    .skipWord, .blank, .skipWord, .blank, .skipWord, .blank, .skipWord, .blank, .skipWord, .blank,
    .ulong, .blank, .ulong, .blank,
    .skipNumber, .blank, .skipNumber, .blank, .int, .blank,
    .skipNumber, .blank,
    .skipWord, .blank, .skipWord, .blank,
    .skipWord, .blank,
    .ulong, .blank]

structure Stat where
  comm : Str
  state : Char
  utime : ℕ
  stime : ℕ
  priority : ℤ
  vsize : ℕ
  deriving DecidableEq, Repr

/-- The file as read into `buf[1024]`, split at its last closing parenthesis. -/
def readStat (content : Str) : Option Stat :=
  let buf := cstr (snprintf 1024 content)
  if ')' ∈ buf then
    let head := (buf.rdropWhile (· != ')')).dropLast
    let rest := buf.rtakeWhile (· != ')')
    match head.dropWhile (· != '(') with
    | [] => none
    | _ :: comm =>
      match Scanf.sscanf statFormat (rest.drop 1) with
      | [.char state, .ulong utime, .ulong stime, .int priority, .ulong vsize] =>
        some ⟨snprintf 32 comm, state, utime, stime, priority, vsize⟩
      | _ => none
  else none

def CLK_TCK : ℕ := 100

def Stat.cputime (s : Stat) : Str :=
  snprintf 32 (printNat ((s.stime / CLK_TCK + s.utime / CLK_TCK) * 1000 % 2 ^ 64))

def Stat.bsize (s : Stat) : Str := snprintf 32 (printNat (s.vsize >>> 10))

/-- Rounding the quotient of two integers does nothing. -/
def Stat.priori (s : Stat) : Str :=
  snprintf 32 (printNat ((toInt ((s.priority + 100) * 99)).tdiv 139 % 2 ^ 32).toNat)

def makeEntry (d : Dirent) (s : Stat) : ProcessEntry where
  pid := snprintf 8 d.name
  command := snprintf 256 (cstr (procpsGetCmdline (List.replicate 256 NUL) d.cmdline (some s.comm)))
  size := snprintf 8 s.bsize
  priority := snprintf 8 s.priori
  cputime := snprintf 8 s.cputime
  state := snprintf 16 (getProcState s.state)

def readProcess (d : Dirent) : Option ProcessEntry :=
  if d.isProcess && d.statExists then (d.stat.bind readStat).map (makeEntry d) else none

/-! ### The list -/

inductive Effect where
  | event (method : Str) (instances : List Str)
  | timeoutSet (ms : ℤ)
  deriving DecidableEq, Repr

structure ProcessCtx where
  list : List ProcessEntry
  refreshInterval : ℤ
  processNum : ℤ
  deriving DecidableEq, Repr

def processPath (i : ℤ) : Str :=
  snprintf 256 ("Device.DeviceInfo.ProcessStatus.Process.".toList ++ printInt i)

/-- The first list is not announced. -/
def broadcastAddDelEvent (processNum diff : ℤ) : List Effect :=
  if processNum = 0 then []
  else
    let path (i : ℕ) : Str :=
      processPath (if diff > 0 then processNum + i + 1 else processNum - i)
    [.event ("bbfdm.".toList ++ if diff > 0 then "AddObj".toList else "DelObj".toList)
      ((List.range diff.natAbs).map path)]

/-- What opening and reading `/proc` gives, if it opens. A process id is a positive
`int`, so fewer than 2^31 of the names begin with a digit. -/
structure Proc where
  dirents : List Dirent
  processes_lt : (dirents.filter Dirent.isProcess).length < 2 ^ 31

/-- The entries added to the list, and whether the end of the directory is reached:
without memory for an entry the function returns at once. -/
def scanProcesses : List Dirent → List ProcessEntry × Bool
  | [] => ([], true)
  | d :: rest =>
    match readProcess d with
    | none => scanProcesses rest
    | some entry =>
      if d.allocated then
        let r := scanProcesses rest
        (entry :: r.1, r.2)
      else ([], false)

def initProcessList (c : ProcessCtx) (proc : Option Proc) : ProcessCtx × List Effect :=
  match proc with
  | none => (c, [])
  | some p =>
    let scan := scanProcesses p.dirents
    let c := { c with list := c.list ++ scan.1 }
    if !scan.2 then (c, [])
    else
      let curProcessNum := scan.1.length
      let diff := toInt (curProcessNum - c.processNum)
      if diff ≠ 0 then
        ({ c with processNum := toInt curProcessNum }, broadcastAddDelEvent c.processNum diff)
      else (c, [])

def freeProcessList (c : ProcessCtx) : ProcessCtx := { c with list := [] }

def runRefreshProcessList (c : ProcessCtx) (proc : Option Proc) : ProcessCtx × List Effect :=
  let r := initProcessList (freeProcessList c) proc
  (r.1, r.2 ++
    if r.1.refreshInterval > 0 then [.timeoutSet (toInt (r.1.refreshInterval * 1000))] else [])

theorem initProcessList_interval (c : ProcessCtx) (proc : Option Proc) :
    (initProcessList c proc).1.refreshInterval = c.refreshInterval := by
  cases proc with
  | none => rfl
  | some p =>
    unfold initProcessList
    dsimp only
    split
    · rfl
    split
    · rfl
    · rfl

theorem refresh_interval (c : ProcessCtx) (proc : Option Proc) :
    (runRefreshProcessList c proc).1.refreshInterval = c.refreshInterval :=
  initProcessList_interval (freeProcessList c) proc

/-- Whatever the scan comes to, the last thing a periodic refresh does is to set the timer. -/
theorem refresh_effects (c : ProcessCtx) (proc : Option Proc) (h : 0 < c.refreshInterval) :
    (runRefreshProcessList c proc).2 =
      (initProcessList (freeProcessList c) proc).2 ++
        [.timeoutSet (toInt (c.refreshInterval * 1000))] := by
  have hsame : (initProcessList (freeProcessList c) proc).1.refreshInterval = c.refreshInterval :=
    initProcessList_interval (freeProcessList c) proc
  have hpos : (initProcessList (freeProcessList c) proc).1.refreshInterval > 0 := by
    rw [hsame]
    exact h
  rw [runRefreshProcessList, if_pos hpos, hsame]

def getInstanceRefreshInterval (uci : Named) : ℤ :=
  toInt (strtol (uci.get "process" "instance_refresh_interval" "0".toList 8))

def sysmngrProcessInit (uci : Named) (proc : Option Proc) : ProcessCtx × List Effect :=
  runRefreshProcessList ⟨[], getInstanceRefreshInterval uci, 0⟩ proc

/-- The instances linked, until the caller has found the one it looks for; without
periodic refreshes browsing asks for one. -/
def browseProcessEntriesInst (c : ProcessCtx) (stop : ℕ → Bool) :
    List (ℕ × ProcessEntry) × List Effect :=
  let instances := c.list.mapIdx fun i entry => (i + 1, entry)
  (instances.take ((instances.takeWhile fun i => !stop i.1).length + 1),
    if c.refreshInterval ≤ 0 then [.timeoutSet (2 * 1000)] else [])

end Sysmngr.Processes
