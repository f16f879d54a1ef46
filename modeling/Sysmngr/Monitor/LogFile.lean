import Sysmngr.Monitor.Model
import Sysmngr.Shell.Unquoted

/-!
# The critical log file (`utils.c`, and `FilePath` in `memory.c` and `processes.c`)

A change of the critical state runs a logger script on a command line into which the
configured path is printed without quotes, and after it a word for the state that on
a fall is a null pointer.
-/

namespace Sysmngr.Monitor
open Text Uci

/-! ### Setting FilePath -/

/-- A fault and the message set for it, if the handler sets one. -/
inductive Fault where
  | FAULT_9007 (message : Option Str)
  deriving DecidableEq, Repr

inductive Action where
  | valueCheck
  | valueSet
  deriving DecidableEq, Repr

/-- What the handlers call: the string validator, without bounds, list or pattern, and
the file system. -/
structure LogEnv where
  validateString : Str → Bool
  fileExists : Str → Bool
  renameOk : Str → Str → Bool

structure LogState where
  uci : Named
  vendorlog : List Section

def fileUri (path : Str) : Str := snprintf 512 ("file://".toList ++ path)

/-- The first section that refers to the old path refers to the new one. -/
def updateVendorlog (uri newUri : Str) : List Section → List Section
  | [] => []
  | s :: rest =>
    if s.get "log_file" = uri then s.set "log_file" newUri :: rest
    else s :: updateVendorlog uri newUri rest

/-- The memory and the CPU monitor have the same handler, each with its own package
section and default path. -/
def setFilePath (n : Names) (env : LogEnv) (s : LogState) (value : Str) :
    Action → Option Fault × LogState
  | .valueCheck =>
    if !env.validateString value then (some (.FAULT_9007 none), s)
    else if !(("/var/log".toList.isPrefixOf value || "/log/".toList.isPrefixOf value) &&
        !strstr value "..".toList) then (some (.FAULT_9007 (some [])), s)
    else (none, s)
  | .valueSet =>
    let filePath := (s.uci n.package "file_path").getD n.logPath
    let configured := s.uci.set n.package "file_path" value
    if env.fileExists filePath then
      if !env.renameOk filePath value then
        (some (.FAULT_9007 (some ("Can't rename file from '".toList ++ filePath ++ "' -> '".toList ++
          value ++ "'".toList))), s)
      else (none, ⟨configured, updateVendorlog (fileUri filePath) (fileUri value) s.vendorlog⟩)
    else (none, { s with uci := configured })

/-- What an accepted path starts with, and what it does not have in it. -/
theorem valueCheck_reads (n : Names) (env : LogEnv) (s : LogState) (value : Str)
    (h : (setFilePath n env s value .valueCheck).1 = none) :
    ((∃ t, value = "/var/log".toList ++ t) ∨ ∃ t, value = "/log/".toList ++ t) ∧
      strstr value "..".toList = false := by
  simp only [setFilePath] at h
  split at h
  · exact absurd h (by simp)
  split at h
  · exact absurd h (by simp)
  rename_i hpath
  simp only [Bool.not_eq_true', Bool.not_eq_false, Bool.and_eq_true, Bool.or_eq_true,
    List.isPrefixOf_iff_prefix] at hpath
  obtain ⟨hpre, hdots⟩ := hpath
  refine ⟨?_, hdots⟩
  rcases hpre with ⟨t, ht⟩ | ⟨t, ht⟩
  · exact Or.inl ⟨t, ht.symm⟩
  · exact Or.inr ⟨t, ht.symm⟩

theorem valueCheck_accepts (n : Names) (env : LogEnv) (s : LogState) (value : Str)
    (h : (setFilePath n env s value .valueCheck).1 = none) : ∃ rest, value = '/' :: rest := by
  obtain ⟨hpre, -⟩ := valueCheck_reads n env s value h
  rcases hpre with ⟨t, rfl⟩ | ⟨t, rfl⟩
  · exact ⟨_, rfl⟩
  · exact ⟨_, rfl⟩

theorem valueSet_stores (n : Names) (env : LogEnv) (s : LogState) (value : Str) (hne : value ≠ [])
    (h : (setFilePath n env s value .valueSet).1 = none) :
    (setFilePath n env s value .valueSet).2.uci n.package "file_path" = some value := by
  simp only [setFilePath] at h ⊢
  split
  · rename_i hexists
    rw [if_pos hexists] at h
    split
    · rename_i hrename
      rw [if_pos hrename] at h
      exact absurd h (by simp)
    · exact Named.set_self _ _ _ _ hne
  · exact Named.set_self _ _ _ _ hne

/-! ### Running the logger -/

def CRITICAL_STATE_LOGGER_PATH : Str := "/etc/sysmngr/critical_state_logger.sh".toList

/-- The last argument is `critical_state ? "true" : false`, a null pointer on a fall,
which `%s` prints as `(null)`. -/
def stateWord (criticalState : Bool) : Str :=
  if criticalState then "true".toList else "(null)".toList

def sysmngrGenerateCriticalLogFile (logPath type : Str) (criticalState : Bool) : Str :=
  snprintf 1024 ("sh ".toList ++ CRITICAL_STATE_LOGGER_PATH ++ ' ' :: type ++ ' ' :: logPath ++
    ' ' :: stateWord criticalState)

def loggerCommand (type path : Str) (criticalState : Bool) : Shell.Command :=
  ⟨["sh".toList, CRITICAL_STATE_LOGGER_PATH, type, path,
    if criticalState then "true".toList else "false".toList], []⟩

/-- The command line up to the slash every accepted path begins with. -/
def loggerHead (type : Str) : Str := "sh ".toList ++ CRITICAL_STATE_LOGGER_PATH ++ ' ' :: type ++ " /".toList

theorem loggerHead_run (n : Names) (hn : n = memoryNames ∨ n = cpuNames) :
    Shell.Lexer.start.run (loggerHead n.logType.toList) = some ⟨.plain, some ['/'], false,
      ["sh".toList, CRITICAL_STATE_LOGGER_PATH, n.logType.toList].map .word⟩ := by
  rcases hn with rfl | rfl <;> decide

theorem loggerHead_clean (n : Names) (hn : n = memoryNames ∨ n = cpuNames) :
    (∀ c ∈ loggerHead n.logType.toList, Shell.special c = false) ∧
      (loggerHead n.logType.toList).length ≤ 50 := by
  have hall : (loggerHead n.logType.toList).all (fun c => !Shell.special c) = true ∧
      (loggerHead n.logType.toList).length ≤ 50 := by
    rcases hn with rfl | rfl <;> decide
  exact ⟨fun c hc => by simpa using List.all_eq_true.mp hall.1 c hc, hall.2⟩

theorem command_of_path (n : Names) (hn : n = memoryNames ∨ n = cpuNames) (text : Str)
    (criticalState : Bool) (hlen : text.length ≤ 510) :
    sysmngrGenerateCriticalLogFile ('/' :: text) n.logType.toList criticalState =
      loggerHead n.logType.toList ++ text ++ Shell.unquoted [stateWord criticalState] := by
  have hhead := (loggerHead_clean n hn).2
  have hstate : (stateWord criticalState).length ≤ 6 := by cases criticalState <;> decide
  have htext : sysmngrGenerateCriticalLogFile ('/' :: text) n.logType.toList criticalState =
      snprintf 1024 (loggerHead n.logType.toList ++ text ++ Shell.unquoted [stateWord criticalState]) := by
    have hslash : " /".toList = [' ', '/'] := rfl
    simp only [sysmngrGenerateCriticalLogFile, loggerHead, Shell.unquoted, hslash,
      List.append_assoc, List.cons_append, List.nil_append, List.flatMap_cons, List.flatMap_nil,
      List.append_nil]
  rw [htext, snprintf_of_le]
  simp only [Shell.unquoted, List.flatMap_cons, List.flatMap_nil, List.length_append,
    List.length_cons, List.length_nil]
  omega

theorem logFile_of_valueSet (n : Names) (env : LogEnv) (s : LogState) (rest : Str)
    (hset : (setFilePath n env s ('/' :: rest) .valueSet).1 = none) :
    (fillGlobal n (setFilePath n env s ('/' :: rest) .valueSet).2.uci).logFile =
      '/' :: rest.take 510 := by
  have hstored := valueSet_stores n env s _ (List.cons_ne_nil '/' rest) hset
  simp [fillGlobal, Named.get, hstored, snprintf]

/-- On a fall the command line has no `f` but those of the path. -/
theorem fall_not_read (n : Names) (hn : n = memoryNames ∨ n = cpuNames) (text target : Str)
    (hle : text.countP (· == 'f') ≤ target.countP (· == 'f')) :
    Shell.pipeline (loggerHead n.logType.toList ++ text ++ Shell.unquoted [stateWord false]) ≠
      some [loggerCommand n.logType.toList target false] := by
  intro h
  have hwords := Shell.pipeline_countP_le (· == 'f') _ _ h
  have hhead : (loggerHead n.logType.toList).countP (· == 'f') = 0 := by
    rcases hn with rfl | rfl <;> decide
  have hstate : (Shell.unquoted [stateWord false]).countP (· == 'f') = 0 := by decide
  have hfalse : "false".toList.countP (· == 'f') = 1 := by decide
  have hkept : target.countP (· == 'f') + 1 ≤
      (Shell.wordChars [loggerCommand n.logType.toList target false]).countP (· == 'f') := by
    simp only [loggerCommand, Shell.wordChars, List.flatMap_cons, List.flatMap_nil, List.append_nil,
      List.flatten_cons, List.flatten_nil, List.countP_append, Bool.false_eq_true, if_false, hfalse]
    omega
  rw [List.countP_append, List.countP_append, hhead, hstate] at hwords
  omega

/-- After an accepted `FilePath` is set, the command line runs the logger with the path
as one word and with the state exactly on a rise and with a path of plain characters
that fits the 512 bytes it is read into. -/
theorem logger_reads_iff (n : Names) (hn : n = memoryNames ∨ n = cpuNames) (env : LogEnv)
    (s : LogState) (path : Str) (criticalState : Bool)
    (hcheck : (setFilePath n env s path .valueCheck).1 = none)
    (hset : (setFilePath n env s path .valueSet).1 = none) :
    Shell.pipeline (sysmngrGenerateCriticalLogFile
        (fillGlobal n (setFilePath n env s path .valueSet).2.uci).logFile n.logType.toList
        criticalState) = some [loggerCommand n.logType.toList path criticalState] ↔
      criticalState = true ∧ path.length ≤ 511 ∧ ∀ c ∈ path, Shell.plainChar c = true := by
  obtain ⟨rest, rfl⟩ := valueCheck_accepts n env s path hcheck
  rw [logFile_of_valueSet n env s rest hset, command_of_path n hn _ _ (List.length_take_le _ _)]
  cases criticalState with
  | false =>
    have hle : (rest.take 510).countP (· == 'f') ≤ ('/' :: rest).countP (· == 'f') :=
      ((List.take_sublist 510 rest).trans (List.sublist_cons_self '/' rest)).countP_le
    simpa using fall_not_read n hn (rest.take 510) ('/' :: rest) hle
  | true =>
    have hword := Shell.pipeline_word_iff (loggerHead n.logType.toList) (rest.take 510) rest ['/']
      ["sh".toList, CRITICAL_STATE_LOGGER_PATH, n.logType.toList] [stateWord true]
      (loggerHead_run n hn) (loggerHead_clean n hn).1 (by decide) (by decide)
      (List.take_prefix 510 rest)
    refine hword.trans ⟨fun ⟨hall, hplain⟩ => ?_, fun ⟨_, hlen, hplain⟩ => ?_⟩
    · rw [hall] at hplain
      have hlen : rest.length ≤ 510 := List.take_eq_self_iff rest |>.mp hall
      refine ⟨rfl, by rw [List.length_cons]; omega, fun c hc => ?_⟩
      rcases List.mem_cons.mp hc with rfl | hc
      · decide
      · exact hplain c hc
    · rw [List.length_cons] at hlen
      have hall : rest.take 510 = rest := List.take_of_length_le (by omega)
      rw [hall]
      exact ⟨rfl, fun c hc => hplain c (List.mem_cons_of_mem _ hc)⟩

def plainLogEnv : LogEnv := ⟨fun _ => true, fun _ => false, fun _ _ => true⟩

def emptyLogState : LogState := ⟨fun _ _ => none, []⟩

theorem logger_reads_sample :
    Shell.pipeline (sysmngrGenerateCriticalLogFile (fillGlobal cpuNames (setFilePath cpuNames
        plainLogEnv emptyLogState "/log/cpu".toList .valueSet).2.uci).logFile
        cpuNames.logType.toList true) =
      some [loggerCommand cpuNames.logType.toList "/log/cpu".toList true] :=
  (logger_reads_iff cpuNames (Or.inr rfl) plainLogEnv emptyLogState "/log/cpu".toList true
    (by decide) (by decide)).mpr ⟨rfl, by decide, List.all_eq_true.mp (by decide)⟩

/-- A path with a semicolon is accepted, and what follows it is a command of its own. -/
theorem logger_runs_other_command :
    ¬∀ (n : Names), n = memoryNames ∨ n = cpuNames → ∀ (env : LogEnv) (s : LogState) (path : Str)
      (criticalState : Bool), (setFilePath n env s path .valueCheck).1 = none →
      (setFilePath n env s path .valueSet).1 = none →
      Shell.pipeline (sysmngrGenerateCriticalLogFile
          (fillGlobal n (setFilePath n env s path .valueSet).2.uci).logFile n.logType.toList
          criticalState) = some [loggerCommand n.logType.toList path criticalState] := by
  intro hall
  have hread := hall memoryNames (Or.inl rfl) plainLogEnv emptyLogState
    "/var/log/a;reboot".toList true (by decide) (by decide)
  exact absurd hread (by decide)

end Sysmngr.Monitor
