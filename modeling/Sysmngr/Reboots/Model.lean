import Sysmngr.Calendar
import Sysmngr.Libbbfdm
import Sysmngr.Lines
import Sysmngr.Uci

/-!
# Reboot records and boot registration (`reboots.c`)

The reset-reason file is read through the line buffer of `get_boot_option_value`,
boots are counted and recorded in the package `sysmngr`, and the daemon decides
when to register a boot by a lock file, a retry counter and a timer.
-/

namespace Sysmngr.Reboots
open Text Lines Uci Calendar

def REBOOT_MAX_RETRIES : ℕ := 15
def REBOOT_RETRY_DELAY : ℤ := 3
def REBOOT_MAX_ENTRIES : ℤ := 32

/-- The package `sysmngr`: its named sections, which the package ships with, and
its sections of type `reboot` in file order. -/
structure Config where
  named : Named
  reboot : List Section

def Config.empty : Config := ⟨fun _ _ => none, []⟩

/-- The readings of one registration: `time(NULL)` for the section name, the
second `time(NULL)` and the uptime that give the boot time. -/
structure Clock where
  now : Int64
  bootNow : Int64
  uptime : ℤ
  deriving DecidableEq

/-- Which UCI deletions (by section name), commits and file creations succeed, and the
string functions of libbbfdm. -/
structure Env where
  delete : Str → Bool
  commit : Bool
  create : Bool
  lib : Libbbfdm

/-! ### Reading the reset-reason file -/

def scanLines (lib : Libbbfdm) (optionName : Str) (size : ℕ) : List Char → List Str → Str
  | _, [] => []
  | buf, l :: ls =>
    let line := lib.trim buf l
    if strstr (cstr line) optionName then
      match (cstr line).idxOf? ':' with
      | some p => snprintf size (cstr (line.drop (p + 2)))
      | none => []
    else scanLines lib optionName size line ls

def getBootOptionValue (lib : Libbbfdm) (file : Option Str) (optionName : Str) (size : ℕ) : Str :=
  match file with
  | none => []
  | some content =>
    scanLines lib optionName size (List.replicate 256 NUL) (fgetsAll 256 content.length content)

example : getBootOptionValue .clearing (some "triggered: upgrade\n reason: POR_RESET \n".toList)
    "reason".toList 32 = "POR_RESET".toList := by decide

def checkValidResetReasonFile (lib : Libbbfdm) (file : Option Str) : Bool :=
  match file with
  | none => false
  | some _ => (getBootOptionValue lib file "reason".toList 32).length != 0

/-! ### Counters and records -/

def resetOptionCounter (c : Config) (optionName : String) (optionValue : Str) : Config :=
  { c with named := c.named.set "reboots" optionName optionValue }

def counterValue (c : Config) (optionName : String) : ℤ :=
  toInt (strtol (c.named.get "reboots" optionName "0".toList 16))

def incrementOptionCounter (c : Config) (optionName : String) : Config :=
  let counter := toInt (counterValue c optionName + 1)
  { c with named := c.named.set "reboots" optionName (snprintf 16 (printInt counter)) }

def bootReasonMessage (trigger reason : Str) : Str :=
  if trigger.length ≠ 0 then
    if trigger = "defaultreset".toList then "FACTORY RESET".toList
    else if trigger = "upgrade".toList then "FIRMWARE UPGRADE".toList
    else trigger
  else if reason.length ≠ 0 then
    if reason = "POR_RESET".toList then "POWER ON RESET".toList else reason
  else "Unknown".toList

def calculateBootTime (clk : Clock) : Str :=
  strftimeIso 21 (gmtime (clk.bootNow.toInt - clk.uptime))

def entryLimit (maxEntries : ℤ) : ℤ := if maxEntries > 0 then maxEntries else REBOOT_MAX_ENTRIES

/-- Second pass of `delete_excess_reboot_sections`; `none` when a deletion fails. -/
def deletePass (env : Env) (sectionsToRemove : ℤ) : ℤ → List Section → Option (List Section)
  | _, [] => some []
  | removedCount, s :: rest =>
    if removedCount ≤ sectionsToRemove then
      if env.delete s.name then deletePass env sectionsToRemove (removedCount + 1) rest
      else none
    else (deletePass env sectionsToRemove removedCount rest).map (s :: ·)

/-- An early return or a failed commit leaves the stored sections as they were. -/
def deleteExcessRebootSections (env : Env) (l : List Section) (maxRebootEntries : ℤ) :
    List Section :=
  let sectionsToRemove := (l.length : ℤ) - entryLimit maxRebootEntries
  if sectionsToRemove < 0 then l
  else match deletePass env sectionsToRemove 0 l with
    | some kept => if env.commit then kept else l
    | none => l

def sectionName (clk : Clock) : Str := snprintf 32 ("reboot_".toList ++ printInt clk.now.toInt)

def createRebootSection (c : Config) (clk : Clock) (trigger reason : Str) : Config :=
  let secName := sectionName clk
  let firmwareUpdated := if trigger = "upgrade".toList then "1".toList else "0".toList
  let l := addSection c.reboot secName
  let l := setOption l secName "time_stamp" (calculateBootTime clk)
  let l := setOption l secName "firmware_updated" firmwareUpdated
  let r : List Section × Named :=
    if trigger = "defaultreset".toList then
      (setOption l secName "cause" "FactoryReset".toList, c.named)
    else
      (setOption l secName "cause"
          (c.named.get "reboots" "last_reboot_cause" "LocalReboot".toList 32),
        c.named.set "reboots" "last_reboot_cause" [])
  ⟨r.2, setOption r.1 secName "reason" (bootReasonMessage trigger reason)⟩

def maxRebootEntries (c : Config) : ℤ :=
  toInt (strtol (c.named.get "reboots" "max_reboot_entries" "3".toList 16))

/-- `reboots.c:196-202`. -/
def countTrigger (c : Config) (trigger : Str) : Config :=
  if trigger = "defaultreset".toList then
    resetOptionCounter (resetOptionCounter c "boot_count" "1".toList)
      "curr_version_boot_count" "0".toList
  else incrementOptionCounter (incrementOptionCounter c "boot_count") "curr_version_boot_count"

/-- `reboots.c:204-206`. -/
def countWatchdog (c : Config) (reason : Str) : Config :=
  if strstr reason "watchdog".toList then incrementOptionCounter c "watchdog_boot_count" else c

/-- `reboots.c:208-212`. -/
def countReason (c : Config) (reason : Str) : Config :=
  if reason = "POR_RESET".toList then incrementOptionCounter c "cold_boot_count"
  else incrementOptionCounter c "warm_boot_count"

def countBoot (c : Config) (trigger reason : Str) : Config :=
  countReason (countWatchdog (countTrigger c trigger) reason) reason

def recordBoot (env : Env) (c : Config) (clk : Clock) (trigger reason : Str) : Config :=
  if maxRebootEntries c ≠ 0 then
    createRebootSection
      { c with reboot := deleteExcessRebootSections env c.reboot (maxRebootEntries c) }
      clk trigger reason
  else c

/-- What registering a boot does to the configuration (`reboots.c:195-220`). -/
def registerBoot (env : Env) (c : Config) (clk : Clock) (trigger reason : Str) : Config :=
  recordBoot env (countBoot c trigger reason) clk trigger reason

/-! ### The daemon -/

/-- What registration depends on: the configuration, the lock file, the
reset-reason file, the process's retry counter and whether its timer is armed. -/
structure World where
  config : Config
  lock : Bool
  resetReason : Option Str
  retryCount : ℕ
  timer : Bool

/-- What one call of `sysmngr_reboots_init` is seen to do. -/
inductive Action where
  | invalidFile
  | armTimer (ms : ℤ)
  | registered (trigger reason : Str)
  deriving DecidableEq, Repr

def sysmngrRegisterBootAction (env : Env) (clk : Clock) (w : World) : World × List Action :=
  if w.lock then (w, [])
  else
    let trigger := getBootOptionValue env.lib w.resetReason "triggered".toList 32
    let reason := getBootOptionValue env.lib w.resetReason "reason".toList 32
    ({ w with config := registerBoot env w.config clk trigger reason, lock := env.create },
      [.registered trigger reason])

def sysmngrRebootsInit (env : Env) (clk : Clock) (w : World) : World × List Action :=
  if w.lock then (w, [])
  else if checkValidResetReasonFile env.lib w.resetReason then sysmngrRegisterBootAction env clk w
  else if w.retryCount < REBOOT_MAX_RETRIES then
    ({ w with retryCount := w.retryCount + 1, timer := true },
      [.invalidFile, .armTimer (REBOOT_RETRY_DELAY * 1000)])
  else
    let r := sysmngrRegisterBootAction env clk w
    (r.1, .invalidFile :: r.2)

/-! ### The data model's writes -/

/-- VALUECHECK of MaxRebootEntries: a C `int` of at least -1. -/
def checkDeviceInfoRebootsMaxRebootEntries (value : ℤ) : Bool :=
  decide (-1 ≤ value ∧ value < 2 ^ 31)

/-- The loop of the setter that deletes the sections before index `toDelete`. -/
def deleteEarliest (toDelete : ℤ) : ℤ → List Section → List Section
  | _, [] => []
  | idx, s :: rest =>
    if idx < toDelete then deleteEarliest toDelete (idx + 1) rest
    else s :: deleteEarliest toDelete (idx + 1) rest

/-- VALUESET of MaxRebootEntries, the value being an `int` in decimal. -/
def setDeviceInfoRebootsMaxRebootEntries (c : Config) (value : ℤ) : Config :=
  let maxEntries := toInt (strtol (printInt value))
  let kept :=
    if maxEntries = 0 then []
    else
      let toDelete := (c.reboot.length : ℤ) - entryLimit maxEntries
      if toDelete > 0 then deleteEarliest toDelete 0 c.reboot else c.reboot
  ⟨c.named.set "reboots" "max_reboot_entries" (printInt value), kept⟩

def operateDeviceInfoRebootsRemoveAllReboots (c : Config) : Config := { c with reboot := [] }

def operateDeviceInfoRebootsRebootRemove (c : Config) (name : Str) : Config :=
  { c with reboot := deleteSection c.reboot name }

end Sysmngr.Reboots
