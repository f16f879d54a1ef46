import Sysmngr.Calendar
import Sysmngr.Fwbank.Dump
import Sysmngr.Uci

/-!
# Firmware images in the data model (`fw_images.c`)

Browsing hands every operation the entry of one bank. Availability is kept in
sections of the package `dmmap_fw_image`; making a bank the boot bank is requested
by forking `set_bootbank` or scheduled by lines appended to root's crontab.
-/

namespace Sysmngr.FwImages
open Text Uci Blobmsg Calendar Fwbank

def MAX_TIME_WINDOW : ℕ := 5

def ACTIVATE_HANDLER_FILE : Str := "/usr/share/bbfdm/scripts/bbf_activate_handler.sh".toList

inductive Fault where
  | FAULT_9001
  | FAULT_9007
  | USP_FAULT_INVALID_ARGUMENT
  | USP_FAULT_COMMAND_FAILURE
  deriving DecidableEq, Repr

structure ImageSection where
  id : Str
  available : Str
  deriving DecidableEq, Repr

structure State where
  config : Named
  dmmap : List ImageSection

/-- What the code calls in `libbbfdm` and the C library: the validators (true when a
value is accepted; the integer one with the range -1 to 10), the resolution of a
reference to its linker, the lookup of a section by what its id contains, and the
local time zone. -/
structure Bbfdm where
  validateBoolean : Str → Bool
  validateUnsignedInt : Str → Bool
  validateInt : Str → Bool
  validateString : List Str → Str → Bool
  validateAllowedObjects : Str → Bool
  stringToBool : Str → Bool
  getReferenceLinker : Str → Str
  getSectionCont : List ImageSection → Str → Option ImageSection
  localtime : ℤ → Tm

/-- The library on plain values: decimal numbers, the time zone UTC, references that
are their own linker. -/
def Bbfdm.plain : Bbfdm where
  validateBoolean v := decide (v ∈ ["0".toList, "1".toList, "false".toList, "true".toList])
  validateUnsignedInt v := v.all Char.isDigit && decide (strtol v < 2 ^ 32)
  validateInt v := decide (-1 ≤ strtol v ∧ strtol v ≤ 10)
  validateString allowed v := decide (v ∈ allowed)
  validateAllowedObjects _ := true
  stringToBool v := decide (v ∈ ["1".toList, "true".toList])
  getReferenceLinker v := v
  getSectionCont sections id := sections.find? fun i => strstr i.id id
  localtime := gmtime

/-- What an operation meets: whether the fork, the opening of the crontab and the
restart of cron succeed, and the time at each window. -/
structure Env where
  forkOk : Bool
  crontabOpens : Bool
  cronRestarts : Bool
  now : ℕ → ℤ

def Env.fine : Env := ⟨true, true, true, fun _ => 0⟩

def State.fresh : State := ⟨fun _ _ => none, []⟩

/-! ### Bank entries -/

def attrText : Attr → Str
  | .string _ s => s
  | .int32 _ n => printInt (toInt n.toNat)
  | .bool _ b => if b then "true".toList else "false".toList
  | _ => []

def getFwbankOptionValue (entry : Attr) (optionName : String) : Str :=
  match sysmngrBankPolicy.find? fun p => p.name == optionName with
  | some p => ((entry.children.find? p.accepts).map attrText).getD []
  | none => []

/-- The field parsed for the id of an entry is a number, if it has one. -/
theorem idField_cases (entry : Attr) :
    entry.children.find? (Policy.accepts ⟨"id", .int32⟩) = none ∨
      ∃ name n, entry.children.find? (Policy.accepts ⟨"id", .int32⟩) = some (.int32 name n) := by
  cases hfind : entry.children.find? (Policy.accepts ⟨"id", .int32⟩) with
  | none => exact Or.inl rfl
  | some a =>
    have htype := Policy.accepts_type _ a (by decide) (List.find?_some hfind)
    cases a with
    | int32 name n => exact Or.inr ⟨name, n, rfl⟩
    | _ => exact BlobmsgType.noConfusion htype

theorem getFwbankOptionValue_idField (entry : Attr) : getFwbankOptionValue entry "id" =
    ((entry.children.find? (Policy.accepts ⟨"id", .int32⟩)).map attrText).getD [] := rfl

/-- The id of an entry is a printed number, if it has one. -/
theorem getFwbankOptionValue_id (entry : Attr) : getFwbankOptionValue entry "id" = [] ∨
    ∃ n : UInt32, getFwbankOptionValue entry "id" = printInt (toInt n.toNat) := by
  rw [getFwbankOptionValue_idField]
  rcases idField_cases entry with hfind | ⟨name, n, hfind⟩
  · rw [hfind]
    exact Or.inl rfl
  · rw [hfind, Option.map_some, Option.getD_some, attrText]
    exact Or.inr ⟨n, rfl⟩

def getFwbankBankId (g : FwbankDump) (optionName : String) : Str :=
  match (browseDeviceInfoFirmwareImageInst g).find? fun entry =>
      getFwbankOptionValue entry optionName = "true".toList with
  | some entry => getFwbankOptionValue entry "id"
  | none => []

def keepConfig (s : State) : Str := (s.config "globals" "keep_config").getD "1".toList

def bankTwo : Attr :=
  .table "" [.string "name" "b".toList, .int32 "id" 2, .bool "active" false, .bool "boot" false]

/-! ### Effects -/

structure Job where
  time : Tm
  mode : Str
  bankId : Str
  duration : ℤ
  force : Bool
  userMessage : Str
  maxRetries : Str
  keepConfig : Str
  deriving DecidableEq

def Job.args (j : Job) : List Str :=
  [j.mode, j.bankId, printInt j.duration, (if j.force then "1".toList else "0".toList),
    j.userMessage, j.maxRetries, j.keepConfig]

def Job.command (j : Job) : Str :=
  "sh ".toList ++ ACTIVATE_HANDLER_FILE ++ j.args.flatMap fun a => " '".toList ++ a ++ "'".toList

def Job.schedule (j : Job) : Str :=
  printInt j.time.min ++ " ".toList ++ printInt j.time.hour ++ " ".toList ++
    printInt j.time.mday ++ " ".toList ++ printInt (j.time.mon + 1) ++ " *".toList

/-- What `buffer[512]` holds after `snprintf`. -/
def Job.line (j : Job) : Str :=
  snprintf 512 (j.schedule ++ " ".toList ++ j.command ++ "\n".toList)

inductive Effect where
  | setBootbank (bankId : ℕ)
  | copyConfig
  | reboot
  | appendCrontab (job : Job)
  | cronRestart
  deriving DecidableEq

def bankNumber (bankId : Str) : ℕ := toUInt (strtoul bankId)

/-- True once the task is forked. -/
def fwbankSetBootbank (env : Env) (bankId : Str) : Bool × List Effect :=
  if env.forkOk then (true, [.setBootbank (bankNumber bankId)]) else (false, [])

/-! ### BootFirmwareImage -/

def setDeviceBootFwimage (api : Bbfdm) (env : Env) (s : State) (value : Str) :
    Option Fault × State × List Effect :=
  let reference := api.getReferenceLinker value
  if !api.validateAllowedObjects value then (some .FAULT_9007, s, [])
  else if reference.length = 0 then (none, s, [])
  else
    match reference.dropWhile (· != '-') with
    | [] => (some .FAULT_9001, s, [])
    | _ :: bankId =>
      let available := ((api.getSectionCont s.dmmap bankId).map ImageSection.available).getD []
      if available = "false".toList then (some .FAULT_9001, s, [])
      else
        let r := fwbankSetBootbank env bankId
        if r.1 then
          (none, { s with config := s.config.set "globals" "switch_bank" "1".toList },
            r.2 ++ if keepConfig s = "1".toList then [.copyConfig] else [])
        else (some .FAULT_9001, s, r.2)

/-! ### Available -/

def getDeviceInfoFirmwareImageAvailable (s : State) (id : Str) : Str :=
  match (s.dmmap.find? fun i => i.id = id).map ImageSection.available with
  | none => "true".toList
  | some [] => "true".toList
  | some value => value

def setAvailable (id value : Str) : List ImageSection → List ImageSection
  | [] => [⟨id, value⟩]
  | i :: rest =>
    if i.id = id then { i with available := value } :: rest else i :: setAvailable id value rest

def setDeviceInfoFirmwareImageAvailable (api : Bbfdm) (s : State) (entry : Attr) (value : Str) :
    Option Fault × State :=
  if !api.validateBoolean value then (some .FAULT_9007, s)
  else
    let b := api.stringToBool value
    if !b && (getFwbankOptionValue entry "boot" = "true".toList ||
        getFwbankOptionValue entry "active" = "true".toList) then (some .FAULT_9001, s)
    else
      let id := getFwbankOptionValue entry "id"
      (none, { s with
        dmmap := setAvailable id (if b then "true".toList else "false".toList) s.dmmap })

/-! ### Activate() -/

structure Window where
  start : Str
  end_ : Str
  mode : Str
  userMessage : Str
  maxRetries : Str
  deriving DecidableEq, Repr

/-- The input arguments by name; an absent one reads as the empty string. -/
abbrev Args := Str → Str

def windowArgs (value : Args) (i : ℕ) : Window :=
  let arg (name : Str) : Str :=
    value (snprintf 32 ("TimeWindow.".toList ++ printNat (i + 1) ++ name))
  { start := arg ".Start".toList
    end_ := arg ".End".toList
    mode := arg ".Mode".toList
    userMessage := arg ".UserMessage".toList
    maxRetries := arg ".MaxRetries".toList }

def FW_Mode : List Str :=
  ["AnyTime".toList, "Immediately".toList, "WhenIdle".toList, "ConfirmationNeeded".toList]

def checkWindow (api : Bbfdm) (prev : Option Window) (w : Window) : Bool :=
  w.end_.length != 0 && w.mode.length != 0 &&
    api.validateUnsignedInt w.start && api.validateUnsignedInt w.end_ &&
    (w.maxRetries.length = 0 || api.validateInt w.maxRetries) &&
    api.validateString FW_Mode w.mode &&
    !decide (strtol w.start > strtol w.end_) &&
    !(prev.any fun p => strtol p.end_ > strtol w.start)

/-- The first loop: windows up to the first without a start; `none` when a check of
one of them fails. -/
def parseWindows (api : Bbfdm) (value : Args) : ℕ → ℕ → Option Window → Option (List Window)
  | 0, _, _ => some []
  | n + 1, i, prev =>
    let w := windowArgs value i
    if w.start.length = 0 then some []
    else if checkWindow api prev w then
      (parseWindows api value n (i + 1) (some w)).map (w :: ·)
    else none

def windowJob (api : Bbfdm) (env : Env) (bankId keep : Str) (count i : ℕ) (w : Window) : Job :=
  let start := if strtol w.start > 60 then strtol w.start else 60
  { time := api.localtime (env.now i + start)
    mode := w.mode
    bankId := bankId
    duration := strtol w.end_ - strtol w.start
    force := i + 1 == count
    userMessage := w.userMessage
    maxRetries := w.maxRetries
    keepConfig := keep }

def windowJobs (api : Bbfdm) (env : Env) (bankId keep : Str) (ws : List Window) : List Job :=
  ws.mapIdx fun i w => windowJob api env bankId keep ws.length i w

def operateDeviceInfoFirmwareImageActivate (api : Bbfdm) (env : Env) (s : State) (entry : Attr)
    (value : Args) : Option Fault × List Effect :=
  let keep := keepConfig s
  match parseWindows api value MAX_TIME_WINDOW 0 none with
  | none => (some .USP_FAULT_INVALID_ARGUMENT, [])
  | some ws =>
    let bankId := getFwbankOptionValue entry "id"
    if bankId.length = 0 then (some .USP_FAULT_COMMAND_FAILURE, [])
    else if ws.length ≠ 0 then
      if env.crontabOpens then
        (if env.cronRestarts then none else some .USP_FAULT_COMMAND_FAILURE,
          (windowJobs api env bankId keep ws).map .appendCrontab ++ [.cronRestart])
      else (some .USP_FAULT_COMMAND_FAILURE, [])
    else
      let r := fwbankSetBootbank env bankId
      if r.1 then
        (none, r.2 ++ (if keep = "1".toList then [.copyConfig] else []) ++ [.reboot])
      else (some .USP_FAULT_COMMAND_FAILURE, r.2)

end Sysmngr.FwImages
