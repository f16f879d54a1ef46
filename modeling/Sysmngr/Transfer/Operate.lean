import Mathlib.Data.List.DropRight
import Sysmngr.FwImages.Model
import Sysmngr.Transfer.Reported

/-!
# The commands that transfer a file (`fw_images.c`, `configs.c`)

`Download()`, `Backup()` and `Restore()` begin alike: the path of the object the command
is called on is the reference up to its last dot, and without a dot or a URL the command
is refused. What follows is the transfer with the arguments of the call.
-/

namespace Sysmngr.Transfer
open Text Blobmsg
open FwImages (Args State Fault keepConfig getFwbankOptionValue)

/-! ### The commands -/

/-- The object's path as it is put into a buffer of 256 bytes, the dot included; one that
does not fit is left out. -/
def objPathOf (refparam : Str) : Option Str :=
  if '.' ∈ refparam then
    let size := (refparam.rdropWhile (· != '.')).length + 1
    some (if size < 256 then snprintf size refparam else [])
  else none

/-- What a command returns, the message it leaves for the fault, and what it has done. -/
structure Operated where
  fault : Option Fault
  faultMessage : Option Str
  effects : List Effect
  deriving DecidableEq

def Operated.messages (r : Operated) : List Message := r.effects.filterMap Effect.message

/-- The frame the commands share, around the transfer for a path and a URL. -/
def operate (refparam : Str) (value : Args) (faultMessage : ℤ → Option Str)
    (transfer : Str → Str → Finished) : Operated :=
  match objPathOf refparam with
  | none => ⟨some .USP_FAULT_INVALID_ARGUMENT, none, []⟩
  | some objPath =>
    let url := value "URL".toList
    if url = [] then ⟨some .USP_FAULT_INVALID_ARGUMENT, none, []⟩
    else
      let finished := transfer objPath url
      ⟨if finished.res ≠ 0 then some .USP_FAULT_COMMAND_FAILURE else none,
        faultMessage finished.res, finished.effects⟩

def downloadRequest (s : State) (data : Attr) (value : Args) (objPath url : Str) :
    DownloadRequest where
  url := url
  username := value "Username".toList
  password := value "Password".toList
  command := "Download()".toList
  objPath := objPath
  fileSize := value "FileSize".toList
  checksumAlgorithm := value "CheckSumAlgorithm".toList
  checksum := value "CheckSum".toList
  autoActivate :=
    let autoActivate := value "AutoActivate".toList
    if autoActivate = [] then "0".toList else autoActivate
  bankId := getFwbankOptionValue data "id"
  commandKey := some (value "CommandKey".toList)
  keep := keepConfig s

def operateDeviceInfoFirmwareImageDownload (lib : Lib) (s : State) (data : Attr)
    (refparam : Str) (value : Args) (o : DownloadOutcomes) : Operated :=
  operate refparam value
    (fun res => if res = 1 then some "Firmware validation failed".toList else none)
    fun objPath url => bbfFwImageDownload lib (downloadRequest s data value objPath url) o

def backupRequest (name : Str) (value : Args) (objPath url : Str) : BackupRequest where
  url := url
  username := value "Username".toList
  password := value "Password".toList
  command := "Backup()".toList
  objPath := objPath
  configName := name

/-- `name` is the option of the file's section. -/
def operateDeviceInfoVendorConfigFileBackup (lib : Lib) (name refparam : Str) (value : Args)
    (o : BackupOutcomes) : Operated :=
  operate refparam value (fun _ => none)
    fun objPath url => bbfConfigBackup lib (backupRequest name value objPath url) o

def restoreRequest (value : Args) (objPath url : Str) : FileRequest where
  url := url
  username := value "Username".toList
  password := value "Password".toList
  command := "Restore()".toList
  objPath := objPath
  fileSize := value "FileSize".toList
  checksumAlgorithm := value "CheckSumAlgorithm".toList
  checksum := value "CheckSum".toList

def operateDeviceInfoVendorConfigFileRestore (lib : Lib) (refparam : Str) (value : Args)
    (o : RestoreOutcomes) : Operated :=
  operate refparam value (fun _ => none)
    fun objPath url => bbfConfigRestore lib (restoreRequest value objPath url) o

/-! ### Calls -/

/-- A call of one of the commands, with what its transfer meets. -/
inductive Command where
  | download (s : State) (data : Attr) (o : DownloadOutcomes)
  | backup (name : Str) (o : BackupOutcomes)
  | restore (o : RestoreOutcomes)

def Command.name : Command → Str
  | .download _ _ _ => "Download()".toList
  | .backup _ _ => "Backup()".toList
  | .restore _ => "Restore()".toList

/-- The transfer a command comes to. -/
def Command.operation (value : Args) (objPath url : Str) : Command → Operation
  | .download s data o => .download (downloadRequest s data value objPath url) o
  | .backup name o => .backup (backupRequest name value objPath url) o
  | .restore o => .restore (restoreRequest value objPath url) o

def Command.call (lib : Lib) (refparam : Str) (value : Args) : Command → Operated
  | .download s data o => operateDeviceInfoFirmwareImageDownload lib s data refparam value o
  | .backup name o => operateDeviceInfoVendorConfigFileBackup lib name refparam value o
  | .restore o => operateDeviceInfoVendorConfigFileRestore lib refparam value o

/-! ### The path of the object -/

/-- The reference names a parameter of the object `path`, which ends in a dot. -/
structure Splits (refparam path : Str) : Prop where
  eq : ∃ name, refparam = path ++ name ∧ '.' ∉ name
  dotted : path.getLast? = some '.'

theorem splits_rdropWhile (refparam : Str) (h : '.' ∈ refparam) :
    Splits refparam (refparam.rdropWhile (· != '.')) := by
  have hsplit := List.rdropWhile_append_rtakeWhile (p := fun c => c != '.') (l := refparam)
  have hname : '.' ∉ refparam.rtakeWhile (· != '.') := fun hmem => by
    simpa using List.mem_rtakeWhile_imp hmem
  have hne : refparam.rdropWhile (· != '.') ≠ [] := by
    intro hnil
    rw [hnil, List.nil_append] at hsplit
    rw [hsplit] at hname
    exact hname h
  refine ⟨⟨_, hsplit.symm, hname⟩, ?_⟩
  have hlast := List.rdropWhile_last_not (p := fun c => c != '.') refparam hne
  rw [List.getLast?_eq_some_getLast hne]
  simpa using hlast

theorem objPathOf_eq (refparam path : Str) (h : Splits refparam path) :
    objPathOf refparam = some (if path.length ≤ 254 then path else []) := by
  obtain ⟨⟨name, rfl, hname⟩, hdot⟩ := h
  obtain ⟨body, rfl⟩ := List.getLast?_eq_some_iff.mp hdot
  have hcut : ((body ++ ['.']) ++ name).rdropWhile (· != '.') = body ++ ['.'] := by
    rw [List.rdropWhile, List.reverse_append, List.dropWhile_append_of_pos]
    · simp
    · intro c hc
      have hne : c ≠ '.' := fun heq => hname (heq ▸ List.mem_reverse.mp hc)
      simpa using hne
  have hmem : '.' ∈ (body ++ ['.']) ++ name :=
    List.mem_append_left _ (List.mem_append_right _ (List.mem_singleton_self _))
  rw [objPathOf, if_pos hmem, hcut]
  have hsize : (body ++ ['.']).length + 1 < 256 ↔ (body ++ ['.']).length ≤ 254 := by omega
  simp only [hsize]
  congr 1
  split
  · rw [snprintf, Nat.add_sub_cancel, List.take_left']
    rfl
  · rfl

/-! ### What a call does -/

/-- The event of a command: which it is, its object and URL, and a fault code that goes
with the fault text. -/
structure Announces (command objPath url : Str) (m : Message) : Prop where
  command : m.value "Command" = some command
  affected : m.value "Affected" = some objPath
  transferUrl : m.value "TransferURL" = some url
  fault : m.value "FaultCode" = some "0".toList ↔ m.value "FaultString" = some []

theorem sent_announces (r : Request) (body : Body) (startTime : ℤ) (commandKey : Option Str)
    (transferType : Str) :
    ∃ m, (sendTransferCompleteEvent r.command r.objPath r.url body.last.faultMsg startTime
        body.last.completeTime commandKey transferType).message = some m ∧
      Announces r.command r.objPath r.url m ∧
      (m.value "FaultCode" = some "0".toList ↔ body.last.faultMsg = []) := by
  have hcode : ∀ text : Str, some (if text = [] then "0".toList else "7000".toList) =
      some "0".toList ↔ text = [] := by
    intro text
    by_cases h : text = []
    · rw [if_pos h]
      exact iff_of_true rfl h
    · rw [if_neg h]
      exact iff_of_false (by decide) h
  refine ⟨_, rfl, ⟨rfl, rfl, rfl, ?_⟩, hcode _⟩
  exact (hcode _).trans (Option.some_inj).symm

theorem finish_announces (r : Request) (o : Outcomes) (commandKey : Option Str)
    (transferType : Str) (attempted strict : Bool) {checked passed : Prop} {body : Body}
    (h : Delivers checked passed body) :
    ∃ m, (finish r o commandKey transferType attempted strict body).messages = [m] ∧
      Announces r.command r.objPath r.url m ∧
      ((finish r o commandKey transferType attempted strict body).res = 0 ↔
        m.value "FaultCode" = some "0".toList ∧
          ¬(attempted = true ∧ strict = true ∧ o.remove ≠ 0)) := by
  obtain ⟨m, hevent, hsays, hcode⟩ := sent_announces r body o.startTime commandKey transferType
  have hbefore : body.effects.filterMap Effect.message = [] :=
    List.filterMap_eq_nil_iff.mpr fun e he => (h.effects e he).1
  have hpassed : body.last.res = 0 ↔ body.last.faultMsg = [] := by
    rcases h.last_spec with ⟨-, hres, hmsg⟩ | ⟨-, hres, hmsg⟩
    · exact iff_of_false hres hmsg
    · exact iff_of_true hres hmsg
  refine ⟨m, ?_, hsays, ?_⟩
  · rw [Finished.messages, finish, List.filterMap_append, hbefore, List.nil_append,
      List.filterMap_cons_some hevent]
    cases attempted <;> rfl
  · rw [finish_res_eq_zero_iff, hcode, hpassed]

/-- The command fails with the removal of its temporary file: one that transfers strictly
and finds the file there. -/
def Operation.RemovalCounts (lib : Lib) : Operation → Prop
  | .download _ _ => False
  | .backup _ o => o.fileExists = true ∧ o.remove ≠ 0
  | .restore r o => (o.fileExists = true ∧ lib.fileUri.isPrefixOf r.url = false) ∧ o.remove ≠ 0

theorem operation_announces (lib : Lib) (c : Command) (value : Args) (objPath url : Str) :
    ∃ m, ((c.operation value objPath url).run lib).messages = [m] ∧
      Announces c.name objPath url m ∧
      (((c.operation value objPath url).run lib).res = 0 ↔
        m.value "FaultCode" = some "0".toList ∧
          ¬(c.operation value objPath url).RemovalCounts lib) := by
  cases c with
  | download s data o =>
    obtain ⟨m, honly, hsays, hres⟩ := finish_announces
      (downloadRequest s data value objPath url).toRequest o.toOutcomes
      (downloadRequest s data value objPath url).commandKey "Download".toList
      (o.fileExists && !lib.fileUri.isPrefixOf url) false
      (download_delivers lib (downloadRequest s data value objPath url) o)
    refine ⟨m, honly, hsays, hres.trans (and_congr_right fun _ => not_congr ?_)⟩
    exact iff_of_false (fun h => nomatch h.2.1) id
  | backup name o =>
    obtain ⟨m, honly, hsays, hres⟩ := finish_announces
      (backupRequest name value objPath url).toRequest o.toOutcomes none "Upload".toList
      o.fileExists true (backup_delivers lib (backupRequest name value objPath url) o)
    simp only [true_and] at hres
    exact ⟨m, honly, hsays, hres⟩
  | restore o =>
    obtain ⟨m, honly, hsays, hres⟩ := finish_announces
      (restoreRequest value objPath url).toRequest o.toOutcomes none "Download".toList
      (o.fileExists && !lib.fileUri.isPrefixOf url) true
      (restore_delivers lib (restoreRequest value objPath url) o)
    simp only [true_and, Bool.and_eq_true, Bool.not_eq_true'] at hres
    exact ⟨m, honly, hsays, hres⟩

def refused : Operated := ⟨some .USP_FAULT_INVALID_ARGUMENT, none, []⟩

/-- What comes of a call: refused without a dot in the reference or without a URL, and then
nothing is done; else one event, whose object is the one the reference names, a fault if
the event tells of one or the removal fails, and no use of a file that is not checked. -/
structure Answered (lib : Lib) (c : Command) (refparam : Str) (value : Args) : Prop where
  refused : '.' ∉ refparam ∨ value "URL".toList = [] → c.call lib refparam value = refused
  named : '.' ∈ refparam → ∃ path, Splits refparam path
  accepted : ∀ path, Splits refparam path → value "URL".toList ≠ [] →
    let objPath := if path.length ≤ 254 then path else []
    let op := c.operation value objPath (value "URL".toList)
    ∃ m, (c.call lib refparam value).messages = [m] ∧
      Announces c.name objPath (value "URL".toList) m ∧
      ((c.call lib refparam value).fault = none ↔
        m.value "FaultCode" = some "0".toList ∧ ¬op.RemovalCounts lib) ∧
      (∀ fault, (c.call lib refparam value).fault = some fault →
        fault = .USP_FAULT_COMMAND_FAILURE) ∧
      ∀ e ∈ (c.call lib refparam value).effects, e.applies = true → op.Checked lib

def Command.faultMessage : Command → ℤ → Option Str
  | .download _ _ _ => fun res =>
    if res = 1 then some "Firmware validation failed".toList else none
  | .backup _ _ => fun _ => none
  | .restore _ => fun _ => none

/-- Each command is the shared frame around its own transfer. -/
theorem call_eq (lib : Lib) (c : Command) (refparam : Str) (value : Args) :
    c.call lib refparam value = operate refparam value c.faultMessage
      fun objPath url => (c.operation value objPath url).run lib := by
  cases c with
  | download s data o => rfl
  | backup name o => rfl
  | restore o => rfl

theorem call_answered (lib : Lib) (c : Command) (refparam : Str) (value : Args) :
    Answered lib c refparam value := by
  have hcall := call_eq lib c refparam value
  constructor
  · intro h
    rw [hcall, operate]
    rcases h with hdot | hurl
    · rw [objPathOf, if_neg hdot]
      rfl
    · cases objPathOf refparam with
      | none => rfl
      | some objPath => exact if_pos hurl
  · exact fun hdot => ⟨_, splits_rdropWhile refparam hdot⟩
  · intro path hpath hurl
    rw [hcall, operate, objPathOf_eq refparam path hpath]
    dsimp only
    rw [if_neg hurl]
    generalize (if path.length ≤ 254 then path else []) = objPath
    obtain ⟨m, honly, hsays, hres⟩ := operation_announces lib c value objPath
      (value "URL".toList)
    refine ⟨m, honly, hsays, ?_, ?_, applied_checked lib _⟩
    · rw [← hres]
      split
      · rename_i hne
        exact iff_of_false (by simp) hne
      · rename_i hzero
        exact iff_of_true rfl (not_not.mp hzero)
    · intro fault hfault
      split at hfault
      · exact (Option.some.inj hfault).symm
      · exact absurd hfault (by simp)

/-! ### A download called and refused -/

def firstImage : Str := "Device.DeviceInfo.FirmwareImage.1.".toList

def downloadUrl (url : String) : Args := fun name => if name = "URL".toList then url.toList else []

def imageGone : DownloadOutcomes where
  startTime := 0
  completeTime := 1
  resCode := 404
  fileExists := true
  remove := 0
  fsAvailableSize := 1000
  contents := none
  mkstemp := some "/tmp/firmware-a1b2c3".toList
  valid := none
  upgrade := none
  events := []

theorem download_answered_missing :
    ∃ m, (operateDeviceInfoFirmwareImageDownload .plain .fresh FwImages.bankTwo
        (firstImage ++ "Download()".toList) (downloadUrl "http://server/image") imageGone).messages =
        [m] ∧ m.value "Affected" = some firstImage := by
  have hsplits : Splits (firstImage ++ "Download()".toList) firstImage :=
    ⟨⟨_, rfl, by decide⟩, rfl⟩
  obtain ⟨m, honly, hsays, -⟩ := (call_answered .plain (.download .fresh FwImages.bankTwo imageGone)
    (firstImage ++ "Download()".toList) (downloadUrl "http://server/image")).accepted
    firstImage hsplits (by decide)
  exact ⟨m, honly, hsays.affected⟩

end Sysmngr.Transfer
