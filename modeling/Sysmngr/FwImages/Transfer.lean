import Sysmngr.FwImages.Download
import Sysmngr.Transfer.Model

/-!
# The download of an image (`fw_images.c`)

The whole transfer, with the calls it makes; its result, message and reboot are those of
`FwImages.bbfFwImageDownload`, which is given what the checks find.
-/

namespace Sysmngr.Transfer
open Text Routine
open Fwbank (Field)
open FwImages (DownloadEnv dmubusWaitForEvent)

structure DownloadRequest extends FileRequest where
  autoActivate : Str
  bankId : Str
  commandKey : Option Str
  keep : Str

/-- The path `mkstemp` makes, what the validation and the upgrade answer, and the
`sysupgrade` events of the 120 seconds after it. -/
structure DownloadOutcomes extends FileOutcomes where
  mkstemp : Option Str
  valid : Option Str
  upgrade : Option Str
  events : List (List Field)

/-- `result` is what the answer names as the result. -/
def fwbankUpgrade (result : Option Str) : Bool := decide (result = some "ok".toList)

def firmwareTemplate : Str := "/tmp/firmware-XXXXXX".toList

def fwImageDownloadBody (lib : Lib) (r : DownloadRequest) (o : DownloadOutcomes) : Body := do
  require (validateFileSystemSize o.fsAvailableSize r.fileSize)
    (.failed firmwareTemplate 0 (-1)
      "Available memory space is lower than required for downloading".toList)
  let fwImagePath ← fetch o.mkstemp
    (.failed firmwareTemplate 0 (-1) "Operation failed due to some internal failure".toList)
  emit [.downloadFile fwImagePath r.url r.username r.password]
  require (validateServerResponseCode lib r.url (toInt o.resCode))
    (.failed fwImagePath o.completeTime (-1)
      ("Download operation is failed, fault code (".toList ++ printInt o.resCode ++ ")".toList))
  require (validateChecksumValue lib o.contents r.checksumAlgorithm r.checksum)
    (.failed fwImagePath o.completeTime (-1)
      "Checksum of the file is not matched with the specified value".toList)
  let valid ← fetch o.valid
    (.failed fwImagePath o.completeTime (-1) "Failed in validation of the file".toList)
  require (lib.stringToBool valid)
    (.failed fwImagePath o.completeTime (-1) "File is not a valid firmware image".toList)
  let activate := lib.stringToBool r.autoActivate
  emit [.upgrade fwImagePath (if activate then "1".toList else "0".toList) r.bankId
    (if r.keep ≠ [] then r.keep else "1".toList)]
  require (fwbankUpgrade o.upgrade)
    (.failed fwImagePath o.completeTime 1
      "Internal error occurred when applying the firmware".toList)
  require (dmubusWaitForEvent r.bankId false o.events)
    (.failed fwImagePath o.completeTime 1 "Failed to apply the downloaded image file".toList)
  emit (if activate then [.reboot] else [])
  pure ⟨fwImagePath, o.completeTime, 0, []⟩

def bbfFwImageDownload (lib : Lib) (r : DownloadRequest) (o : DownloadOutcomes) : Finished :=
  finish r.toRequest o.toOutcomes r.commandKey "Download".toList
    (o.fileExists && !lib.fileUri.isPrefixOf r.url) false (fwImageDownloadBody lib r o)

/-- The image is called valid. -/
def ImageValid (lib : Lib) (o : DownloadOutcomes) : Prop :=
  o.valid.map lib.stringToBool = some true

def ImageChecked (lib : Lib) (r : DownloadRequest) (o : DownloadOutcomes) : Prop :=
  FileChecked lib r.toFileRequest o.toFileOutcomes ∧ ImageValid lib o

def DownloadPassed (lib : Lib) (r : DownloadRequest) (o : DownloadOutcomes) : Prop :=
  ImageChecked lib r o ∧ o.mkstemp ≠ none ∧ fwbankUpgrade o.upgrade = true ∧
    dmubusWaitForEvent r.bankId false o.events = true

theorem valid_of_passed {lib : Lib} {o : DownloadOutcomes} {valid : Str}
    (h : ImageValid lib o) (hvalid : o.valid = some valid) : lib.stringToBool valid = true := by
  rw [ImageValid, hvalid] at h
  exact Option.some.inj h

theorem download_delivers (lib : Lib) (r : DownloadRequest) (o : DownloadOutcomes) :
    Delivers (ImageChecked lib r o) (DownloadPassed lib r o) (fwImageDownloadBody lib r o) := by
  refine meets_bind (meets_check (fun hpassed => ?_) ?_ ?_) fun _ hspace => ?_
  · exact hpassed.1.1.1
  · decide
  · exact toList_ne_nil _ (by decide)
  refine meets_bind (meets_answer (fun hpassed => ?_) ?_ ?_) fun path hpath => ?_
  · exact hpassed.2.1
  · decide
  · exact toList_ne_nil _ (by decide)
  refine meets_bind (meets_emit ?_) fun _ _ => ?_
  · simp [Effect.message, Effect.applies]
  refine meets_bind (meets_check (fun hpassed => ?_) ?_ ?_) fun _ hresponse => ?_
  · exact hpassed.1.1.2.1
  · decide
  · exact faultCode_message_ne_nil _ _
  refine meets_bind (meets_check (fun hpassed => ?_) ?_ ?_) fun _ hchecksum => ?_
  · exact hpassed.1.1.2.2
  · decide
  · exact toList_ne_nil _ (by decide)
  refine meets_bind (meets_answer (fun hpassed hnone => ?_) ?_ ?_) fun valid hanswer => ?_
  · have hvalid : ImageValid lib o := hpassed.1.2
    rw [ImageValid, hnone] at hvalid
    exact nomatch hvalid
  · decide
  · exact toList_ne_nil _ (by decide)
  refine meets_bind (meets_check (fun hpassed => ?_) ?_ ?_) fun _ hvalid => ?_
  · exact valid_of_passed hpassed.1.2 hanswer
  · decide
  · exact toList_ne_nil _ (by decide)
  have hchecked : ImageChecked lib r o := by
    refine ⟨⟨hspace, hresponse, hchecksum⟩, ?_⟩
    rw [ImageValid, hanswer, Option.map_some, hvalid]
  refine meets_bind (meets_emit ?_) fun _ _ => ?_
  · simp [Effect.message, hchecked]
  refine meets_bind (meets_check (fun hpassed => ?_) ?_ ?_) fun _ hupgrade => ?_
  · exact hpassed.2.2.1
  · decide
  · exact toList_ne_nil _ (by decide)
  refine meets_bind (meets_check (fun hpassed => ?_) ?_ ?_) fun _ hwait => ?_
  · exact hpassed.2.2.2
  · decide
  · exact toList_ne_nil _ (by decide)
  refine meets_bind (meets_emit ?_) fun _ _ => ?_
  · split <;> simp [Effect.message, hchecked]
  have hpath : o.mkstemp ≠ none := Option.ne_none_iff_exists'.mpr ⟨path, hpath⟩
  exact meets_pure ⟨⟨hchecked, hpath, hupgrade, hwait⟩, rfl, rfl⟩

/-! ### The download as given by its checks -/

def DownloadOutcomes.env (lib : Lib) (r : DownloadRequest) (o : DownloadOutcomes) :
    DownloadEnv where
  fileSystemSize := validateFileSystemSize o.fsAvailableSize r.fileSize
  tempFile := o.mkstemp.isSome
  resCode := o.resCode
  responseOk := validateServerResponseCode lib r.url (toInt o.resCode)
  checksumOk := validateChecksumValue lib o.contents r.checksumAlgorithm r.checksum
  valid := o.valid.map lib.stringToBool
  upgradeOk := fwbankUpgrade o.upgrade
  events := o.events

structure Refines (body : Body) (d : FwImages.Download) : Prop where
  res : body.last.res = d.res
  faultMsg : body.last.faultMsg = d.faultMsg
  reboot : .reboot ∈ body.effects ↔ d.reboot = true

section

variable {d : FwImages.Download} {path faultMsg : Str} {completeTime res : ℤ}

theorem refines_failed :
    Refines ⟨[], .error (.failed path completeTime res faultMsg)⟩ (.failed res faultMsg) where
  res := rfl
  faultMsg := rfl
  reboot := iff_of_false List.not_mem_nil Bool.false_ne_true

theorem refines_check {ok : Bool} {rest : Unit → Body} (h : Refines (rest ()) d) :
    Refines (require ok (.failed path completeTime res faultMsg) >>= rest)
      (if !ok then .failed res faultMsg else d) := by
  cases ok with
  | false => exact refines_failed
  | true => exact h

theorem refines_temp {o : Option Str} {rest : Str → Body} (h : ∀ a, Refines (rest a) d) :
    Refines (fetch o (.failed path completeTime res faultMsg) >>= rest)
      (if !o.isSome then .failed res faultMsg else d) := by
  cases o with
  | none => exact refines_failed
  | some a => exact h a

theorem refines_answer {o : Option Str} {read : Str → Bool} {rest : Str → Body}
    {after : Bool → FwImages.Download} (h : ∀ a, Refines (rest a) (after (read a))) :
    Refines (fetch o (.failed path completeTime res faultMsg) >>= rest)
      (match o.map read with
        | none => .failed res faultMsg
        | some valid => after valid) := by
  cases o with
  | none => exact refines_failed
  | some a => exact h a

/-- The last check and the reboot it leads to. -/
theorem refines_wait {ok activate : Bool} {l : Locals} (hl : l.res = 0 ∧ l.faultMsg = []) :
    Refines
      (require ok (.failed path completeTime res faultMsg) >>= fun _ =>
        emit (if activate then [.reboot] else []) >>= fun _ => pure l)
      (if ok then ⟨0, [], activate⟩ else .failed res faultMsg) := by
  cases ok with
  | false => exact refines_failed
  | true =>
    refine ⟨hl.1, hl.2, ?_⟩
    cases activate with
    | false => exact iff_of_false List.not_mem_nil Bool.false_ne_true
    | true => exact iff_of_true (List.mem_singleton_self _) rfl

theorem refines_emit {es : List Effect} {rest : Unit → Body} (hes : .reboot ∉ es)
    (h : Refines (rest ()) d) : Refines (emit es >>= rest) d where
  res := h.res
  faultMsg := h.faultMsg
  reboot := by
    rw [← h.reboot]
    exact ⟨fun hmem => (List.mem_append.mp hmem).resolve_left hes, List.mem_append_right _⟩

end

/-- The download does what `FwImages.bbfFwImageDownload` says of its checks. -/
theorem download_refines (lib : Lib) (r : DownloadRequest) (o : DownloadOutcomes) :
    Refines (fwImageDownloadBody lib r o)
      (FwImages.bbfFwImageDownload (o.env lib r) (lib.stringToBool r.autoActivate) r.bankId) := by
  refine refines_check ?_
  refine refines_temp fun path => ?_
  refine refines_emit (by simp) ?_
  refine refines_check ?_
  refine refines_check ?_
  refine refines_answer fun valid => ?_
  refine refines_check ?_
  refine refines_emit (by simp) ?_
  refine refines_check ?_
  exact refines_wait ⟨rfl, rfl⟩

end Sysmngr.Transfer
