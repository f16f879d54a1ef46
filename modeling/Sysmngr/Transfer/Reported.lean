import Sysmngr.Configs.Transfer
import Sysmngr.FwImages.Transfer

/-!
# What a transfer reports

The three transfers send their event before they remove the temporary file. A download
does not look at what the removal returns; a backup and a restore fail with it, after they
have told of a success.
-/

namespace Sysmngr.Transfer
open Text

inductive Operation where
  | download (r : DownloadRequest) (o : DownloadOutcomes)
  | backup (r : BackupRequest) (o : BackupOutcomes)
  | restore (r : FileRequest) (o : RestoreOutcomes)

def Operation.run (lib : Lib) : Operation → Finished
  | .download r o => bbfFwImageDownload lib r o
  | .backup r o => bbfConfigBackup lib r o
  | .restore r o => bbfConfigRestore lib r o

/-- The checks the operation has: of the space, the code of the server and the checksum
where a file is downloaded, of the code alone where one is uploaded. -/
def Operation.Checked (lib : Lib) : Operation → Prop
  | .download r o => ImageChecked lib r o
  | .backup r o => validateServerResponseCode lib r.url (toInt o.resCode) = true
  | .restore r o => FileChecked lib r o.toFileOutcomes

structure Reported (lib : Lib) (op : Operation) : Prop where
  toldOnce : ToldOnce (op.run lib)
  applied : ∀ e ∈ (op.run lib).effects, e.applies = true → op.Checked lib

/-- All has passed, and then the temporary file is there and cannot be removed. -/
def Operation.RemovalFails (lib : Lib) : Operation → Prop
  | .download _ _ => False
  | .backup r o => BackupPassed lib r o ∧ o.fileExists = true ∧ o.remove ≠ 0
  | .restore r o => RestorePassed lib r o ∧
      (o.fileExists = true ∧ lib.fileUri.isPrefixOf r.url = false) ∧ o.remove ≠ 0

theorem applied_checked (lib : Lib) (op : Operation) :
    ∀ e ∈ (op.run lib).effects, e.applies = true → op.Checked lib := by
  cases op with
  | download r o => exact finish_applies _ _ _ _ _ _ (download_delivers lib r o)
  | backup r o => exact finish_applies _ _ _ _ _ _ (backup_delivers lib r o)
  | restore r o => exact finish_applies _ _ _ _ _ _ (restore_delivers lib r o)

theorem toldOnce_iff (lib : Lib) (op : Operation) :
    ToldOnce (op.run lib) ↔ ¬op.RemovalFails lib := by
  cases op with
  | download r o =>
    have htold := finish_toldOnce_iff r.toRequest o.toOutcomes r.commandKey "Download".toList
      (o.fileExists && !lib.fileUri.isPrefixOf r.url) false (download_delivers lib r o)
    exact htold.trans (not_congr (iff_of_false (fun h => nomatch h.2.2.1) id))
  | backup r o =>
    have htold := finish_toldOnce_iff r.toRequest o.toOutcomes none "Upload".toList o.fileExists
      true (backup_delivers lib r o)
    simp only [true_and] at htold
    exact htold
  | restore r o =>
    have htold := finish_toldOnce_iff r.toRequest o.toOutcomes none "Download".toList
      (o.fileExists && !lib.fileUri.isPrefixOf r.url) true (restore_delivers lib r o)
    simp only [true_and, Bool.and_eq_true, Bool.not_eq_true'] at htold
    exact htold

/-- A transfer is reported right exactly where it is not the removal that fails it. -/
theorem reported_iff (lib : Lib) (op : Operation) :
    Reported lib op ↔ ¬op.RemovalFails lib := by
  rw [← toldOnce_iff]
  exact ⟨Reported.toldOnce, fun htold => ⟨htold, applied_checked lib op⟩⟩

def uploadedOverHttp : Operation :=
  .backup ⟨⟨"http://server/config".toList, [], [], "Backup()".toList,
      "Device.DeviceInfo.VendorConfigFile.1.".toList⟩, "network".toList⟩
    ⟨⟨0, 1, 200, true, -1⟩, 0⟩

/-- The file is uploaded and stays in `/tmp`. -/
theorem backup_told_and_failed : ¬∀ lib op, Reported lib op := by
  intro hall
  obtain ⟨message, hone, hiff⟩ := (hall Lib.plain uploadedOverHttp).toldOnce
  obtain rfl := List.singleton_inj.mp (hone.symm.trans rfl)
  exact absurd (hiff.mp rfl) (by decide)

end Sysmngr.Transfer
