import Sysmngr.Transfer.Model

/-!
# Backup and restore of a configuration (`configs.c`)
-/

namespace Sysmngr.Transfer
open Text Routine

/-! ### Backup -/

structure BackupRequest extends Request where
  configName : Str

structure BackupOutcomes extends Outcomes where
  exportPackage : ℤ

def configBackup : Str := "/tmp/bbf_config_backup".toList

def configBackupBody (lib : Lib) (r : BackupRequest) (o : BackupOutcomes) : Body := do
  emit [.exportPackage r.configName configBackup]
  require (decide (o.exportPackage = 0))
    (.failed configBackup 0 (-1) "Failed to export the configurations".toList)
  emit [.uploadFile configBackup r.url r.username r.password]
  require (validateServerResponseCode lib r.url (toInt o.resCode))
    (.failed configBackup o.completeTime (-1)
      ("Upload operation is failed, fault code (".toList ++ printInt o.resCode ++ ")".toList))
  pure ⟨configBackup, o.completeTime, 0, []⟩

def bbfConfigBackup (lib : Lib) (r : BackupRequest) (o : BackupOutcomes) : Finished :=
  finish r.toRequest o.toOutcomes none "Upload".toList o.fileExists true
    (configBackupBody lib r o)

def BackupPassed (lib : Lib) (r : BackupRequest) (o : BackupOutcomes) : Prop :=
  o.exportPackage = 0 ∧ validateServerResponseCode lib r.url (toInt o.resCode) = true

theorem backup_delivers (lib : Lib) (r : BackupRequest) (o : BackupOutcomes) :
    Delivers (validateServerResponseCode lib r.url (toInt o.resCode) = true)
      (BackupPassed lib r o) (configBackupBody lib r o) := by
  refine meets_bind (meets_emit ?_) fun _ _ => ?_
  · simp [Effect.message, Effect.applies]
  refine meets_bind (meets_check (fun hpassed => ?_) ?_ ?_) fun _ hexport => ?_
  · exact decide_eq_true hpassed.1
  · decide
  · exact toList_ne_nil _ (by decide)
  refine meets_bind (meets_emit ?_) fun _ _ => ?_
  · simp [Effect.message, Effect.applies]
  refine meets_bind (meets_check (fun hpassed => ?_) ?_ ?_) fun _ hresponse => ?_
  · exact hpassed.2
  · decide
  · exact faultCode_message_ne_nil _ _
  exact meets_pure ⟨⟨of_decide_eq_true hexport, hresponse⟩, rfl, rfl⟩

/-! ### Restore -/

structure RestoreOutcomes extends FileOutcomes where
  importPackage : ℤ

def configRestore : Str := "/tmp/bbf_config_restore".toList

def configRestoreBody (lib : Lib) (r : FileRequest) (o : RestoreOutcomes) : Body := do
  require (validateFileSystemSize o.fsAvailableSize r.fileSize)
    (.failed configRestore 0 (-1)
      "Available memory space is less than required for the operation".toList)
  emit [.downloadFile configRestore r.url r.username r.password]
  require (validateServerResponseCode lib r.url (toInt o.resCode))
    (.failed configRestore o.completeTime (-1)
      ("Upload operation is failed, fault code (".toList ++ printInt o.resCode ++ ")".toList))
  require (validateChecksumValue lib o.contents r.checksumAlgorithm r.checksum)
    (.failed configRestore o.completeTime (-1)
      "Checksum of the downloaded file is mismatched".toList)
  emit [.importPackage configRestore]
  require (decide (o.importPackage = 0))
    (.failed configRestore o.completeTime (-1) "Failed to import the configurations".toList)
  pure ⟨configRestore, o.completeTime, 0, []⟩

def bbfConfigRestore (lib : Lib) (r : FileRequest) (o : RestoreOutcomes) : Finished :=
  finish r.toRequest o.toOutcomes none "Download".toList
    (o.fileExists && !lib.fileUri.isPrefixOf r.url) true (configRestoreBody lib r o)

def RestorePassed (lib : Lib) (r : FileRequest) (o : RestoreOutcomes) : Prop :=
  FileChecked lib r o.toFileOutcomes ∧ o.importPackage = 0

theorem restore_delivers (lib : Lib) (r : FileRequest) (o : RestoreOutcomes) :
    Delivers (FileChecked lib r o.toFileOutcomes) (RestorePassed lib r o)
      (configRestoreBody lib r o) := by
  refine meets_bind (meets_check (fun hpassed => ?_) ?_ ?_) fun _ hspace => ?_
  · exact hpassed.1.1
  · decide
  · exact toList_ne_nil _ (by decide)
  refine meets_bind (meets_emit ?_) fun _ _ => ?_
  · simp [Effect.message, Effect.applies]
  refine meets_bind (meets_check (fun hpassed => ?_) ?_ ?_) fun _ hresponse => ?_
  · exact hpassed.1.2.1
  · decide
  · exact faultCode_message_ne_nil _ _
  refine meets_bind (meets_check (fun hpassed => ?_) ?_ ?_) fun _ hchecksum => ?_
  · exact hpassed.1.2.2
  · decide
  · exact toList_ne_nil _ (by decide)
  have hchecked : FileChecked lib r o.toFileOutcomes := ⟨hspace, hresponse, hchecksum⟩
  refine meets_bind (meets_emit ?_) fun _ _ => ?_
  · simp [Effect.message, hchecked]
  refine meets_bind (meets_check (fun hpassed => ?_) ?_ ?_) fun _ himport => ?_
  · exact decide_eq_true hpassed.2
  · decide
  · exact toList_ne_nil _ (by decide)
  exact meets_pure ⟨⟨hchecked, of_decide_eq_true himport⟩, rfl, rfl⟩

end Sysmngr.Transfer
