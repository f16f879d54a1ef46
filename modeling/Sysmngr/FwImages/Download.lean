import Sysmngr.Fwbank.Listener

/-!
# The end of a download (`fw_images.c`)

After the image is handed to the upgrade, `Download()` waits for a `sysupgrade` event
and succeeds if the status kept by the event handler says so when the wait ends, by an
event that is read to its end or after 120 seconds.
-/

namespace Sysmngr.FwImages
open Text Fwbank

/-! ### The wait -/

/-- The status kept after an event, and whether the event ends the wait. -/
def dmubusReceiveSysupgrade (bankId : Str) (status : Bool) : List Field → Bool × Bool
  | [] => (status, true)
  | (name, attrVal) :: rest =>
    if name = "bank_id".toList ∧ attrVal ≠ bankId then (status, false)
    else if name = "status".toList then
      if attrVal = "Downloading".toList then (status, false)
      else dmubusReceiveSysupgrade bankId (decide (attrVal = "Available".toList)) rest
    else dmubusReceiveSysupgrade bankId status rest

def dmubusWaitForEvent (bankId : Str) (status : Bool) : List (List Field) → Bool
  | [] => status
  | e :: es =>
    let r := dmubusReceiveSysupgrade bankId status e
    if r.2 then r.1 else dmubusWaitForEvent bankId r.1 es

/-- The events received until the wait ends. -/
def received (bankId : Str) : List (List Field) → List (List Field)
  | [] => []
  | e :: es =>
    e :: if (dmubusReceiveSysupgrade bankId false e).2 then [] else received bankId es

/-- What the steps before the wait find: the space, the temporary file, the answer of
the server, the checksum, whether the image is called valid, if that is answered, and
the upgrade; and the events of the 120 seconds after it. -/
structure DownloadEnv where
  fileSystemSize : Bool
  tempFile : Bool
  resCode : ℤ
  responseOk : Bool
  checksumOk : Bool
  valid : Option Bool
  upgradeOk : Bool
  events : List (List Field)

/-- The result, the fault message of the `TransferComplete!` event and whether a reboot
is started. -/
structure Download where
  res : ℤ
  faultMsg : Str
  reboot : Bool
  deriving DecidableEq

def Download.failed (res : ℤ) (faultMsg : Str) : Download := ⟨res, snprintf 128 faultMsg, false⟩

def bbfFwImageDownload (env : DownloadEnv) (activate : Bool) (bankId : Str) : Download :=
  if !env.fileSystemSize then
    .failed (-1) "Available memory space is lower than required for downloading".toList
  else if !env.tempFile then
    .failed (-1) "Operation failed due to some internal failure".toList
  else if !env.responseOk then
    .failed (-1) ("Download operation is failed, fault code (".toList ++ printInt env.resCode ++
      ")".toList)
  else if !env.checksumOk then
    .failed (-1) "Checksum of the file is not matched with the specified value".toList
  else
    match env.valid with
    | none => .failed (-1) "Failed in validation of the file".toList
    | some valid =>
      if !valid then .failed (-1) "File is not a valid firmware image".toList
      else if !env.upgradeOk then
        .failed 1 "Internal error occurred when applying the firmware".toList
      else if dmubusWaitForEvent bankId false env.events then ⟨0, [], activate⟩
      else .failed 1 "Failed to apply the downloaded image file".toList

def DownloadEnv.Waits (env : DownloadEnv) : Prop :=
  env.fileSystemSize = true ∧ env.tempFile = true ∧ env.responseOk = true ∧
    env.checksumOk = true ∧ env.valid = some true ∧ env.upgradeOk = true

theorem failed_res (res : ℤ) (faultMsg : Str) (h : res ≠ 0) :
    ¬(Download.failed res faultMsg).res = 0 := h

theorem download_res (env : DownloadEnv) (activate : Bool) (bankId : Str) :
    (bbfFwImageDownload env activate bankId).res = 0 ↔
      env.Waits ∧ dmubusWaitForEvent bankId false env.events = true := by
  obtain ⟨space, temp, code, response, checksum, valid, upgrade, events⟩ := env
  unfold bbfFwImageDownload DownloadEnv.Waits
  cases space
  · exact iff_of_false (failed_res _ _ (by decide)) (by simp)
  cases temp
  · exact iff_of_false (failed_res _ _ (by decide)) (by simp)
  cases response
  · exact iff_of_false (failed_res _ _ (by decide)) (by simp)
  cases checksum
  · exact iff_of_false (failed_res _ _ (by decide)) (by simp)
  rcases valid with _ | (_ | _)
  · exact iff_of_false (failed_res _ _ (by decide)) (by simp)
  · exact iff_of_false (failed_res _ _ (by decide)) (by simp)
  cases upgrade
  · exact iff_of_false (failed_res _ _ (by decide)) (by simp)
  cases dmubusWaitForEvent bankId false events
  · exact iff_of_false (failed_res _ _ (by decide)) (by simp)
  · exact iff_of_true rfl (by simp)

theorem failed_faultMsg (res : ℤ) (faultMsg : Str) (hres : res ≠ 0) (hmsg : faultMsg ≠ []) :
    (Download.failed res faultMsg).faultMsg = [] ↔ (Download.failed res faultMsg).res = 0 := by
  refine iff_of_false (fun h => ?_) hres
  obtain ⟨c, rest, rfl⟩ := List.exists_cons_of_ne_nil hmsg
  exact absurd h (List.cons_ne_nil _ _)

/-- Every failure sets a message, and nothing else does. -/
theorem download_faultMsg (env : DownloadEnv) (activate : Bool) (bankId : Str) :
    (bbfFwImageDownload env activate bankId).faultMsg = [] ↔
      (bbfFwImageDownload env activate bankId).res = 0 := by
  unfold bbfFwImageDownload
  repeat' split
  all_goals first | refine failed_faultMsg _ _ (by decide) ?_ | exact iff_of_true rfl rfl
  all_goals first
    | exact toList_ne_nil _ (by decide)
    | exact List.append_ne_nil_of_right_ne_nil _ (toList_ne_nil _ (by decide))

/-! ### What an event tells -/

def Confirms (bankId : Str) (e : List Field) : Prop :=
  ("status".toList, "Available".toList) ∈ e ∧
    (("bank_id".toList, bankId) ∈ e ∨ ∀ f ∈ e, f.1 ≠ "bank_id".toList)

/-- The last status an event names before it names another bank or the status
`Downloading`. -/
def namedStatus (bankId : Str) : List Field → Option Str
  | [] => none
  | (name, attrVal) :: rest =>
    if name = "bank_id".toList ∧ attrVal ≠ bankId then none
    else if name = "status".toList then
      if attrVal = "Downloading".toList then none
      else some ((namedStatus bankId rest).getD attrVal)
    else namedStatus bankId rest

/-- The event is of other banks only and is `Available` as far as it is read. -/
def Leaks (bankId : Str) (e : List Field) : Prop :=
  (∃ f ∈ e, f.1 = "bank_id".toList) ∧ ("bank_id".toList, bankId) ∉ e ∧
    namedStatus bankId e = some "Available".toList

theorem receive_status (bankId : Str) (status : Bool) (e : List Field) :
    (dmubusReceiveSysupgrade bankId status e).1 =
      (namedStatus bankId e).elim status fun v => decide (v = "Available".toList) := by
  induction e generalizing status with
  | nil => rfl
  | cons f rest ih =>
    obtain ⟨name, v⟩ := f
    rw [dmubusReceiveSysupgrade, namedStatus]
    split
    · rfl
    split
    · split
      · rfl
      · rw [ih]
        cases namedStatus bankId rest <;> rfl
    · exact ih status

theorem receive_ends (bankId : Str) (s t : Bool) (e : List Field) :
    (dmubusReceiveSysupgrade bankId s e).2 = (dmubusReceiveSysupgrade bankId t e).2 := by
  induction e generalizing s t with
  | nil => rfl
  | cons f rest ih =>
    obtain ⟨name, v⟩ := f
    rw [dmubusReceiveSysupgrade, dmubusReceiveSysupgrade]
    split
    · rfl
    split
    · split
      · rfl
      · rfl
    · exact ih s t

/-- The wait ends with what the last received event that names a status says. -/
theorem wait_eq (bankId : Str) (status : Bool) (es : List (List Field)) :
    dmubusWaitForEvent bankId status es =
      ((received bankId es).reverse.findSome? (namedStatus bankId)).elim status
        fun v => decide (v = "Available".toList) := by
  induction es generalizing status with
  | nil => rfl
  | cons e es ih =>
    rw [dmubusWaitForEvent, received, List.reverse_cons, List.findSome?_append, receive_status,
      receive_ends bankId status false]
    split
    · simp
    · rw [ih]
      cases (received bankId es).reverse.findSome? (namedStatus bankId) <;> simp

theorem namedStatus_mem (bankId : Str) (e : List Field) (v : Str)
    (h : namedStatus bankId e = some v) : ("status".toList, v) ∈ e := by
  induction e generalizing v with
  | nil => exact absurd h (by simp [namedStatus])
  | cons f rest ih =>
    obtain ⟨name, w⟩ := f
    rw [namedStatus] at h
    split at h
    · exact absurd h (by simp)
    split at h
    · rename_i hname
      split at h
      · exact absurd h (by simp)
      · cases hrest : namedStatus bankId rest with
        | none =>
          rw [hrest] at h
          obtain rfl := Option.some.inj h
          rw [hname]
          exact List.mem_cons_self ..
        | some u =>
          rw [hrest] at h
          obtain rfl := Option.some.inj h
          exact List.mem_cons_of_mem _ (ih u hrest)
    · exact List.mem_cons_of_mem _ (ih v h)

theorem confirms_or_leaks (bankId : Str) (e : List Field)
    (h : namedStatus bankId e = some "Available".toList) :
    Confirms bankId e ∨ Leaks bankId e := by
  by_cases hown : ("bank_id".toList, bankId) ∈ e
  · exact Or.inl ⟨namedStatus_mem _ _ _ h, Or.inl hown⟩
  · by_cases hany : ∃ f ∈ e, f.1 = "bank_id".toList
    · exact Or.inr ⟨hany, hown, h⟩
    · refine Or.inl ⟨namedStatus_mem _ _ _ h, Or.inr fun f hf hname => ?_⟩
      exact hany ⟨f, hf, hname⟩

/-! ### Reported downloads -/

def ReportedRight (env : DownloadEnv) (activate : Bool) (bankId : Str) : Prop :=
  (bbfFwImageDownload env activate bankId).res = 0 →
    ∃ e ∈ received bankId env.events, Confirms bankId e

/-- The last received event that names a status is other banks' only, and no event
confirms the download. -/
def Misled (bankId : Str) (events : List (List Field)) : Prop :=
  (∀ e ∈ events, ¬Confirms bankId e) ∧
    ∃ pre e post, events = pre ++ e :: post ∧ Leaks bankId e ∧
      ∀ f ∈ post, namedStatus bankId f = none

theorem elim_decide_iff (o : Option Str) (a : Str) :
    (o.elim false fun v => decide (v = a)) = true ↔ o = some a := by
  cases o <;> simp

theorem waits_available_iff (bankId : Str) (es : List (List Field)) :
    dmubusWaitForEvent bankId false es = true ↔
      ∃ pre e post, received bankId es = pre ++ e :: post ∧
        namedStatus bankId e = some "Available".toList ∧
        ∀ f ∈ post, namedStatus bankId f = none := by
  have hlast : dmubusWaitForEvent bankId false es = true ↔
      (received bankId es).reverse.findSome? (namedStatus bankId) =
        some "Available".toList := by
    rw [wait_eq]
    exact elim_decide_iff _ _
  rw [hlast, List.findSome?_eq_some_iff]
  constructor
  · rintro ⟨before, e, after, heq, hnamed, hnone⟩
    refine ⟨after.reverse, e, before.reverse, ?_, hnamed, fun f hf => hnone f ?_⟩
    · rw [← List.reverse_reverse (received bankId es), heq]
      simp
    · exact List.mem_reverse.mp hf
  · rintro ⟨pre, e, post, heq, hnamed, hnone⟩
    refine ⟨post.reverse, e, pre.reverse, ?_, hnamed, fun f hf => hnone f ?_⟩
    · rw [heq]
      simp
    · exact List.mem_reverse.mp hf

/-- A download is reported right exactly when the wait is not reached or the events
received in it do not mislead. -/
theorem reportedRight_iff (env : DownloadEnv) (activate : Bool) (bankId : Str) :
    ReportedRight env activate bankId ↔
      ¬(env.Waits ∧ Misled bankId (received bankId env.events)) := by
  have hres := download_res env activate bankId
  constructor
  · rintro h ⟨hwaits, hnone, pre, e, post, heq, ⟨-, -, hnamed⟩, hpost⟩
    have havailable := (waits_available_iff bankId env.events).mpr ⟨pre, e, post, heq, hnamed, hpost⟩
    obtain ⟨c, hc, hconfirms⟩ := h (hres.mpr ⟨hwaits, havailable⟩)
    exact hnone c hc hconfirms
  · intro hno hok
    obtain ⟨hwaits, havailable⟩ := hres.mp hok
    obtain ⟨pre, e, post, heq, hnamed, hpost⟩ :=
      (waits_available_iff bankId env.events).mp havailable
    by_contra hnone
    refine hno ⟨hwaits, fun c hc hconfirms => hnone ⟨c, hc, hconfirms⟩, pre, e, post, heq, ?_, hpost⟩
    have hmem : e ∈ received bankId env.events := by
      rw [heq]
      exact List.mem_append_right _ (List.mem_cons_self ..)
    exact (confirms_or_leaks bankId e hnamed).resolve_left fun hc => hnone ⟨e, hmem, hc⟩

def otherBankFirst : DownloadEnv :=
  ⟨true, true, 200, true, true, some true, true,
    [[("status".toList, "Available".toList), ("bank_id".toList, "1".toList)]]⟩

/-- Bank 1 is reported, status first, while the download for bank 2 waits. -/
theorem download_misled :
    ¬∀ env activate bankId, ReportedRight env activate bankId := by
  intro hall
  obtain ⟨e, he, -, hown | hnone⟩ := hall otherBankFirst false "2".toList (by decide)
  · obtain rfl := List.mem_singleton.mp he
    exact absurd hown (by decide)
  · obtain rfl := List.mem_singleton.mp he
    exact absurd rfl (hnone ("bank_id".toList, "1".toList) (by decide))

end Sysmngr.FwImages
