import Sysmngr.Fwbank.Upgrade
import Sysmngr.Machine
import Sysmngr.Transfer.Operate

/-!
# KeepConfig and its readers (`deviceinfo.c`, `fw_images.c`, `fwbank.c`)

The parameter is a boolean, kept as the text `1` or `0`. What it says is read before the
copy of a switch, handed to the activate handler and to the upgrade of a downloaded image
as it stands, and read as a number by the method `upgrade`.
-/

namespace Sysmngr.FwImages
open Text Uci Blobmsg Fwbank Machine
open Transfer (Lib DownloadOutcomes operateDeviceInfoFirmwareImageDownload)

def getDeviceinfoKeepConfig (s : State) : Str := keepConfig s

def setDeviceinfoKeepConfig (api : Bbfdm) (s : State) (value : Str) : Option Fault × State :=
  if !api.validateBoolean value then (some .FAULT_9007, s)
  else
    let b := api.stringToBool value
    (none, { s with
      config := s.config.set "globals" "keep_config" (if b then "1".toList else "0".toList) })

/-! ### Requests -/

/-- The requests that write the parameter, move the state or act on what it says. -/
inductive Request where
  | keepConfig (value : Str)
  | available (entry : Attr) (value : Str)
  | boot (env : Env) (value : Str)
  | activate (env : Env) (entry : Attr) (value : Args)
  | download (data : Attr) (refparam : Str) (value : Args) (o : DownloadOutcomes)
  | upgrade (msg : List Attr)

/-- What is done for a request: on banks and the crontab, in a transfer, and the command
an `upgrade` forks. -/
structure Response where
  effects : List Effect
  transfer : List Transfer.Effect
  command : Option Str

def Response.none : Response := ⟨[], [], Option.none⟩

def requestStep (api : Bbfdm) (lib : Lib) (s : State) : Request → State × Response
  | .keepConfig value => ((setDeviceinfoKeepConfig api s value).2, .none)
  | .available entry value =>
    ((setDeviceInfoFirmwareImageAvailable api s entry value).2, .none)
  | .boot env value =>
    let r := setDeviceBootFwimage api env s value
    (r.2.1, ⟨r.2.2, [], Option.none⟩)
  | .activate env entry value =>
    (s, ⟨(operateDeviceInfoFirmwareImageActivate api env s entry value).2, [], Option.none⟩)
  | .download data refparam value o =>
    (s, ⟨[], (operateDeviceInfoFirmwareImageDownload lib s data refparam value o).effects,
      Option.none⟩)
  | .upgrade msg => (s, ⟨[], [], upgradeHandler s.config msg⟩)

/-! ### What the requests should go by -/

/-- The last value accepted, or what held before. -/
def keptAfter (api : Bbfdm) : Bool → List Request → Bool
  | kept, [] => kept
  | kept, .keepConfig value :: rest =>
    keptAfter api (if api.validateBoolean value then api.stringToBool value else kept) rest
  | kept, _ :: rest => keptAfter api kept rest

def keepText (kept : Bool) : Str := if kept then "1".toList else "0".toList

/-- A switch comes with the copy exactly if the configuration is kept, and a job is told
so. -/
structure Obeys (kept : Bool) (effects : List Effect) : Prop where
  copied : ∀ n, .setBootbank n ∈ effects → (.copyConfig ∈ effects ↔ kept = true)
  uncopied : .copyConfig ∈ effects → kept = true
  jobs : ∀ j, .appendCrontab j ∈ effects → j.keepConfig = keepText kept

/-- The upgrade of a download is told what holds, and a message that does not say whether
to keep the configuration is taken to say it. -/
structure Honours (kept : Bool) (r : Request) (o : Response) : Prop where
  banks : Obeys kept o.effects
  upgrades : ∀ path auto bank keep, .upgrade path auto bank keep ∈ o.transfer →
    keep = keepText kept
  commands : ∀ msg, r = .upgrade msg → msg.find? (Policy.accepts ⟨"keep_settings", .bool⟩) = none →
    msg ≠ [] → ∃ path auto bank, o.command = some (sysmngrFwbankUpgrade path auto bank kept)

/-- The option holds the value, an absent one that of a kept configuration. -/
def Stores (s : State) (kept : Bool) : Prop := keepConfig s = keepText kept

instance (s : State) (kept : Bool) : Decidable (Stores s kept) :=
  inferInstanceAs (Decidable (_ = _))

/-! ### The state -/

theorem keepText_ne_nil (kept : Bool) : keepText kept ≠ [] := by
  cases kept <;> exact toList_ne_nil _ (by decide)

theorem keepText_eq_one (kept : Bool) : keepText kept = "1".toList ↔ kept = true := by
  cases kept <;> decide

theorem set_stores (api : Bbfdm) (s : State) (kept : Bool) (value : Str) (h : Stores s kept) :
    Stores (setDeviceinfoKeepConfig api s value).2
      (if api.validateBoolean value then api.stringToBool value else kept) := by
  unfold setDeviceinfoKeepConfig
  cases api.validateBoolean value with
  | false => exact h
  | true =>
    show keepConfig _ = keepText (api.stringToBool value)
    unfold keepConfig
    show (s.config.set "globals" "keep_config" (keepText (api.stringToBool value)) "globals"
      "keep_config").getD _ = _
    rw [Named.set_self _ _ _ _ (keepText_ne_nil _), Option.getD_some]

/-- Only the parameter itself writes the option. -/
theorem boot_keeps (api : Bbfdm) (env : Env) (s : State) (value : Str) :
    keepConfig (setDeviceBootFwimage api env s value).2.1 = keepConfig s := by
  unfold setDeviceBootFwimage
  dsimp only
  repeat' split
  all_goals rfl

theorem available_keeps (api : Bbfdm) (s : State) (entry : Attr) (value : Str) :
    keepConfig (setDeviceInfoFirmwareImageAvailable api s entry value).2 = keepConfig s := by
  unfold setDeviceInfoFirmwareImageAvailable
  dsimp only
  repeat' split
  all_goals rfl

theorem request_stores (api : Bbfdm) (lib : Lib) (s : State) (kept : Bool) (r : Request)
    (h : Stores s kept) : Stores (requestStep api lib s r).1 (keptAfter api kept [r]) := by
  cases r with
  | keepConfig value => exact set_stores api s kept value h
  | available entry value => exact (available_keeps api s entry value).trans h
  | boot env value => exact (boot_keeps api env s value).trans h
  | activate env entry value => exact h
  | download data refparam value o => exact h
  | upgrade msg => exact h

theorem keptAfter_cons (api : Bbfdm) (kept : Bool) (r : Request) (rest : List Request) :
    keptAfter api kept (r :: rest) = keptAfter api (keptAfter api kept [r]) rest := by
  cases r <;> rfl

theorem run_stores (api : Bbfdm) (lib : Lib) (s : State) (kept : Bool) (rs : List Request)
    (h : Stores s kept) :
    Stores (run (requestStep api lib) s rs).1 (keptAfter api kept rs) := by
  induction rs generalizing s kept with
  | nil => exact h
  | cons r rs ih =>
    rw [run_cons_state, keptAfter_cons]
    exact ih _ _ (request_stores api lib s kept r h)

/-! ### Banks -/

/-- A switch with the copy behind it, as the parameter says. -/
def switchEffects (keep : Str) (n : ℕ) (rest : List Effect) : List Effect :=
  .setBootbank n :: ((if keep = "1".toList then [.copyConfig] else []) ++ rest)

theorem boot_effects (api : Bbfdm) (env : Env) (s : State) (value : Str) :
    (setDeviceBootFwimage api env s value).2.2 = [] ∨
      ∃ n, (setDeviceBootFwimage api env s value).2.2 = switchEffects (keepConfig s) n [] := by
  unfold setDeviceBootFwimage fwbankSetBootbank
  dsimp only
  split
  · exact Or.inl rfl
  split
  · exact Or.inl rfl
  split
  · exact Or.inl rfl
  rename_i bankId _
  split
  · exact Or.inl rfl
  cases env.forkOk with
  | false => exact Or.inl rfl
  | true =>
    refine Or.inr ⟨bankNumber bankId, ?_⟩
    rw [switchEffects, List.append_nil]
    rfl

theorem activate_effects_cases (api : Bbfdm) (env : Env) (s : State) (entry : Attr)
    (value : Args) :
    (operateDeviceInfoFirmwareImageActivate api env s entry value).2 = [] ∨
      (∃ n, (operateDeviceInfoFirmwareImageActivate api env s entry value).2 =
        switchEffects (keepConfig s) n [.reboot]) ∨
      ∃ bankId ws, (operateDeviceInfoFirmwareImageActivate api env s entry value).2 =
        (windowJobs api env bankId (keepConfig s) ws).map .appendCrontab ++ [.cronRestart] := by
  unfold operateDeviceInfoFirmwareImageActivate fwbankSetBootbank
  dsimp only
  split
  · exact Or.inl rfl
  rename_i ws _
  split
  · exact Or.inl rfl
  split
  · cases env.crontabOpens with
    | false => exact Or.inl rfl
    | true => exact Or.inr (Or.inr ⟨getFwbankOptionValue entry "id", ws, rfl⟩)
  · cases env.forkOk with
    | false => exact Or.inl rfl
    | true => exact Or.inr (Or.inl ⟨bankNumber (getFwbankOptionValue entry "id"), rfl⟩)

theorem obeys_nil (kept : Bool) : Obeys kept [] where
  copied := fun _ h => absurd h List.not_mem_nil
  uncopied := fun h => absurd h List.not_mem_nil
  jobs := fun _ h => absurd h List.not_mem_nil

theorem obeys_switch (kept : Bool) (n : ℕ) (rest : List Effect) (h : ∀ e ∈ rest, e = .reboot) :
    Obeys kept (switchEffects (keepText kept) n rest) := by
  have hcopy : Effect.copyConfig ∈ switchEffects (keepText kept) n rest ↔ kept = true := by
    have hrest : Effect.copyConfig ∉ rest := fun hmem => nomatch h _ hmem
    simp only [switchEffects, keepText_eq_one, List.mem_cons, List.mem_append, reduceCtorEq,
      hrest, false_or, or_false]
    cases kept <;> simp
  refine ⟨fun _ _ => hcopy, hcopy.mp, fun j hj => ?_⟩
  rcases List.mem_cons.mp hj with hj | hj
  · exact nomatch hj
  rcases List.mem_append.mp hj with hj | hj
  · split at hj
    · exact nomatch List.mem_singleton.mp hj
    · exact absurd hj List.not_mem_nil
  · exact nomatch h _ hj

theorem obeys_jobs (api : Bbfdm) (env : Env) (bankId : Str) (kept : Bool) (ws : List Window) :
    Obeys kept ((windowJobs api env bankId (keepText kept) ws).map .appendCrontab ++
      [.cronRestart]) := by
  have hcases : ∀ e ∈ (windowJobs api env bankId (keepText kept) ws).map Effect.appendCrontab ++
      [.cronRestart], e = .cronRestart ∨ ∃ i w, e = .appendCrontab
        (windowJob api env bankId (keepText kept) ws.length i w) := by
    intro e he
    rcases List.mem_append.mp he with he | he
    · obtain ⟨j, hj, rfl⟩ := List.mem_map.mp he
      obtain ⟨i, hi, rfl⟩ := List.mem_mapIdx.mp hj
      exact Or.inr ⟨i, _, rfl⟩
    · exact Or.inl (List.mem_singleton.mp he)
  refine ⟨fun n hn => ?_, fun h => ?_, fun j hj => ?_⟩
  · rcases hcases _ hn with h | ⟨i, w, h⟩ <;> cases h
  · rcases hcases _ h with h | ⟨i, w, h⟩ <;> cases h
  · rcases hcases _ hj with h | ⟨i, w, h⟩
    · cases h
    · obtain rfl := Effect.appendCrontab.inj h
      rfl

/-! ### Upgrades -/

section Download
open Routine
open Transfer (DownloadRequest fwImageDownloadBody downloadRequest)

/-- An upgrade in a transfer is told what the request says. -/
def Tells (keep : Str) (e : Transfer.Effect) : Prop :=
  ∀ path auto bank k, e = .upgrade path auto bank k → k = if keep ≠ [] then keep else "1".toList

theorem download_tells (lib : Lib) (r : DownloadRequest) (o : DownloadOutcomes) :
    Meets (Tells r.keep) (fun _ => True) (fun _ => True) (fwImageDownloadBody lib r o) := by
  have hother : ∀ e, (∀ path auto bank k, e ≠ .upgrade path auto bank k) → Tells r.keep e :=
    fun e h path auto bank k heq => absurd heq (h path auto bank k)
  refine meets_bind (meets_require fun _ => trivial) fun _ _ => ?_
  refine meets_bind (meets_fetch fun _ => trivial) fun _ _ => ?_
  refine meets_bind (meets_emit ?_) fun _ _ => ?_
  · intro e he
    rw [List.mem_singleton.mp he]
    exact hother _ (by simp)
  refine meets_bind (meets_require fun _ => trivial) fun _ _ => ?_
  refine meets_bind (meets_require fun _ => trivial) fun _ _ => ?_
  refine meets_bind (meets_fetch fun _ => trivial) fun _ _ => ?_
  refine meets_bind (meets_require fun _ => trivial) fun _ _ => ?_
  refine meets_bind (meets_emit ?_) fun _ _ => ?_
  · intro e he path auto bank k heq
    rw [List.mem_singleton.mp he] at heq
    exact (Transfer.Effect.upgrade.inj heq).2.2.2.symm
  refine meets_bind (meets_require fun _ => trivial) fun _ _ => ?_
  refine meets_bind (meets_require fun _ => trivial) fun _ _ => ?_
  refine meets_bind (meets_emit ?_) fun _ _ => meets_pure trivial
  intro e he
  split at he
  · rw [List.mem_singleton.mp he]
    exact hother _ (by simp)
  · exact absurd he List.not_mem_nil

theorem download_upgrades (lib : Lib) (s : State) (kept : Bool) (h : Stores s kept) (data : Attr)
    (refparam : Str) (value : Args) (o : DownloadOutcomes) (path auto bank keep : Str)
    (hmem : .upgrade path auto bank keep ∈
      (operateDeviceInfoFirmwareImageDownload lib s data refparam value o).effects) :
    keep = keepText kept := by
  have hkeep : ∀ objPath url, (downloadRequest s data value objPath url).keep = keepText kept :=
    fun _ _ => h
  unfold operateDeviceInfoFirmwareImageDownload Transfer.operate at hmem
  split at hmem
  · exact absurd hmem List.not_mem_nil
  dsimp only at hmem
  split at hmem
  · exact absurd hmem List.not_mem_nil
  rename_i objPath _ _
  rcases List.mem_append.mp hmem with hbody | hend
  · have htold := (download_tells lib (downloadRequest s data value objPath (value "URL".toList))
      o).effects _ hbody path auto bank keep rfl
    rwa [hkeep, if_pos (keepText_ne_nil kept)] at htold
  · rcases List.mem_cons.mp hend with hevent | hremove
    · exact nomatch hevent
    · split at hremove
      · exact nomatch List.mem_singleton.mp hremove
      · exact absurd hremove List.not_mem_nil

end Download

/-- As a number the text of the option says what it says as a text. -/
theorem keepConfigDefault_eq (s : State) (kept : Bool) (h : Stores s kept) :
    keepConfigDefault s.config = kept := by
  have hget : s.config.get "globals" "keep_config" "1".toList 8 = snprintf 8 (keepText kept) :=
    congrArg (snprintf 8) h
  rw [keepConfigDefault, hget]
  cases kept <;> decide

theorem upgrade_command (s : State) (kept : Bool) (h : Stores s kept) (msg : List Attr)
    (habsent : msg.find? (Policy.accepts ⟨"keep_settings", .bool⟩) = none) (hne : msg ≠ []) :
    ∃ path auto bank,
      upgradeHandler s.config msg = some (sysmngrFwbankUpgrade path auto bank kept) := by
  have hmsg : msg.isEmpty = false := by
    cases msg with
    | nil => exact absurd rfl hne
    | cons a msg => rfl
  rw [← keepConfigDefault_eq s kept h]
  simp only [upgradeHandler, blobmsgParse, hmsg, Bool.false_eq_true, if_false, upgradePolicy,
    List.map_cons, List.map_nil, habsent, Option.map_none, Option.getD_none]
  exact ⟨_, _, _, rfl⟩

/-! ### All requests -/

theorem request_honours (api : Bbfdm) (lib : Lib) (s : State) (kept : Bool) (h : Stores s kept)
    (r : Request) : Honours kept r (requestStep api lib s r).2 := by
  have hsilent : ∀ path auto bank keep,
      Transfer.Effect.upgrade path auto bank keep ∈ ([] : List Transfer.Effect) →
      keep = keepText kept := fun _ _ _ _ hmem => absurd hmem List.not_mem_nil
  cases r with
  | keepConfig value => exact ⟨obeys_nil kept, hsilent, fun _ heq => nomatch heq⟩
  | available entry value => exact ⟨obeys_nil kept, hsilent, fun _ heq => nomatch heq⟩
  | boot env value =>
    refine ⟨?_, hsilent, fun _ heq => nomatch heq⟩
    show Obeys kept (setDeviceBootFwimage api env s value).2.2
    rcases boot_effects api env s value with heq | ⟨n, heq⟩
    · rw [heq]
      exact obeys_nil kept
    · rw [heq, show keepConfig s = keepText kept from h]
      exact obeys_switch kept n [] fun e he => absurd he List.not_mem_nil
  | activate env entry value =>
    refine ⟨?_, hsilent, fun _ heq => nomatch heq⟩
    show Obeys kept (operateDeviceInfoFirmwareImageActivate api env s entry value).2
    rcases activate_effects_cases api env s entry value with heq | ⟨n, heq⟩ | ⟨bankId, ws, heq⟩
    · rw [heq]
      exact obeys_nil kept
    · rw [heq, show keepConfig s = keepText kept from h]
      exact obeys_switch kept n [.reboot] fun e he => List.mem_singleton.mp he
    · rw [heq, show keepConfig s = keepText kept from h]
      exact obeys_jobs api env bankId kept ws
  | download data refparam value o =>
    refine ⟨obeys_nil kept, ?_, fun _ heq => nomatch heq⟩
    exact fun path auto bank keep hmem =>
      download_upgrades lib s kept h data refparam value o path auto bank keep hmem
  | upgrade msg =>
    refine ⟨obeys_nil kept, hsilent, fun msg' heq habsent hne => ?_⟩
    obtain rfl := Request.upgrade.inj heq
    exact upgrade_command s kept h msg habsent hne

def notKept : List Request := [.keepConfig "false".toList, .keepConfig "maybe".toList]

end Sysmngr.FwImages
