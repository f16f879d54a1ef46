import Sysmngr.FwImages.Windows

/-!
# What a failed activation leaves behind

`Activate()` returns a fault from many places. All but one of them are before its first
effect: the restart of cron fails when the lines are in the crontab already, and nothing
takes them out again.
-/

namespace Sysmngr.FwImages
open Text Blobmsg Fwbank

/-- What a request for activation may change. -/
@[ext]
structure Device where
  crontab : Str
  bootBank : ℕ
  rebootScheduled : Bool
  deriving DecidableEq

def Device.apply (d : Device) : Effect → Device
  | .setBootbank bankId => { d with bootBank := bankId }
  | .reboot => { d with rebootScheduled := true }
  | .appendCrontab job => { d with crontab := d.crontab ++ job.line }
  | .copyConfig => d
  | .cronRestart => d

def Device.after (d : Device) (effects : List Effect) : Device := effects.foldl Device.apply d

def UnchangedOnFault (d : Device) (r : Option Fault × List Effect) : Prop :=
  r.1.isSome → d.after r.2 = d

/-- The lines are written, and only then cron is not restarted. -/
structure FailsLate (api : Bbfdm) (env : Env) (entry : Attr) (value : Args) : Prop where
  accepted : passes api none (requestedWindows value) = true
  scheduled : requestedWindows value ≠ []
  bank : getFwbankOptionValue entry "id" ≠ []
  opens : env.crontabOpens = true
  restart : env.cronRestarts = false

theorem after_lines (d : Device) (jobs : List Job) :
    d.after (jobs.map .appendCrontab ++ [.cronRestart]) =
      { d with crontab := d.crontab ++ jobs.flatMap Job.line } := by
  have happend : ∀ (jobs : List Job) (d : Device), d.after (jobs.map .appendCrontab) =
      { d with crontab := d.crontab ++ jobs.flatMap Job.line } := by
    intro jobs
    induction jobs with
    | nil =>
      intro d
      simp [Device.after]
    | cons j jobs ih =>
      intro d
      have hjob : d.after ((j :: jobs).map .appendCrontab) =
          ({ d with crontab := d.crontab ++ j.line } : Device).after
            (jobs.map .appendCrontab) := rfl
      rw [hjob, ih]
      simp [List.append_assoc]
  rw [Device.after, List.foldl_append]
  exact happend jobs d

theorem line_ne_nil (j : Job) : j.line ≠ [] := by
  have hschedule : j.schedule ≠ [] := by
    unfold Job.schedule
    simp [printInt_ne_nil]
  obtain ⟨c, rest, hc⟩ := List.exists_cons_of_ne_nil hschedule
  rw [line_eq, Job.content, hc]
  exact List.cons_ne_nil _ _

theorem after_lines_eq_iff (d : Device) (jobs : List Job) :
    d.after (jobs.map .appendCrontab ++ [.cronRestart]) = d ↔ jobs = [] := by
  have hlines : d.after (jobs.map .appendCrontab ++ [.cronRestart]) = d ↔
      ∀ j ∈ jobs, j.line = [] := by
    rw [after_lines, Device.ext_iff]
    simp
  rw [hlines]
  constructor
  · intro hnone
    cases jobs with
    | nil => rfl
    | cons j jobs => exact absurd (hnone j (List.mem_cons_self ..)) (line_ne_nil j)
  · rintro rfl
    exact fun j hj => absurd hj List.not_mem_nil

/-- A fault comes before any effect, unless the restart of cron is what fails. -/
theorem fault_without_effects (api : Bbfdm) (env : Env) (s : State) (entry : Attr) (value : Args)
    (hfault : (operateDeviceInfoFirmwareImageActivate api env s entry value).1.isSome)
    (hlate : ¬FailsLate api env entry value) :
    (operateDeviceInfoFirmwareImageActivate api env s entry value).2 = [] := by
  revert hfault
  unfold operateDeviceInfoFirmwareImageActivate
  rw [parseWindows_requested]
  by_cases hpass : passes api none (requestedWindows value) = true
  · rw [if_pos hpass]
    dsimp only
    by_cases hid : (getFwbankOptionValue entry "id").length = 0
    · rw [if_pos hid]
      exact fun _ => rfl
    rw [if_neg hid]
    by_cases hne : (requestedWindows value).length ≠ 0
    · rw [if_pos hne]
      cases hopens : env.crontabOpens with
      | false => exact fun _ => rfl
      | true =>
        have hrestarts : env.cronRestarts = true := by
          by_contra hfails
          exact hlate ⟨hpass, fun h => hne (List.length_eq_zero_iff.mpr h),
            fun h => hid (List.length_eq_zero_iff.mpr h), hopens, by simpa using hfails⟩
        simp [hrestarts]
    · rw [if_neg hne]
      cases hfork : env.forkOk with
      | false => simp [fwbankSetBootbank, hfork]
      | true => simp [fwbankSetBootbank, hfork]
  · rw [if_neg hpass]
    exact fun _ => rfl

theorem late_fault (api : Bbfdm) (env : Env) (s : State) (entry : Attr) (value : Args)
    (hlate : FailsLate api env entry value) :
    operateDeviceInfoFirmwareImageActivate api env s entry value =
      (some .USP_FAULT_COMMAND_FAILURE,
        (requestedJobs api env s entry (requestedWindows value)).map .appendCrontab ++
          [.cronRestart]) := by
  have hparse := parseWindows_requested api value
  rw [if_pos hlate.accepted] at hparse
  have hid : ¬(getFwbankOptionValue entry "id").length = 0 :=
    fun h => hlate.bank (List.length_eq_zero_iff.mp h)
  have hne : (requestedWindows value).length ≠ 0 :=
    fun h => hlate.scheduled (List.length_eq_zero_iff.mp h)
  refine Prod.ext ?_ (activate_effects api env s entry value _ hparse hlate.scheduled hlate.bank
    hlate.opens)
  unfold operateDeviceInfoFirmwareImageActivate
  simp [hparse, hid, hne, hlate.opens, hlate.restart]

theorem requestedJobs_eq_nil_iff (api : Bbfdm) (env : Env) (s : State) (entry : Attr)
    (ws : List Window) : requestedJobs api env s entry ws = [] ↔ ws = [] :=
  List.mapIdx_eq_nil_iff

theorem late_fault_changes (api : Bbfdm) (env : Env) (s : State) (entry : Attr) (value : Args)
    (hlate : FailsLate api env entry value) (d : Device) :
    ¬UnchangedOnFault d (activateInLoops api env s entry value) := by
  rw [activateInLoops_eq, late_fault api env s entry value hlate]
  intro hunchanged
  have hsame := hunchanged rfl
  rw [after_lines_eq_iff, requestedJobs_eq_nil_iff] at hsame
  exact hlate.scheduled hsame

/-- A failed activation leaves crontab, boot bank and schedule as they were, exactly
unless it is the restart of cron that fails. -/
theorem activate_unchanged_iff (api : Bbfdm) (env : Env) (s : State) (entry : Attr) (value : Args)
    (d : Device) :
    UnchangedOnFault d (activateInLoops api env s entry value) ↔
      ¬FailsLate api env entry value := by
  constructor
  · exact fun hunchanged hlate => late_fault_changes api env s entry value hlate d hunchanged
  · rw [activateInLoops_eq]
    intro hlate hfault
    rw [fault_without_effects api env s entry value hfault hlate]
    rfl

def cronDown : Env := { Env.fine with cronRestarts := false }

theorem failed_restart_keeps_lines :
    ¬∀ (api : Bbfdm) (env : Env) (s : State) (entry : Attr) (value : Args) (d : Device),
      UnchangedOnFault d (activateInLoops api env s entry value) := by
  intro hall
  have hlate : FailsLate .plain cronDown bankTwo (twoWindows updateSoon) :=
    ⟨by decide +kernel, by decide, by decide, rfl, rfl⟩
  exact late_fault_changes .plain cronDown .fresh bankTwo (twoWindows updateSoon) hlate
    ⟨[], 1, false⟩ (hall _ _ _ _ _ _)

end Sysmngr.FwImages
