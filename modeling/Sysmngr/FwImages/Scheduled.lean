import Sysmngr.FwImages.Crontab
import Sysmngr.FwImages.Handler
import Sysmngr.FwImages.KeepConfig

/-!
# From a request to the device (`fw_images.c`, `bbf_activate_handler.sh`)

What becomes of an `Activate()` with time windows: its lines in root's crontab, read by
cron, the command of a line read by the shell, the handler run with the words of the
command, and what the handler has the device do.
-/

namespace Sysmngr.FwImages
open Text Uci Blobmsg Fwbank Machine Calendar
open Transfer (Lib)

/-- The steps of the handler for a line of the crontab, if cron and the shell make a call
of the handler of it. -/
def runLine (script : HandlerEnv) (rounds : ℕ) (line : Str) : Option (List Step) :=
  match (Cron.readEntry line).bind fun e => Shell.pipeline e.command with
  | some [⟨sh :: file :: args, []⟩] =>
    if sh = "sh".toList ∧ file = ACTIVATE_HANDLER_FILE then
      some (activateHandler script args rounds)
    else none
  | _ => none

theorem runLine_of_runs (script : HandlerEnv) (rounds : ℕ) (line : Str) (j : Job)
    (h : Runs line j) :
    runLine script rounds line = some (activateHandler script j.args rounds) := by
  obtain ⟨e, hentry, -, hcommand⟩ := h
  rw [runLine, hentry, Option.bind_some, hcommand]
  exact if_pos ⟨rfl, rfl⟩

/-! ### What the steps may be -/

/-- Every reboot comes after `x`. -/
def Precedes (x : Step) (steps : List Step) : Prop :=
  ∀ pre post, steps = pre ++ .reboot :: post → x ∈ pre

/-- A step that touches neither the banks nor the configuration. -/
structure Inert (x : Step) : Prop where
  bank : ∀ bankId success, x ≠ .setBootbank bankId success
  copy : ∀ success, x ≠ .copyConfig success
  reboot : x ≠ .reboot

/-- The steps switch to the one bank only, reboot only when that has succeeded, and leave
the configuration alone if it is not kept. -/
structure KeepsTo (bankId : Str) (kept : Bool) (steps : List Step) : Prop where
  own : ∀ id success, .setBootbank id success ∈ steps → id = bankId
  switched : Precedes (.setBootbank bankId true) steps
  unkept : kept = false → ∀ success, .copyConfig success ∉ steps

theorem precedes_nil (x : Step) : Precedes x [] := fun pre post h => by simp at h

theorem precedes_cons (x y : Step) (steps : List Step) (hy : y ≠ .reboot)
    (h : x = y ∨ Precedes x steps) : Precedes x (y :: steps) := by
  intro pre post heq
  cases pre with
  | nil => exact absurd (List.cons.inj heq).1 hy
  | cons z pre =>
    obtain ⟨rfl, hrest⟩ := List.cons.inj heq
    rcases h with rfl | h
    · exact List.mem_cons_self ..
    · exact List.mem_cons_of_mem _ (h pre post hrest)

theorem keepsTo_nil (bankId : Str) (kept : Bool) : KeepsTo bankId kept [] where
  own := fun _ _ h => absurd h List.not_mem_nil
  switched := precedes_nil _
  unkept := fun _ _ => List.not_mem_nil

theorem keepsTo_cons (bankId : Str) (kept : Bool) (x : Step) (steps : List Step) (hx : Inert x)
    (h : KeepsTo bankId kept steps) : KeepsTo bankId kept (x :: steps) where
  own := fun id success hmem =>
    h.own id success ((List.mem_cons.mp hmem).resolve_left (hx.bank id success).symm)
  switched := precedes_cons _ x steps hx.reboot (Or.inr h.switched)
  unkept := fun hkept success hmem =>
    h.unkept hkept success ((List.mem_cons.mp hmem).resolve_left (hx.copy success).symm)

theorem inert_checkIdle (status : ℕ) : Inert (.checkIdle status) := ⟨by simp, by simp, by simp⟩
theorem inert_sleep (seconds : ℤ) : Inert (.sleep seconds) := ⟨by simp, by simp, by simp⟩
theorem inert_log (message : Str) : Inert (.log message) := ⟨by simp, by simp, by simp⟩
theorem inert_exit (status : ℕ) : Inert (.exit status) := ⟨by simp, by simp, by simp⟩

theorem keepsTo_giveUp (bankId : Str) (kept : Bool) (message : Str) :
    KeepsTo bankId kept (giveUp message) :=
  keepsTo_cons _ _ _ _ (inert_log message)
    (keepsTo_cons _ _ _ _ (inert_exit 1) (keepsTo_nil bankId kept))

/-- An activation begins with the switch to its bank; behind it there is no other, no copy
unless it is asked for, and no reboot unless the switch has succeeded. -/
theorem activate_split (script : HandlerEnv) (bankId keepConfig : Str) :
    ∃ rest, activateAndRebootDevice script bankId keepConfig =
        .setBootbank bankId (decide (script.setBootbank bankId = "true".toList)) :: rest ∧
      (∀ id success, .setBootbank id success ∉ rest) ∧
      (∀ success, .copyConfig success ∈ rest → keepConfig = "1".toList) ∧
      (script.setBootbank bankId ≠ "true".toList → .reboot ∉ rest) := by
  refine ⟨_, rfl, ?_, ?_, ?_⟩
  · intro id success
    repeat' split
    all_goals simp [giveUp, restartDevice]
  · intro success
    repeat' split
    all_goals first | exact fun _ => ‹_› | simp [giveUp, restartDevice]
  · intro hset
    rw [decide_eq_false hset, Bool.not_false, if_pos rfl]
    simp [giveUp]

/-- An activation that is told to copy only what is kept. -/
theorem activate_keepsTo (script : HandlerEnv) (bankId keepConfig : Str) (kept : Bool)
    (h : kept = false → keepConfig ≠ "1".toList) :
    KeepsTo bankId kept (activateAndRebootDevice script bankId keepConfig) := by
  obtain ⟨rest, hsteps, hown, hcopy, hreboot⟩ := activate_split script bankId keepConfig
  rw [hsteps]
  refine ⟨fun id success hmem => ?_, ?_, fun hkept success hmem => ?_⟩
  · rcases List.mem_cons.mp hmem with heq | hmem
    · exact (Step.setBootbank.inj heq).1
    · exact absurd hmem (hown id success)
  · refine precedes_cons _ _ _ (by simp) ?_
    by_cases hset : script.setBootbank bankId = "true".toList
    · exact Or.inl (by rw [decide_eq_true hset])
    · refine Or.inr fun pre post heq => absurd ?_ (hreboot hset)
      rw [heq]
      exact List.mem_append_right _ (List.mem_cons_self ..)
  · rcases List.mem_cons.mp hmem with heq | hmem
    · exact nomatch heq
    · exact h hkept (hcopy success hmem)

theorem force_keepsTo (script : HandlerEnv) (bankId force keepConfig : Str) (kept : Bool)
    (h : kept = false → keepConfig ≠ "1".toList) :
    KeepsTo bankId kept (forceActivation script bankId force keepConfig) := by
  unfold forceActivation
  split
  · exact activate_keepsTo script bankId keepConfig kept h
  · exact keepsTo_cons _ _ _ _ (inert_exit 1) (keepsTo_nil bankId kept)

theorem idleLoop_keepsTo (script : HandlerEnv) (bankId endTime force keepConfig : Str)
    (kept : Bool) (h : kept = false → keepConfig ≠ "1".toList) (rounds k : ℕ) :
    KeepsTo bankId kept (idleLoop script bankId endTime force keepConfig rounds k) := by
  have hfound := activate_keepsTo script bankId [] kept fun _ => by decide
  have hforce := force_keepsTo script bankId force keepConfig kept h
  induction rounds generalizing k with
  | zero => exact keepsTo_nil bankId kept
  | succ rounds ih =>
    rw [idleLoop]
    split
    · apply keepsTo_cons _ _ _ _ (inert_checkIdle _)
      split
      · exact hfound
      split
      · exact keepsTo_cons _ _ _ _ (inert_sleep _) (ih (k + 1))
      · exact hforce
    · exact hforce

theorem handler_keepsTo (script : HandlerEnv) (args : List Str) (kept : Bool)
    (h : kept = false → param args 7 ≠ "1".toList) (rounds : ℕ) :
    KeepsTo (param args 2) kept (activateHandler script args rounds) := by
  unfold activateHandler
  dsimp only
  split
  · exact activate_keepsTo script _ _ kept h
  split
  · unfold handleWhenidleMode
    split
    · exact activate_keepsTo script _ [] kept fun _ => by decide
    apply keepsTo_cons _ _ _ _ (inert_checkIdle _)
    split
    · exact activate_keepsTo script _ [] kept fun _ => by decide
    have hloop := idleLoop_keepsTo script (param args 2) (param args 3) (param args 4)
      (param args 7) kept h rounds 1
    split
    · exact keepsTo_cons _ _ _ _ (inert_sleep _) hloop
    · exact hloop
  split
  · exact keepsTo_cons _ _ _ _ (inert_log _)
      (keepsTo_cons _ _ _ _ (inert_exit 0) (keepsTo_nil _ kept))
  · exact keepsTo_giveUp _ kept _

/-! ### Waiting for the device to be idle -/

/-- Every switch of the bank comes after a check that finds the device idle. -/
def SwitchesWhenIdle (steps : List Step) : Prop :=
  ∀ pre id success post, steps = pre ++ .setBootbank id success :: post → .checkIdle 0 ∈ pre

theorem switchesWhenIdle_nil : SwitchesWhenIdle [] := fun pre id success post h => by simp at h

theorem switchesWhenIdle_cons (x : Step) (steps : List Step)
    (hx : ∀ id success, x ≠ .setBootbank id success)
    (h : x = .checkIdle 0 ∨ SwitchesWhenIdle steps) : SwitchesWhenIdle (x :: steps) := by
  intro pre id success post heq
  cases pre with
  | nil => exact absurd (List.cons.inj heq).1 (hx id success)
  | cons y pre =>
    obtain ⟨rfl, hrest⟩ := List.cons.inj heq
    rcases h with rfl | h
    · exact List.mem_cons_self ..
    · exact List.mem_cons_of_mem _ (h pre id success post hrest)

theorem unforced_switchesWhenIdle (script : HandlerEnv) (bankId keepConfig : Str) :
    SwitchesWhenIdle (forceActivation script bankId "0".toList keepConfig) := by
  rw [forceActivation, if_neg (by decide)]
  exact switchesWhenIdle_cons _ _ (by simp) (Or.inr switchesWhenIdle_nil)

theorem idleLoop_switchesWhenIdle (script : HandlerEnv) (bankId endTime keepConfig : Str)
    (rounds k : ℕ) :
    SwitchesWhenIdle (idleLoop script bankId endTime "0".toList keepConfig rounds k) := by
  have hforce := unforced_switchesWhenIdle script bankId keepConfig
  induction rounds generalizing k with
  | zero => exact switchesWhenIdle_nil
  | succ rounds ih =>
    rw [idleLoop]
    split
    · apply switchesWhenIdle_cons _ _ (by simp)
      by_cases hidle : script.checkIdle k = 0
      · exact Or.inl (by rw [hidle])
      refine Or.inr ?_
      rw [if_neg hidle]
      split
      · exact switchesWhenIdle_cons _ _ (by simp) (Or.inr (ih (k + 1)))
      · exact hforce
    · exact hforce

/-- Without the flag that forces it, an activation waits for the device to be idle, if the
idle script can be executed. -/
theorem whenidle_switchesWhenIdle (script : HandlerEnv) (bankId endTime keepConfig : Str)
    (rounds : ℕ) (hexec : script.checkIdleExecutable = true) :
    SwitchesWhenIdle
      (handleWhenidleMode script bankId endTime "0".toList keepConfig rounds) := by
  rw [handleWhenidleMode, hexec, Bool.not_true, if_neg Bool.false_ne_true]
  apply switchesWhenIdle_cons _ _ (by simp)
  by_cases hidle : script.checkIdle 0 = 0
  · exact Or.inl (by rw [hidle])
  refine Or.inr ?_
  have hloop := idleLoop_switchesWhenIdle script bankId endTime keepConfig rounds 1
  rw [if_neg hidle]
  split
  · exact switchesWhenIdle_cons _ _ (by simp) (Or.inr hloop)
  · exact hloop

/-! ### The windows -/

/-- What a line of the crontab does for its window: it keeps to the bank and to what
KeepConfig says, copies before it reboots unless it waits for the device to be idle, does
nothing where a confirmation is needed, and where it waits in a window that is not the
last, it switches only after a check that finds the device idle, if there is a script
to check it. -/
structure ServesWindow (script : HandlerEnv) (mode : Str) (last : Bool) (bankId : Str) (kept : Bool)
    (steps : List Step) : Prop where
  keepsTo : KeepsTo bankId kept steps
  copied : kept = true → mode ≠ "WhenIdle".toList → CopiesBeforeReboot steps
  unconfirmed : mode = "ConfirmationNeeded".toList →
    ∀ id success, .setBootbank id success ∉ steps
  waited : mode = "WhenIdle".toList → last = false → script.checkIdleExecutable = true →
    SwitchesWhenIdle steps

theorem handler_confirmation (script : HandlerEnv) (args : List Str) (rounds : ℕ)
    (h : param args 1 = "ConfirmationNeeded".toList) :
    activateHandler script args rounds = handleConfirmationNeededMode := by
  unfold activateHandler
  dsimp only
  rw [if_neg (by rw [h]; decide), if_neg (by rw [h]; decide), if_pos h]

theorem handler_whenidle (script : HandlerEnv) (args : List Str) (rounds : ℕ)
    (h : param args 1 = "WhenIdle".toList) :
    activateHandler script args rounds = handleWhenidleMode script (param args 2) (param args 3)
      (param args 4) (param args 7) rounds := by
  unfold activateHandler
  dsimp only
  rw [if_neg (by rw [h]; decide), if_pos h]

/-- The handler called with the arguments of a job serves its window. -/
theorem handler_serves (script : HandlerEnv) (j : Job) (kept : Bool)
    (hkeep : j.keepConfig = keepText kept) (rounds : ℕ) :
    ServesWindow script j.mode j.force j.bankId kept (activateHandler script j.args rounds) := by
  have harg : param j.args 7 = j.keepConfig := rfl
  have hmode : param j.args 1 = j.mode := rfl
  refine ⟨?_, fun hkept hne => ?_, fun hconfirm => ?_, fun hwait hlast hexec => ?_⟩
  · refine handler_keepsTo script j.args kept (fun hkept => ?_) rounds
    rw [harg, hkeep, hkept]
    decide
  · have hone : param j.args 7 = "1".toList := by
      rw [harg, hkeep, hkept]
      rfl
    exact (handler_copies_iff script j.args hone).mpr (fun h => hne h.1) rounds
  · rw [handler_confirmation script j.args rounds (hmode.trans hconfirm)]
    intro id success hmem
    simp [handleConfirmationNeededMode] at hmem
  · have hforce : param j.args 4 = "0".toList := by
      show (if j.force = true then "1".toList else "0".toList) = _
      rw [hlast]
      rfl
    rw [handler_whenidle script j.args rounds (hmode.trans hwait), hforce]
    exact whenidle_switchesWhenIdle script _ _ _ rounds hexec

/-! ### The request -/

/-- The fields of a line that is run at a minute of the year. -/
def minuteFields (time : Tm) : List Str :=
  [printInt time.min, printInt time.hour, printInt time.mday, printInt (time.mon + 1), "*".toList]

/-- For each window of the request the text has a line, which is run at the minute of the
window's start and serves the window, whatever the script meets. -/
def Schedules (text bankId : Str) (kept : Bool) (start : ℕ → Window → Tm) (ws : List Window) :
    Prop :=
  ∃ ls, Cron.Lines text ls ∧ ls.length = ws.length ∧
    ∀ (i : ℕ) line w, ls[i]? = some line → ws[i]? = some w →
      (Cron.readEntry line).map Cron.Entry.schedule = some (minuteFields (start i w)) ∧
      ∀ script rounds, ∃ steps, runLine script rounds line = some steps ∧
        ServesWindow script w.mode (i + 1 == ws.length) bankId kept steps

theorem runs_getElem? {ls : List Str} {jobs : List Job} (h : List.Forall₂ Runs ls jobs) (i : ℕ)
    (line : Str) (j : Job) (hline : ls[i]? = some line) (hj : jobs[i]? = some j) : Runs line j := by
  obtain ⟨hi, rfl⟩ := List.getElem?_eq_some_iff.mp hline
  obtain ⟨hi', rfl⟩ := List.getElem?_eq_some_iff.mp hj
  exact h.get hi hi'

theorem scheduled_of_runs (api : Bbfdm) (env : Env) (bankId text : Str) (kept : Bool)
    (ws : List Window) (h : RunsJobs text (windowJobs api env bankId (keepText kept) ws)) :
    Schedules text bankId kept
      (fun i w => (windowJob api env bankId (keepText kept) ws.length i w).time) ws := by
  obtain ⟨ls, hlines, hruns⟩ := h
  refine ⟨ls, hlines, ?_, fun i line w hline hw => ?_⟩
  · rw [hruns.length_eq, windowJobs, List.length_mapIdx]
  have hjob : (windowJobs api env bankId (keepText kept) ws)[i]? =
      some (windowJob api env bankId (keepText kept) ws.length i w) := by
    rw [windowJobs, List.getElem?_mapIdx, hw]
    rfl
  have hrun := runs_getElem? hruns i line _ hline hjob
  have hread := hrun
  obtain ⟨e, hentry, hschedule, -⟩ := hread
  refine ⟨?_, fun script rounds => ⟨_, runLine_of_runs script rounds line _ hrun, ?_⟩⟩
  · rw [hentry, Option.map_some, hschedule]
    rfl
  · exact handler_serves script (windowJob api env bankId (keepText kept) ws.length i w) kept rfl
      rounds

end Sysmngr.FwImages
