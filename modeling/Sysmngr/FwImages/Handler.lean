import Sysmngr.FwImages.Activate

/-!
# The activate handler (`bbf_activate_handler.sh`)

Run by cron at the start of a time window. In the mode `WhenIdle` it checks every
`RETRY_TIME` seconds whether the device is idle until the window ends, and then, in the
last window only, activates without waiting any longer.
-/

namespace Sysmngr.FwImages
open Text Uci Blobmsg Fwbank

/-! ### Numbers in the shell -/

/-- The number an operand of `test` stands for. -/
def testNumber (s : Str) : Option ℤ :=
  match s with
  | '-' :: digits =>
    if digits ≠ [] ∧ digits.all Char.isDigit ∧ digitsValue digits ≤ 2 ^ 63 then
      some (-(digitsValue digits : ℤ))
    else none
  | digits =>
    if digits ≠ [] ∧ digits.all Char.isDigit ∧ digitsValue digits < 2 ^ 63 then
      some (digitsValue digits)
    else none

/-- `[ "$s" -gt "$z" ]`: an operand that is no number is an error, which is not success. -/
def testGt (s : Str) (z : ℤ) : Bool := (testNumber s).any fun n => decide (n > z)

/-! ### The script -/

def RETRY_TIME : ℤ := 300

/-- What the script meets: what `@.success` reads of the answers to `set_bootbank` and
`copy_config`, whether the idle script can be executed and the exit status of each of
its runs, and each reading of the clock, the first being `START_TIME`. -/
structure HandlerEnv where
  setBootbank : Str → Str
  copyConfig : Str
  checkIdleExecutable : Bool
  checkIdle : ℕ → ℕ
  date : ℕ → ℤ

inductive Step where
  | setBootbank (bankId : Str) (success : Bool)
  | copyConfig (success : Bool)
  | reboot
  | checkIdle (status : ℕ)
  | sleep (seconds : ℤ)
  | log (message : Str)
  | exit (status : ℕ)
  deriving DecidableEq, Repr

def giveUp (message : Str) : List Step := [.log message, .exit 1]

def restartDevice : List Step :=
  [.log "The device will restart after a few seconds".toList, .reboot, .exit 0]

def activateAndRebootDevice (env : HandlerEnv) (bankId keepConfig : Str) : List Step :=
  let switched := decide (env.setBootbank bankId = "true".toList)
  let copied := decide (env.copyConfig = "true".toList)
  .setBootbank bankId switched ::
    if !switched then giveUp ("Can't activate the bank id ".toList ++ bankId)
    else if keepConfig = "1".toList then
      .copyConfig copied :: if !copied then giveUp "Can't copy config".toList else restartDevice
    else restartDevice

def HandlerEnv.diff (env : HandlerEnv) (k : ℕ) : ℤ := env.date k - env.date 0

def forceActivation (env : HandlerEnv) (bankId force keepConfig : Str) : List Step :=
  if force = "1".toList then activateAndRebootDevice env bankId keepConfig else [.exit 1]

/-- At most `rounds` rounds of the loop, the next check being the one numbered `k`. -/
def idleLoop (env : HandlerEnv) (bankId endTime force keepConfig : Str) : ℕ → ℕ → List Step
  | 0, _ => []
  | rounds + 1, k =>
    if testGt endTime (env.diff k) then
      .checkIdle (env.checkIdle k) ::
        if env.checkIdle k = 0 then activateAndRebootDevice env bankId []
        else if testGt endTime (env.diff k + RETRY_TIME) then
          .sleep RETRY_TIME :: idleLoop env bankId endTime force keepConfig rounds (k + 1)
        else forceActivation env bankId force keepConfig
    else forceActivation env bankId force keepConfig

def handleWhenidleMode (env : HandlerEnv) (bankId endTime force keepConfig : Str)
    (rounds : ℕ) : List Step :=
  if !env.checkIdleExecutable then activateAndRebootDevice env bankId []
  else
    .checkIdle (env.checkIdle 0) ::
      if env.checkIdle 0 = 0 then activateAndRebootDevice env bankId []
      else
        (if testGt endTime (0 + RETRY_TIME) then [.sleep RETRY_TIME] else []) ++
          idleLoop env bankId endTime force keepConfig rounds 1

def handleConfirmationNeededMode : List Step :=
  [.log "[ConfirmationNeeded] mode is not implemented".toList, .exit 0]

/-- The positional parameters `$1` to `$7`; one that is not given is empty. -/
def param (args : List Str) (i : ℕ) : Str := args.getD (i - 1) []

/-- A run of the script as far as `rounds` rounds of its loop take it. -/
def activateHandler (env : HandlerEnv) (args : List Str) (rounds : ℕ) : List Step :=
  let mode := param args 1
  if mode = "Immediately".toList ∨ mode = "AnyTime".toList then
    activateAndRebootDevice env (param args 2) (param args 7)
  else if mode = "WhenIdle".toList then
    handleWhenidleMode env (param args 2) (param args 3) (param args 4) (param args 7) rounds
  else if mode = "ConfirmationNeeded".toList then handleConfirmationNeededMode
  else giveUp ("[".toList ++ mode ++ "] mode is not supported".toList)

/-! ### The copy of the configuration -/

/-- Every reboot comes after a copy that succeeded. -/
def CopiesBeforeReboot (steps : List Step) : Prop :=
  ∀ pre post, steps = pre ++ .reboot :: post → .copyConfig true ∈ pre

@[simp] theorem copies_nil : CopiesBeforeReboot [] := fun pre post h => by simp at h

@[simp] theorem copies_copy (l : List Step) : CopiesBeforeReboot (.copyConfig true :: l) := by
  intro pre post h
  cases pre with
  | nil => simp at h
  | cons x pre =>
    obtain rfl := (List.cons.inj h).1
    exact List.mem_cons_self ..

@[simp] theorem not_copies_reboot (l : List Step) : ¬CopiesBeforeReboot (.reboot :: l) :=
  fun h => absurd (h [] l rfl) List.not_mem_nil

theorem copies_cons (x : Step) (l : List Step) (hcopy : x ≠ .copyConfig true)
    (hreboot : x ≠ .reboot) : CopiesBeforeReboot (x :: l) ↔ CopiesBeforeReboot l := by
  constructor
  · intro h pre post heq
    rcases List.mem_cons.mp (h (x :: pre) post (congrArg (x :: ·) heq)) with hx | hmem
    · exact absurd hx.symm hcopy
    · exact hmem
  · intro h pre post heq
    cases pre with
    | nil => exact absurd (List.cons.inj heq).1 hreboot
    | cons y pre => exact List.mem_cons_of_mem _ (h pre post (List.cons.inj heq).2)

@[simp] theorem copies_setBootbank (bankId : Str) (success : Bool) (l : List Step) :
    CopiesBeforeReboot (.setBootbank bankId success :: l) ↔ CopiesBeforeReboot l :=
  copies_cons _ _ (by simp) (by simp)

@[simp] theorem copies_copy_failed (l : List Step) :
    CopiesBeforeReboot (.copyConfig false :: l) ↔ CopiesBeforeReboot l :=
  copies_cons _ _ (by simp) (by simp)

@[simp] theorem copies_checkIdle (status : ℕ) (l : List Step) :
    CopiesBeforeReboot (.checkIdle status :: l) ↔ CopiesBeforeReboot l :=
  copies_cons _ _ (by simp) (by simp)

@[simp] theorem copies_sleep (seconds : ℤ) (l : List Step) :
    CopiesBeforeReboot (.sleep seconds :: l) ↔ CopiesBeforeReboot l :=
  copies_cons _ _ (by simp) (by simp)

@[simp] theorem copies_log (message : Str) (l : List Step) :
    CopiesBeforeReboot (.log message :: l) ↔ CopiesBeforeReboot l :=
  copies_cons _ _ (by simp) (by simp)

@[simp] theorem copies_exit (status : ℕ) (l : List Step) :
    CopiesBeforeReboot (.exit status :: l) ↔ CopiesBeforeReboot l :=
  copies_cons _ _ (by simp) (by simp)

@[simp] theorem copies_giveUp (message : Str) : CopiesBeforeReboot (giveUp message) := by
  simp only [giveUp, copies_log, copies_exit, copies_nil]

@[simp] theorem not_copies_restart : ¬CopiesBeforeReboot restartDevice := by
  rw [restartDevice, copies_log]
  exact not_copies_reboot _

def HandlerEnv.Switches (env : HandlerEnv) (bankId : Str) : Prop :=
  env.setBootbank bankId = "true".toList

theorem activate_copies_iff (env : HandlerEnv) (bankId keepConfig : Str) :
    CopiesBeforeReboot (activateAndRebootDevice env bankId keepConfig) ↔
      ¬env.Switches bankId ∨ keepConfig = "1".toList := by
  simp only [activateAndRebootDevice, HandlerEnv.Switches, copies_setBootbank]
  by_cases hset : env.setBootbank bankId = "true".toList
  · by_cases hkeep : keepConfig = "1".toList
    · by_cases hcopy : env.copyConfig = "true".toList
      · simp only [hset, hkeep, hcopy, decide_true, Bool.not_true, Bool.false_eq_true, if_false,
          if_true, copies_copy, or_true]
      · simp only [hset, hkeep, hcopy, decide_true, decide_false, Bool.not_true, Bool.not_false,
          Bool.false_eq_true, if_false, if_true, copies_copy_failed, copies_giveUp, or_true]
    · simp only [hset, hkeep, decide_true, Bool.not_true, Bool.false_eq_true, if_false,
        not_copies_restart, not_true_eq_false, or_self]
  · simp only [hset, decide_false, Bool.not_false, if_true, copies_giveUp, not_false_eq_true,
      true_or]

theorem force_copies (env : HandlerEnv) (bankId force : Str) :
    CopiesBeforeReboot (forceActivation env bankId force "1".toList) := by
  unfold forceActivation
  split
  · exact (activate_copies_iff env bankId _).mpr (Or.inr rfl)
  · simp

/-! ### Which checks are reached -/

/-- The checks from `k` on are made as far as `j`: at each the window is open, and at
each but the last it stays open for one more sleep. -/
def HandlerEnv.Reaches (env : HandlerEnv) (endTime : Str) (k j : ℕ) : Prop :=
  ∀ i, k ≤ i → i ≤ j → testGt endTime (env.diff i) = true ∧
    (i < j → testGt endTime (env.diff i + RETRY_TIME) = true)

def HandlerEnv.FindsIdle (env : HandlerEnv) (endTime : Str) : Prop :=
  env.checkIdle 0 = 0 ∨ ∃ j, 1 ≤ j ∧ env.checkIdle j = 0 ∧ env.Reaches endTime 1 j

theorem reaches_succ (env : HandlerEnv) (endTime : Str) (k j : ℕ) (h : k + 1 ≤ j) :
    env.Reaches endTime k j ↔ testGt endTime (env.diff k) = true ∧
      testGt endTime (env.diff k + RETRY_TIME) = true ∧ env.Reaches endTime (k + 1) j := by
  constructor
  · intro hr
    have hk := hr k (Nat.le_refl k) (by omega)
    exact ⟨hk.1, hk.2 (by omega), fun i hi => hr i (by omega)⟩
  · rintro ⟨hopen, hsleep, hr⟩ i hi hj
    rcases Nat.eq_or_lt_of_le hi with rfl | hlt
    · exact ⟨hopen, fun _ => hsleep⟩
    · exact hr i hlt hj

theorem reaches_self (env : HandlerEnv) (endTime : Str) (k : ℕ) :
    env.Reaches endTime k k ↔ testGt endTime (env.diff k) = true := by
  constructor
  · intro h
    exact (h k (Nat.le_refl k) (Nat.le_refl k)).1
  · intro h i hi hk
    obtain rfl := Nat.le_antisymm hk hi
    exact ⟨h, fun hlt => absurd hlt (Nat.lt_irrefl _)⟩

theorem idleLoop_copies_of_refused (env : HandlerEnv) (bankId endTime force : Str)
    (hset : ¬env.Switches bankId) (rounds k : ℕ) :
    CopiesBeforeReboot (idleLoop env bankId endTime force "1".toList rounds k) := by
  have hnone := (activate_copies_iff env bankId []).mpr (Or.inl hset)
  have hforce := force_copies env bankId force
  induction rounds generalizing k with
  | zero => exact copies_nil
  | succ rounds ih =>
    rw [idleLoop]
    split
    · rw [copies_checkIdle]
      split
      · exact hnone
      split
      · rw [copies_sleep]
        exact ih (k + 1)
      · exact hforce
    · exact hforce

/-- The loop reboots without the copy in a round that is reached and finds the device idle. -/
theorem idleLoop_copies_iff (env : HandlerEnv) (bankId endTime force : Str)
    (hset : env.Switches bankId) (rounds k : ℕ) :
    CopiesBeforeReboot (idleLoop env bankId endTime force "1".toList rounds k) ↔
      ∀ j, k ≤ j → j < k + rounds → env.checkIdle j = 0 → ¬env.Reaches endTime k j := by
  induction rounds generalizing k with
  | zero => simp [idleLoop]; omega
  | succ rounds ih =>
    have hnone := activate_copies_iff env bankId []
    have hforce := force_copies env bankId force
    have hself := reaches_self env endTime k
    have hsucc := reaches_succ env endTime k
    rw [idleLoop]
    by_cases hopen : testGt endTime (env.diff k) = true
    · rw [if_pos hopen, copies_checkIdle]
      by_cases hidle : env.checkIdle k = 0
      · rw [if_pos hidle]
        refine iff_of_false ?_ fun h => ?_
        · rw [hnone]
          simp [hset]
        · exact h k (Nat.le_refl k) (by omega) hidle (hself.mpr hopen)
      · rw [if_neg hidle]
        by_cases hsleep : testGt endTime (env.diff k + RETRY_TIME) = true
        · rw [if_pos hsleep, copies_sleep, ih (k + 1)]
          constructor
          · intro h j hk hj hzero hr
            rcases Nat.eq_or_lt_of_le hk with rfl | hlt
            · exact hidle hzero
            · exact h j hlt (by omega) hzero ((hsucc j hlt).mp hr).2.2
          · intro h j hk hj hzero hr
            exact h j (by omega) (by omega) hzero ((hsucc j hk).mpr ⟨hopen, hsleep, hr⟩)
        · rw [if_neg hsleep]
          refine iff_of_true hforce fun j hk hj hzero hr => ?_
          rcases Nat.eq_or_lt_of_le hk with rfl | hlt
          · exact hidle hzero
          · exact hsleep ((hsucc j hlt).mp hr).2.1
    · rw [if_neg hopen]
      refine iff_of_true hforce fun j hk _ _ hr => ?_
      exact hopen (hr k (Nat.le_refl k) hk).1

/-! ### Whole activations -/

/-- The mode, the switch and the idle checks lead to an activation that is not told to
keep the configuration. -/
def HandlerEnv.SkipsCopy (env : HandlerEnv) (args : List Str) : Prop :=
  param args 1 = "WhenIdle".toList ∧ env.Switches (param args 2) ∧
    (env.checkIdleExecutable = false ∨ env.FindsIdle (param args 3))

theorem whenidle_copies_iff (env : HandlerEnv) (bankId endTime force : Str) :
    (∀ rounds, CopiesBeforeReboot
        (handleWhenidleMode env bankId endTime force "1".toList rounds)) ↔
      ¬(env.Switches bankId ∧ (env.checkIdleExecutable = false ∨ env.FindsIdle endTime)) := by
  have hnone : CopiesBeforeReboot (activateAndRebootDevice env bankId []) ↔ ¬env.Switches bankId :=
    (activate_copies_iff env bankId []).trans (or_iff_left (by decide))
  unfold handleWhenidleMode
  cases hexec : env.checkIdleExecutable with
  | false => simpa using hnone
  | true =>
    simp only [Bool.not_true, Bool.false_eq_true, if_false, copies_checkIdle, Bool.true_eq_false,
      false_or]
    by_cases hidle : env.checkIdle 0 = 0
    · simpa [hidle, HandlerEnv.FindsIdle] using hnone
    · simp only [HandlerEnv.FindsIdle, hidle, if_false, false_or]
      have hsleep : ∀ rounds, CopiesBeforeReboot
          ((if testGt endTime (0 + RETRY_TIME) then [Step.sleep RETRY_TIME] else []) ++
            idleLoop env bankId endTime force "1".toList rounds 1) ↔
          CopiesBeforeReboot (idleLoop env bankId endTime force "1".toList rounds 1) := by
        intro rounds
        split
        · exact copies_sleep RETRY_TIME _
        · rfl
      simp only [hsleep]
      by_cases hset : env.Switches bankId
      · simp only [idleLoop_copies_iff env bankId endTime force hset, hset, true_and]
        constructor
        · rintro h ⟨j, hj, hzero, hr⟩
          exact h j j hj (by omega) hzero hr
        · intro h rounds j hj _ hzero hr
          exact h ⟨j, hj, hzero, hr⟩
      · simp only [hset, false_and, not_false_eq_true, iff_true]
        intro rounds
        exact idleLoop_copies_of_refused env bankId endTime force hset rounds 1

theorem handler_copies_iff (env : HandlerEnv) (args : List Str)
    (hkeep : param args 7 = "1".toList) :
    (∀ rounds, CopiesBeforeReboot (activateHandler env args rounds)) ↔ ¬env.SkipsCopy args := by
  unfold activateHandler HandlerEnv.SkipsCopy
  rw [hkeep]
  by_cases hnow : param args 1 = "Immediately".toList ∨ param args 1 = "AnyTime".toList
  · have hmode : param args 1 ≠ "WhenIdle".toList := by
      rcases hnow with h | h <;> (rw [h]; decide)
    simp only [if_pos hnow, hmode, false_and, not_false_eq_true, iff_true]
    exact fun _ => (activate_copies_iff env _ _).mpr (Or.inr rfl)
  · simp only [if_neg hnow]
    by_cases hmode : param args 1 = "WhenIdle".toList
    · simp only [hmode, if_true, true_and]
      exact whenidle_copies_iff env _ _ _
    · simp only [hmode, if_false, false_and, not_false_eq_true, iff_true]
      intro rounds
      split
      · simp only [handleConfirmationNeededMode, copies_log, copies_exit, copies_nil]
      · exact copies_giveUp _

/-- The copy and the reboot among the effects of an operation, which does not look at
the result of the copy. -/
def rebootSteps (copied : Bool) (effects : List Effect) : List Step :=
  effects.flatMap fun
    | .copyConfig => [.copyConfig copied]
    | .reboot => [.reboot]
    | _ => []

theorem activate_now_copies_iff (api : Bbfdm) (env : Env) (s : State) (entry : Attr) (value : Args)
    (copied : Bool) (hnow : (windowArgs value 0).start.length = 0)
    (hkeep : keepConfig s = "1".toList) :
    CopiesBeforeReboot
        (rebootSteps copied (operateDeviceInfoFirmwareImageActivate api env s entry value).2) ↔
      getFwbankOptionValue entry "id" = [] ∨ env.forkOk = false ∨ copied = true := by
  rw [activate_now api env s entry value hnow, if_pos hkeep, ← or_assoc]
  split
  · rename_i hrefused
    exact iff_of_true copies_nil (Or.inl hrefused)
  · rename_i hforked
    rw [or_iff_right hforked]
    change CopiesBeforeReboot [.copyConfig copied, .reboot] ↔ copied = true
    cases copied <;> simp

/-- With the configuration to be kept, an activation copies it before every reboot
exactly when, run at once, it is refused or the copy succeeds and, run by the handler,
it does not come from the idle checks. -/
theorem activation_copies_iff (api : Bbfdm) (env : Env) (s : State) (entry : Attr) (value : Args)
    (copied : Bool) (script : HandlerEnv) (args : List Str) :
    ((windowArgs value 0).start.length = 0 → keepConfig s = "1".toList →
      (CopiesBeforeReboot
          (rebootSteps copied (operateDeviceInfoFirmwareImageActivate api env s entry value).2) ↔
        getFwbankOptionValue entry "id" = [] ∨ env.forkOk = false ∨ copied = true)) ∧
    (param args 7 = "1".toList →
      ((∀ rounds, CopiesBeforeReboot (activateHandler script args rounds)) ↔
        ¬script.SkipsCopy args)) :=
  ⟨activate_now_copies_iff api env s entry value copied, handler_copies_iff script args⟩

/-- A device that is idle at the first check of a window, and otherwise never. -/
def idleAtOnce (status : ℕ) : HandlerEnv where
  setBootbank _ := "true".toList
  copyConfig := "true".toList
  checkIdleExecutable := true
  checkIdle k := if k = 0 then status else 1
  date k := 300 * k

def whenIdleArgs : List Str :=
  ["WhenIdle".toList, "2".toList, "1800".toList, "1".toList, [], [], "1".toList]

theorem activation_copies_sample :
    CopiesBeforeReboot (rebootSteps true
        (operateDeviceInfoFirmwareImageActivate .plain .fine .fresh bankTwo noArgs).2) ∧
      ∀ rounds, CopiesBeforeReboot (activateHandler (idleAtOnce 1) whenIdleArgs rounds) := by
  obtain ⟨hnow, hhandler⟩ := activation_copies_iff .plain .fine .fresh bankTwo noArgs true
    (idleAtOnce 1) whenIdleArgs
  refine ⟨(hnow (by decide) (by decide)).mpr (by decide), (hhandler (by decide)).mpr ?_⟩
  rintro ⟨_, _, hexec | hzero | ⟨j, hj, hzero, _⟩⟩
  · exact absurd hexec (by decide)
  · exact absurd hzero (by decide)
  · simp [idleAtOnce] at hzero

/-- The device is idle at once: it reboots without the copy that `keep_config` asks for. -/
theorem idle_reboot_without_copy :
    ¬∀ (env : HandlerEnv) (args : List Str) (rounds : ℕ), param args 7 = "1".toList →
      CopiesBeforeReboot (activateHandler env args rounds) := by
  intro hall
  have h := hall (idleAtOnce 0) whenIdleArgs 0 (by decide)
  have hsteps : activateHandler (idleAtOnce 0) whenIdleArgs 0 =
      [.checkIdle 0, .setBootbank "2".toList true] ++ restartDevice := rfl
  rw [hsteps] at h
  simp at h

end Sysmngr.FwImages
