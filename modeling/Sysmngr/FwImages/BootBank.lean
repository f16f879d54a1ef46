import Sysmngr.FwImages.WhenIdle

/-!
# The boot bank after the handler (`bbf_activate_handler.sh`)

The handler switches the boot bank first and copies the configuration after that. Where
the copy fails it exits without a reboot, and the boot bank stays switched.
-/

namespace Sysmngr.FwImages
open Text Polling

variable {β : Type}

/-- The boot bank behind the steps, `select` being what a switch that reports success
makes of it. -/
def bootBankAfter (select : Str → β → β) : β → List Step → β
  | bank, [] => bank
  | bank, .setBootbank bankId true :: rest => bootBankAfter select (select bankId bank) rest
  | bank, _ :: rest => bootBankAfter select bank rest

def KeepsBootBank (select : Str → β → β) (bank : β) (steps : List Step) : Prop :=
  Ended steps → .reboot ∉ steps → bootBankAfter select bank steps = bank

def HandlerEnv.Expires (env : HandlerEnv) (endTime : Str) : Prop :=
  env.checkIdle 0 ≠ 0 ∧ ∃ j, 1 ≤ j ∧
    ((idlePoll env endTime).Reaches 1 (.closed j) ∨ (idlePoll env endTime).Reaches 1 (.late j))

section Handler
variable (select : Str → β → β) (bank : β) (env : HandlerEnv)

/-- The switch succeeds and changes the boot bank, and the copy that is asked for fails. -/
def HandlerEnv.Strands (bankId keepConfig : Str) : Prop :=
  env.Switches bankId ∧ select bankId bank ≠ bank ∧ keepConfig = "1".toList ∧
    env.copyConfig ≠ "true".toList

/-! ### Steps -/

theorem keeps_cons (x : Step) (steps : List Step) (hexit : ∀ status, x ≠ .exit status)
    (hreboot : x ≠ .reboot) (hbank : ∀ bankId, x ≠ .setBootbank bankId true) :
    KeepsBootBank select bank (x :: steps) ↔ KeepsBootBank select bank steps := by
  have hafter : bootBankAfter select bank (x :: steps) = bootBankAfter select bank steps := by
    rcases x with ⟨bankId, _ | _⟩ | _ | _ | _ | _ | _ | _
    case setBootbank.true => exact absurd rfl (hbank bankId)
    all_goals rfl
  have hmem : Step.reboot ∈ x :: steps ↔ Step.reboot ∈ steps := by
    rw [List.mem_cons]
    exact or_iff_right hreboot.symm
  have hended : Ended (x :: steps) ↔ Ended steps := by
    constructor
    · rintro ⟨status, hlast⟩
      cases steps with
      | nil => exact absurd (Option.some.inj hlast) (hexit status)
      | cons y steps => exact ⟨status, by rw [← hlast, List.getLast?_cons_cons]⟩
    · exact ended_append [x] steps
  simp only [KeepsBootBank, hafter, hmem, hended]

theorem keeps_waits (k j : ℕ) (steps : List Step) :
    KeepsBootBank select bank (waitSteps env k j ++ steps) ↔ KeepsBootBank select bank steps := by
  unfold waitSteps
  induction j - k generalizing k with
  | zero => rfl
  | succ n ih =>
    rw [List.range'_succ, List.flatMap_cons, List.append_assoc]
    simp only [List.cons_append, List.nil_append]
    rw [keeps_cons select bank _ _ (by simp) (by simp) (by simp),
      keeps_cons select bank _ _ (by simp) (by simp) (by simp)]
    exact ih (k + 1)

theorem keeps_first (endTime : Str) (steps : List Step) :
    KeepsBootBank select bank (firstSteps env endTime ++ steps) ↔
      KeepsBootBank select bank steps := by
  unfold firstSteps
  rw [List.cons_append, keeps_cons select bank _ _ (by simp) (by simp) (by simp)]
  split
  · exact keeps_cons select bank _ _ (by simp) (by simp) (by simp)
  · rfl

theorem keeps_of_waits (k j : ℕ) : KeepsBootBank select bank (waitSteps env k j) := by
  have hkeeps := (keeps_waits select bank env k j []).mpr fun _ _ => rfl
  rwa [List.append_nil] at hkeeps

theorem activate_refused (bankId keepConfig : Str) (h : ¬env.Switches bankId) :
    ∃ message, activateAndRebootDevice env bankId keepConfig =
      .setBootbank bankId false :: giveUp message := by
  refine ⟨"Can't activate the bank id ".toList ++ bankId, ?_⟩
  unfold HandlerEnv.Switches at h
  simp only [activateAndRebootDevice, h, decide_false, Bool.not_false, if_true]

theorem activate_uncopied (bankId keepConfig : Str) (h : env.Switches bankId)
    (hkeep : keepConfig = "1".toList) (hcopy : env.copyConfig ≠ "true".toList) :
    ∃ message, activateAndRebootDevice env bankId keepConfig =
      .setBootbank bankId true :: .copyConfig false :: giveUp message := by
  refine ⟨"Can't copy config".toList, ?_⟩
  unfold HandlerEnv.Switches at h
  simp only [activateAndRebootDevice, h, hkeep, hcopy, decide_true, decide_false, Bool.not_true,
    Bool.not_false, Bool.false_eq_true, if_false, if_true]

theorem activate_reboots (bankId keepConfig : Str) (h : env.Switches bankId)
    (hcopy : keepConfig = "1".toList → env.copyConfig = "true".toList) :
    .reboot ∈ activateAndRebootDevice env bankId keepConfig := by
  have hrestart : .reboot ∈ restartDevice := List.mem_cons_of_mem _ (List.mem_cons_self ..)
  unfold HandlerEnv.Switches at h
  by_cases hkeep : keepConfig = "1".toList
  · simp only [activateAndRebootDevice, h, hkeep, hcopy hkeep, decide_true, Bool.not_true,
      Bool.false_eq_true, if_false, if_true]
    exact List.mem_cons_of_mem _ (List.mem_cons_of_mem _ hrestart)
  · simp only [activateAndRebootDevice, h, hkeep, decide_true, Bool.not_true,
      Bool.false_eq_true, if_false]
    exact List.mem_cons_of_mem _ hrestart

theorem activate_keeps_iff (bankId keepConfig : Str) :
    KeepsBootBank select bank (activateAndRebootDevice env bankId keepConfig) ↔
      ¬env.Strands select bank bankId keepConfig := by
  have hended := (activate_commands env bankId keepConfig).ended
  by_cases hset : env.Switches bankId
  · by_cases hcopy : keepConfig = "1".toList → env.copyConfig = "true".toList
    · have hreboot := activate_reboots env bankId keepConfig hset hcopy
      exact iff_of_true (fun _ hno => absurd hreboot hno) fun h => h.2.2.2 (hcopy h.2.2.1)
    · rw [Classical.not_imp] at hcopy
      obtain ⟨message, hsteps⟩ := activate_uncopied env bankId keepConfig hset hcopy.1 hcopy.2
      rw [hsteps] at hended ⊢
      have hno : Step.reboot ∉
          .setBootbank bankId true :: .copyConfig false :: giveUp message := by
        simp [giveUp]
      rw [KeepsBootBank, imp_iff_right hended, imp_iff_right hno, HandlerEnv.Strands]
      change select bankId bank = bank ↔ _
      simp only [hset, hcopy.1, hcopy.2, true_and, ne_eq, not_false_eq_true, and_true, not_not]
  · obtain ⟨message, hsteps⟩ := activate_refused env bankId keepConfig hset
    rw [hsteps]
    exact iff_of_true (fun _ _ => rfl) fun h => hset h.1

theorem force_keeps_iff (bankId force keepConfig : Str) :
    KeepsBootBank select bank (forceActivation env bankId force keepConfig) ↔
      ¬(force = "1".toList ∧ env.Strands select bank bankId keepConfig) := by
  unfold forceActivation
  split
  · rename_i hforce
    rw [activate_keeps_iff]
    simp [hforce]
  · rename_i hforce
    exact iff_of_true (fun _ _ => rfl) fun h => hforce h.1

theorem activate_keeps (bankId : Str) :
    KeepsBootBank select bank (activateAndRebootDevice env bankId []) :=
  (activate_keeps_iff select bank env bankId []).mpr fun h => absurd h.2.2.1 (by decide)

/-! ### Whole runs -/

theorem end_keeps_iff (bankId force keepConfig : Str) (o : Outcome) :
    KeepsBootBank select bank (endSteps env bankId force keepConfig o) ↔
      ¬((∀ k, o ≠ .found k) ∧ force = "1".toList ∧
        env.Strands select bank bankId keepConfig) := by
  cases o with
  | found k =>
    rw [endSteps, keeps_cons select bank _ _ (by simp) (by simp) (by simp)]
    exact iff_of_true (activate_keeps select bank env bankId) fun h => h.1 k rfl
  | closed k =>
    rw [endSteps, force_keeps_iff]
    simp
  | late k =>
    rw [endSteps, keeps_cons select bank _ _ (by simp) (by simp) (by simp), force_keeps_iff]
    simp

theorem whenidle_keeps_iff (bankId endTime force keepConfig : Str) :
    (∀ rounds, KeepsBootBank select bank
        (handleWhenidleMode env bankId endTime force keepConfig rounds)) ↔
      ¬(env.checkIdleExecutable = true ∧ env.Expires endTime ∧ force = "1".toList ∧
        env.Strands select bank bankId keepConfig) := by
  by_cases hexec : env.checkIdleExecutable = true
  · by_cases hzero : env.checkIdle 0 = 0
    · refine iff_of_true (fun rounds => ?_) fun h => h.2.1.1 hzero
      simp only [handleWhenidleMode, hexec, Bool.not_true, Bool.false_eq_true, if_false, hzero,
        if_true]
      rw [keeps_cons select bank _ _ (by simp) (by simp) (by simp)]
      exact activate_keeps select bank env bankId
    · simp only [whenidle_steps env bankId endTime force keepConfig _ hexec hzero, keeps_first,
        hexec, true_and]
      constructor
      · rintro h ⟨⟨-, j, hj, hreach⟩, hforced⟩
        obtain ⟨o, ho, hlast, hend⟩ : ∃ o, (idlePoll env endTime).Reaches 1 o ∧ o.last = j ∧
            ∀ k, o ≠ .found k := by
          rcases hreach with hreach | hreach
          · exact ⟨_, hreach, rfl, by simp⟩
          · exact ⟨_, hreach, rfl, by simp⟩
        have hout := Poll.outcome_of_reaches _ j 1 o ho (by omega)
        have hkeeps := h j
        rw [(idleLoop_outcome env bankId endTime force keepConfig j 1 o hout).1, keeps_waits,
          end_keeps_iff] at hkeeps
        exact hkeeps ⟨hend, hforced⟩
      · intro hno rounds
        cases hout : (idlePoll env endTime).outcome rounds 1 with
        | none =>
          rw [idleLoop_unfinished _ _ _ _ _ _ _ hout]
          exact keeps_of_waits select bank env _ _
        | some o =>
          have hreach := (Poll.reaches_of_outcome _ _ _ _ hout).1
          rw [(idleLoop_outcome env bankId endTime force keepConfig rounds 1 o hout).1, keeps_waits,
            end_keeps_iff]
          rintro ⟨hend, hforced⟩
          refine hno ⟨⟨hzero, o.last, hreach.le, ?_⟩, hforced⟩
          cases o with
          | found k => exact absurd rfl (hend k)
          | closed k => exact Or.inl hreach
          | late k => exact Or.inr hreach
  · refine iff_of_true (fun rounds => ?_) fun h => hexec h.1
    simp only [handleWhenidleMode, hexec, Bool.not_false, if_true]
    exact activate_keeps select bank env bankId

/-- The mode, the force flag and the idle checks lead to an activation that is told to
keep the configuration as the arguments say. -/
def HandlerEnv.ActivatesKeeping (args : List Str) : Prop :=
  param args 1 = "Immediately".toList ∨ param args 1 = "AnyTime".toList ∨
    (param args 1 = "WhenIdle".toList ∧ env.checkIdleExecutable = true ∧
      env.Expires (param args 3) ∧ param args 4 = "1".toList)

/-- A run that ends without a reboot leaves the boot bank as it was, unless it comes to
an activation in which the switch changes the bank and the copy fails. -/
theorem handler_keeps_iff (args : List Str) :
    (∀ rounds, KeepsBootBank select bank (activateHandler env args rounds)) ↔
      ¬(env.ActivatesKeeping args ∧
        env.Strands select bank (param args 2) (param args 7)) := by
  unfold activateHandler HandlerEnv.ActivatesKeeping
  by_cases hnow : param args 1 = "Immediately".toList ∨ param args 1 = "AnyTime".toList
  · simp only [if_pos hnow, forall_const]
    rw [activate_keeps_iff, ← or_assoc]
    simp only [hnow, true_or, true_and]
  · rw [← or_assoc]
    simp only [hnow, if_false, false_or]
    by_cases hmode : param args 1 = "WhenIdle".toList
    · simp only [hmode, if_true, true_and]
      rw [whenidle_keeps_iff]
      simp only [and_assoc]
    · simp only [hmode, if_false, false_and, not_false_eq_true, iff_true]
      intro rounds
      split
      · exact fun _ _ => rfl
      · exact fun _ _ => rfl

end Handler

def selectBank (bankId : Str) (_ : Str) : Str := bankId

def copyFails : HandlerEnv where
  setBootbank _ := "true".toList
  copyConfig := "false".toList
  checkIdleExecutable := true
  checkIdle _ := 0
  date k := 300 * k

/-- The copy fails after the switch to bank 2. -/
theorem failed_copy_leaves_bank_switched :
    ¬∀ (select : Str → Str → Str) (bank : Str) (env : HandlerEnv) (args : List Str)
      (rounds : ℕ), KeepsBootBank select bank (activateHandler env args rounds) := by
  intro hall
  have h := hall selectBank "1".toList copyFails
    ["AnyTime".toList, "2".toList, "1800".toList, "1".toList, [], [], "1".toList] 0
  have hbank := h ⟨1, rfl⟩ (by decide)
  exact absurd hbank (by decide)

end Sysmngr.FwImages
