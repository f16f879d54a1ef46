import Sysmngr.FwImages.Handler
import Sysmngr.Polling

/-!
# The mode `WhenIdle` (`bbf_activate_handler.sh`)

The loop of the handler polls the idle script until the time window has no room for
another wait. Its run is given by the outcome of that polling.
-/

namespace Sysmngr.FwImages
open Text Polling

/-- The rounds of the loop, the first check being made before it. -/
def idlePoll (env : HandlerEnv) (endTime : Str) : Poll where
  found k := decide (env.checkIdle k = 0)
  now := env.diff
  inTime := testGt endTime
  pause := RETRY_TIME

def waitSteps (env : HandlerEnv) (k j : ℕ) : List Step :=
  (List.range' k (j - k)).flatMap fun i => [.checkIdle (env.checkIdle i), .sleep RETRY_TIME]

def endSteps (env : HandlerEnv) (bankId force keepConfig : Str) : Outcome → List Step
  | .found k => .checkIdle (env.checkIdle k) :: activateAndRebootDevice env bankId []
  | .closed _ => forceActivation env bankId force keepConfig
  | .late k => .checkIdle (env.checkIdle k) :: forceActivation env bankId force keepConfig

/-- The value of `diff` when the loop is left. -/
def lastDiff (env : HandlerEnv) (endTime : Str) : ℕ → ℕ → ℤ
  | 0, k => env.diff k
  | rounds + 1, k =>
    if testGt endTime (env.diff k) ∧ env.checkIdle k ≠ 0 ∧
        testGt endTime (env.diff k + RETRY_TIME) then
      lastDiff env endTime rounds (k + 1)
    else env.diff k

/-! ### The run of the loop -/

theorem waitSteps_self (env : HandlerEnv) (k : ℕ) : waitSteps env k k = [] := by
  simp [waitSteps]

theorem waitSteps_succ (env : HandlerEnv) (k j : ℕ) (h : k < j) :
    waitSteps env k j =
      [.checkIdle (env.checkIdle k), .sleep RETRY_TIME] ++ waitSteps env (k + 1) j := by
  obtain ⟨n, hn⟩ : ∃ n, j - k = n + 1 := ⟨j - k - 1, by omega⟩
  have hrest : j - (k + 1) = n := by omega
  rw [waitSteps, waitSteps, hn, hrest, List.range'_succ, List.flatMap_cons]

theorem idlePoll_waits (env : HandlerEnv) (endTime : Str) (k : ℕ) :
    (idlePoll env endTime).Waits k ↔ testGt endTime (env.diff k) = true ∧ env.checkIdle k ≠ 0 ∧
      testGt endTime (env.diff k + RETRY_TIME) = true := by
  simp [Poll.Waits, idlePoll]

theorem idleLoop_wait (env : HandlerEnv) (bankId endTime force keepConfig : Str) (rounds k : ℕ)
    (h : (idlePoll env endTime).Waits k) :
    idleLoop env bankId endTime force keepConfig (rounds + 1) k =
      [.checkIdle (env.checkIdle k), .sleep RETRY_TIME] ++
        idleLoop env bankId endTime force keepConfig rounds (k + 1) := by
  obtain ⟨hopen, hbusy, hpause⟩ := (idlePoll_waits env endTime k).mp h
  rw [idleLoop, if_pos hopen, if_neg hbusy, if_pos hpause]
  rfl

theorem idleLoop_end (env : HandlerEnv) (bankId endTime force keepConfig : Str) (rounds : ℕ)
    (o : Outcome) (h : (idlePoll env endTime).Ends o) :
    idleLoop env bankId endTime force keepConfig (rounds + 1) o.last =
      endSteps env bankId force keepConfig o := by
  cases o with
  | found k =>
    obtain ⟨hopen, hidle⟩ := h
    have hzero : env.checkIdle k = 0 := of_decide_eq_true hidle
    change testGt endTime (env.diff k) = true at hopen
    simp only [Outcome.last, idleLoop, hopen, hzero, if_true, endSteps]
  | closed k =>
    have hclosed : testGt endTime (env.diff k) = false := h
    simp only [Outcome.last, idleLoop, hclosed, Bool.false_eq_true, if_false, endSteps]
  | late k =>
    obtain ⟨hopen, hbusy, hlate⟩ := h
    have hnonzero : env.checkIdle k ≠ 0 := of_decide_eq_false hbusy
    change testGt endTime (env.diff k) = true at hopen
    change testGt endTime (env.diff k + RETRY_TIME) = false at hlate
    simp only [Outcome.last, idleLoop, hopen, hnonzero, hlate, if_true, if_false,
      Bool.false_eq_true, endSteps]

/-- The loop waits until its polling ends, and leaves `diff` at the time of its end. -/
theorem idleLoop_outcome (env : HandlerEnv) (bankId endTime force keepConfig : Str)
    (rounds k : ℕ) (o : Outcome) (h : (idlePoll env endTime).outcome rounds k = some o) :
    idleLoop env bankId endTime force keepConfig rounds k =
        waitSteps env k o.last ++ endSteps env bankId force keepConfig o ∧
      lastDiff env endTime rounds k = env.diff o.last := by
  induction rounds generalizing k with
  | zero => exact absurd h (by simp [Poll.outcome])
  | succ rounds ih =>
    have hcond := idlePoll_waits env endTime k
    by_cases hwaits : (idlePoll env endTime).Waits k
    · rw [Poll.outcome_wait _ rounds k hwaits] at h
      obtain ⟨hsteps, hdiff⟩ := ih (k + 1) h
      have hlt := (Poll.reaches_of_outcome _ _ _ _ h).1.le
      refine ⟨?_, ?_⟩
      · rw [idleLoop_wait _ _ _ _ _ _ _ hwaits, hsteps, waitSteps_succ env k _ hlt,
          List.append_assoc]
      · rw [lastDiff, if_pos (hcond.mp hwaits), hdiff]
    · obtain ⟨o', hout, rfl, hends⟩ := Poll.outcome_end _ rounds k hwaits
      obtain rfl := Option.some.inj (hout.symm.trans h)
      refine ⟨?_, ?_⟩
      · rw [idleLoop_end _ _ _ _ _ _ _ hends, waitSteps_self, List.nil_append]
      · rw [lastDiff, if_neg fun hc => hwaits (hcond.mpr hc)]

theorem idleLoop_unfinished (env : HandlerEnv) (bankId endTime force keepConfig : Str)
    (rounds k : ℕ) (h : (idlePoll env endTime).outcome rounds k = none) :
    idleLoop env bankId endTime force keepConfig rounds k = waitSteps env k (k + rounds) := by
  induction rounds generalizing k with
  | zero => exact (waitSteps_self env k).symm
  | succ rounds ih =>
    by_cases hwaits : (idlePoll env endTime).Waits k
    · rw [Poll.outcome_wait _ rounds k hwaits] at h
      rw [idleLoop_wait _ _ _ _ _ _ _ hwaits, ih (k + 1) h,
        waitSteps_succ env k (k + (rounds + 1)) (by omega), Nat.add_right_comm, Nat.add_assoc]
    · obtain ⟨o, hout, -, -⟩ := Poll.outcome_end _ rounds k hwaits
      exact absurd (hout.symm.trans h) (by simp)

/-! ### Checks and requests -/

def Step.isCheck : Step → Bool
  | .checkIdle _ => true
  | _ => false

def Step.status : Step → Option ℕ
  | .checkIdle status => some status
  | _ => none

/-- The answers of the idle checks, in order. -/
def statuses (steps : List Step) : List ℕ := steps.filterMap Step.status

/-- The first step of `activate_and_reboot_device`. -/
def Step.isActivation : Step → Bool
  | .setBootbank _ _ => true
  | _ => false

def Ended (steps : List Step) : Prop := ∃ status, steps.getLast? = some (.exit status)

theorem ended_append (pre steps : List Step) (h : Ended steps) : Ended (pre ++ steps) := by
  obtain ⟨status, hlast⟩ := h
  refine ⟨status, ?_⟩
  rw [List.getLast?_append, hlast, Option.some_or]

structure Requests (n : ℕ) (steps : List Step) : Prop where
  activations : steps.countP Step.isActivation = n
  checks : steps.countP Step.isCheck = 0
  ended : Ended steps

theorem activate_commands (env : HandlerEnv) (bankId keepConfig : Str) :
    Requests 1 (activateAndRebootDevice env bankId keepConfig) := by
  simp only [activateAndRebootDevice]
  repeat' split
  all_goals exact ⟨rfl, rfl, _, rfl⟩

/-- An activation requests the switch to its bank first. -/
theorem activate_first (env : HandlerEnv) (bankId keepConfig : Str) :
    ∃ success rest, activateAndRebootDevice env bankId keepConfig =
      .setBootbank bankId success :: rest :=
  ⟨_, _, rfl⟩

theorem force_requests (env : HandlerEnv) (bankId force keepConfig : Str) :
    Requests (if force = "1".toList then 1 else 0)
      (forceActivation env bankId force keepConfig) := by
  unfold forceActivation
  split
  · exact activate_commands env bankId keepConfig
  · exact ⟨rfl, rfl, 1, rfl⟩

theorem mem_statuses (steps : List Step) (status : ℕ) :
    status ∈ statuses steps ↔ .checkIdle status ∈ steps := by
  rw [statuses, List.mem_filterMap]
  constructor
  · rintro ⟨x, hx, hstatus⟩
    cases x with
    | checkIdle s =>
      rw [← Option.some.inj hstatus]
      exact hx
    | _ => exact absurd hstatus (by simp [Step.status])
  · exact fun hmem => ⟨_, hmem, rfl⟩

theorem statuses_length (steps : List Step) :
    (statuses steps).length = steps.countP Step.isCheck := by
  rw [statuses, List.length_filterMap_eq_countP]
  refine List.countP_congr fun x _ => ?_
  cases x <;> simp [Step.status, Step.isCheck]

theorem statuses_append (pre steps : List Step) :
    statuses (pre ++ steps) = statuses pre ++ statuses steps :=
  List.filterMap_append

theorem statuses_eq_nil (steps : List Step) (h : steps.countP Step.isCheck = 0) :
    statuses steps = [] :=
  List.eq_nil_of_length_eq_zero ((statuses_length steps).trans h)

theorem waitSteps_activations (env : HandlerEnv) (k j : ℕ) :
    (waitSteps env k j).countP Step.isActivation = 0 := by
  simp [waitSteps, List.countP_flatMap, Step.isActivation, Function.comp_def]

theorem waitSteps_statuses (env : HandlerEnv) (k j : ℕ) :
    statuses (waitSteps env k j) = (List.range' k (j - k)).map env.checkIdle := by
  rw [statuses, waitSteps, List.filterMap_flatMap, List.map_eq_flatMap]
  rfl

/-! ### The mode as a whole -/

/-- The clock does not go back, and advances by the time slept where the script sleeps. -/
structure HandlerEnv.Clocked (env : HandlerEnv) (endTime : Str) : Prop where
  started : 0 ≤ env.diff 1
  sleeps : ∀ k, env.checkIdle k ≠ 0 → testGt endTime (env.diff k + RETRY_TIME) = true →
    env.diff k + RETRY_TIME ≤ env.diff (k + 1)

/-- The run ends after few checks, with one activation at most: right after the first
check that finds the device idle, or without one, if it is forced. It makes the first checks
the idle script answers, and no check finds the device idle only when `diff`, as read before
or after the last of them, has come within a retry of the end of the window. -/
structure IdleRun (env : HandlerEnv) (bankId force keepConfig : Str) (endTime : ℕ) (diff : ℤ)
    (steps : List Step) : Prop where
  ended : Ended steps
  checks : steps.countP Step.isCheck ≤ endTime / 300 + 2
  once : steps.countP Step.isActivation ≤ 1
  performed : ∃ n, statuses steps = (List.range (n + 1)).map env.checkIdle ∧
    (.checkIdle 0 ∉ steps → endTime - RETRY_TIME ≤ diff ∧
      (diff = env.diff n ∨ diff = env.diff (n + 1)))
  idle : .checkIdle 0 ∈ steps → steps.countP Step.isActivation = 1 ∧
    ∃ pre success rest, steps = pre ++ .checkIdle 0 :: .setBootbank bankId success :: rest ∧
      .setBootbank bankId success :: rest = activateAndRebootDevice env bankId [] ∧
      .checkIdle 0 ∉ pre ∧ pre.countP Step.isActivation = 0
  forced : .checkIdle 0 ∉ steps → force = "1".toList → steps.countP Step.isActivation = 1 ∧
    ∃ pre success rest, steps = pre ++ .setBootbank bankId success :: rest ∧
      .setBootbank bankId success :: rest = activateAndRebootDevice env bankId keepConfig ∧
      pre.countP Step.isActivation = 0
  unforced : .checkIdle 0 ∉ steps → force ≠ "1".toList →
    steps.countP Step.isActivation = 0

section Run
variable (env : HandlerEnv) (bankId endTime force keepConfig : Str) (window : ℕ)

theorem range_idle (n : ℕ) (pre : List Step)
    (hpre : statuses pre = (List.range n).map env.checkIdle)
    (hbusy : ∀ i, i < n → env.checkIdle i ≠ 0) : .checkIdle 0 ∉ pre := by
  rw [← mem_statuses, hpre]
  intro hmem
  obtain ⟨i, hi, hzero⟩ := List.mem_map.mp hmem
  exact hbusy i (List.mem_range.mp hi) hzero

theorem idleRun_found (n : ℕ) (pre : List Step) (diff : ℤ)
    (hbusy : ∀ i, i < n → env.checkIdle i ≠ 0) (hidle : env.checkIdle n = 0)
    (hpre : statuses pre = (List.range n).map env.checkIdle)
    (hactivations : pre.countP Step.isActivation = 0) (hchecks : n + 1 ≤ window / 300 + 2) :
    IdleRun env bankId force keepConfig window diff
      (pre ++ .checkIdle 0 :: activateAndRebootDevice env bankId []) := by
  obtain ⟨hone, hnone, hended⟩ := activate_commands env bankId []
  obtain ⟨success, rest, hfirst⟩ := activate_first env bankId []
  have hmem : .checkIdle 0 ∈ pre ++ .checkIdle 0 :: activateAndRebootDevice env bankId [] :=
    List.mem_append_right _ (List.mem_cons_self ..)
  have hrequests : (pre ++ .checkIdle 0 :: activateAndRebootDevice env bankId []).countP
      Step.isActivation = 1 := by
    rw [List.countP_append, List.countP_cons_of_neg (by simp [Step.isActivation]), hactivations,
      hone]
  have hperformed : statuses (pre ++ .checkIdle 0 :: activateAndRebootDevice env bankId []) =
      (List.range (n + 1)).map env.checkIdle := by
    have hcall : statuses (.checkIdle 0 :: activateAndRebootDevice env bankId []) = [0] :=
      congrArg (0 :: ·) (statuses_eq_nil _ hnone)
    rw [statuses_append, hpre, hcall, List.range_succ, List.map_append, List.map_singleton, hidle]
  refine ⟨ended_append pre _ (ended_append [_] _ hended), ?_, hrequests.le,
    ⟨n, hperformed, absurd hmem⟩, fun _ => ⟨hrequests, pre, success, rest, ?_, hfirst.symm,
    range_idle env n pre hpre hbusy, hactivations⟩, absurd hmem, absurd hmem⟩
  · rw [← statuses_length, hperformed, List.length_map, List.length_range]
    exact hchecks
  · rw [hfirst]

theorem idleRun_expired (n : ℕ) (pre : List Step) (diff : ℤ)
    (hbusy : ∀ i, i < n + 1 → env.checkIdle i ≠ 0)
    (hpre : statuses pre = (List.range (n + 1)).map env.checkIdle)
    (hactivations : pre.countP Step.isActivation = 0) (hchecks : n + 1 ≤ window / 300 + 2)
    (hlate : window - RETRY_TIME ≤ diff) (hdiff : diff = env.diff n ∨ diff = env.diff (n + 1)) :
    IdleRun env bankId force keepConfig window diff
      (pre ++ forceActivation env bankId force keepConfig) := by
  obtain ⟨hcount, hnone, hended⟩ := force_requests env bankId force keepConfig
  have hperformed : statuses (pre ++ forceActivation env bankId force keepConfig) =
      (List.range (n + 1)).map env.checkIdle := by
    rw [statuses_append, statuses_eq_nil _ hnone, List.append_nil, hpre]
  have hno := range_idle env (n + 1) _ hperformed hbusy
  have hrequests : (pre ++ forceActivation env bankId force keepConfig).countP Step.isActivation =
      if force = "1".toList then 1 else 0 := by
    rw [List.countP_append, hactivations, hcount, Nat.zero_add]
  refine ⟨ended_append pre _ hended, ?_, ?_, ⟨n, hperformed, fun _ => ⟨hlate, hdiff⟩⟩,
    fun hmem => absurd hmem hno, ?_, ?_⟩
  · rw [← statuses_length, hperformed, List.length_map, List.length_range]
    exact hchecks
  · rw [hrequests]
    split <;> omega
  · intro _ hforce
    obtain ⟨success, rest, hfirst⟩ := activate_first env bankId keepConfig
    refine ⟨by rw [hrequests, if_pos hforce], pre, success, rest, ?_, hfirst.symm, hactivations⟩
    rw [forceActivation, if_pos hforce, hfirst]
  · intro _ hforce
    rw [hrequests, if_neg hforce]

/-- The first check and the sleep before the loop. -/
def firstSteps (env : HandlerEnv) (endTime : Str) : List Step :=
  .checkIdle (env.checkIdle 0) ::
    if testGt endTime (0 + RETRY_TIME) then [.sleep RETRY_TIME] else []

theorem whenidle_steps (rounds : ℕ) (hexec : env.checkIdleExecutable = true)
    (hbusy : env.checkIdle 0 ≠ 0) :
    handleWhenidleMode env bankId endTime force keepConfig rounds =
      firstSteps env endTime ++ idleLoop env bankId endTime force keepConfig rounds 1 := by
  simp only [handleWhenidleMode, hexec, Bool.not_true, Bool.false_eq_true, if_false, hbusy,
    firstSteps, List.cons_append]

theorem waits_performed (j : ℕ) (hj : 1 ≤ j) :
    (firstSteps env endTime ++ waitSteps env 1 j).countP Step.isActivation = 0 ∧
      statuses (firstSteps env endTime ++ waitSteps env 1 j) =
        (List.range j).map env.checkIdle := by
  have hactivations : (firstSteps env endTime).countP Step.isActivation = 0 := by
    unfold firstSteps
    split <;> rfl
  have hfirst : statuses (firstSteps env endTime) = [env.checkIdle 0] := by
    unfold firstSteps
    split <;> rfl
  refine ⟨?_, ?_⟩
  · rw [List.countP_append, hactivations, waitSteps_activations]
  · obtain ⟨j, rfl⟩ : ∃ i, j = i + 1 := ⟨j - 1, by omega⟩
    rw [statuses_append, hfirst, waitSteps_statuses, Nat.add_sub_cancel, List.range_eq_range',
      List.range'_succ, List.map_cons, List.singleton_append]

theorem clocked_pause (hclock : env.Clocked endTime) (i : ℕ)
    (h : (idlePoll env endTime).Waits i) : env.diff i + RETRY_TIME ≤ env.diff (i + 1) := by
  obtain ⟨-, hbusy, hpause⟩ := (idlePoll_waits env endTime i).mp h
  exact hclock.sleeps i hbusy hpause

/-- The first reading of `diff` leaves time for one check more than the retries that fit
the window. -/
theorem checks_le (o : Outcome) (hbusy : env.checkIdle 0 ≠ 0) (hclock : env.Clocked endTime)
    (htest : ∀ t, testGt endTime t = true ↔ t < window)
    (ho : (idlePoll env endTime).Reaches 1 o) : o.checks 1 ≤ window / 300 + 1 := by
  have hzero : env.diff 0 = 0 := Int.sub_self _
  have hslept : (300 : ℤ) < window → 300 ≤ env.diff 1 := by
    intro hlong
    have hsleep := hclock.sleeps 0 hbusy
    rw [hzero, htest] at hsleep
    exact hsleep (by simpa [RETRY_TIME] using hlong)
  have hstarted := hclock.started
  rcases hc : o.checks 1 with _ | c
  · omega
  · have hlt := Poll.checks_lt (idlePoll env endTime) (clocked_pause env endTime hclock) window
      htest 1 c o ho hc
    simp only [idlePoll, RETRY_TIME] at hlt
    omega

/-- Whatever the idle script answers and however long its checks take, the mode
`WhenIdle` ends after at most `endTime / 300 + 2` checks, and activates as it should. -/
theorem whenidle_run (rounds : ℕ) (hexec : env.checkIdleExecutable = true)
    (hend : testNumber endTime = some (window : ℤ)) (hclock : env.Clocked endTime)
    (hrounds : window / 300 + 2 ≤ rounds) :
    IdleRun env bankId force keepConfig window (lastDiff env endTime rounds 1)
      (handleWhenidleMode env bankId endTime force keepConfig rounds) := by
  have htest : ∀ t, testGt endTime t = true ↔ t < window := by
    intro t
    simp [testGt, hend]
  by_cases hzero : env.checkIdle 0 = 0
  · have hsteps : handleWhenidleMode env bankId endTime force keepConfig rounds =
        [] ++ .checkIdle 0 :: activateAndRebootDevice env bankId [] := by
      simp [handleWhenidleMode, hexec, hzero]
    rw [hsteps]
    exact idleRun_found env bankId force keepConfig window 0 [] _
      (fun i hi => absurd hi (Nat.not_lt_zero i)) hzero rfl rfl (by omega)
  -- the polling has an outcome, since the window fits so many retries only
  obtain ⟨r, rfl⟩ : ∃ r, rounds = r + 1 := ⟨rounds - 1, by omega⟩
  have hfuel : (window : ℤ) ≤ env.diff 1 + RETRY_TIME * r := by
    have hstarted := hclock.started
    simp only [RETRY_TIME]
    omega
  obtain ⟨o, hout⟩ := Poll.outcome_isSome (idlePoll env endTime)
    (clocked_pause env endTime hclock) window htest r 1 hfuel
  obtain ⟨hsteps, hdiff⟩ := idleLoop_outcome env bankId endTime force keepConfig _ 1 o hout
  have hreach := (Poll.reaches_of_outcome _ _ _ _ hout).1
  have hchecks := checks_le env endTime window o hzero hclock htest hreach
  obtain ⟨hle, hwaits, hends⟩ := hreach
  have hbusy : ∀ i, i < o.last → env.checkIdle i ≠ 0 := by
    intro i hi
    rcases Nat.eq_zero_or_pos i with rfl | hpos
    · exact hzero
    · exact ((idlePoll_waits env endTime i).mp (hwaits i hpos hi)).2.1
  obtain ⟨hactivations, hperformed⟩ := waits_performed env endTime o.last hle
  rw [whenidle_steps env bankId endTime force keepConfig _ hexec hzero, hsteps, hdiff,
    ← List.append_assoc]
  cases o with
  | found k =>
    have hidle : env.checkIdle k = 0 := of_decide_eq_true hends.2
    simp only [Outcome.checks] at hchecks
    simp only [Outcome.last] at hbusy hperformed hactivations hle ⊢
    rw [endSteps, hidle]
    exact idleRun_found env bankId force keepConfig window k _ _ hbusy hidle hperformed
      hactivations (by omega)
  | closed k =>
    have hclosed : ¬testGt endTime (env.diff k) = true := Bool.not_eq_true _ ▸ hends
    rw [htest] at hclosed
    simp only [Outcome.checks] at hchecks
    simp only [Outcome.last] at hbusy hperformed hactivations hle ⊢
    obtain ⟨n, rfl⟩ : ∃ n, k = n + 1 := ⟨k - 1, by omega⟩
    refine idleRun_expired env bankId force keepConfig window n _ _ hbusy hperformed hactivations
      (by omega) ?_ (Or.inr rfl)
    simp only [RETRY_TIME]
    omega
  | late k =>
    obtain ⟨-, hfailed, hlate⟩ := hends
    have hnotidle : env.checkIdle k ≠ 0 := of_decide_eq_false hfailed
    have hlate' : ¬testGt endTime (env.diff k + RETRY_TIME) = true := Bool.not_eq_true _ ▸ hlate
    rw [htest] at hlate'
    simp only [Outcome.checks] at hchecks
    simp only [Outcome.last] at hbusy hperformed hactivations hle ⊢
    rw [endSteps, List.append_cons]
    refine idleRun_expired env bankId force keepConfig window k _ _ ?_ ?_ ?_ (by omega) ?_
      (Or.inl rfl)
    · intro i hi
      rcases Nat.lt_succ_iff_lt_or_eq.mp hi with hi | rfl
      · exact hbusy i hi
      · exact hnotidle
    · rw [statuses_append, hperformed, List.range_succ, List.map_append]
      rfl
    · rw [List.countP_append, hactivations]
      rfl
    · simp only [RETRY_TIME] at hlate' ⊢
      omega

end Run

theorem whenidle_run_sample :
    IdleRun (idleAtOnce 1) "2".toList "1".toList "1".toList 1800
      (lastDiff (idleAtOnce 1) "1800".toList 8 1)
      (handleWhenidleMode (idleAtOnce 1) "2".toList "1800".toList "1".toList "1".toList 8) :=
  whenidle_run (idleAtOnce 1) "2".toList "1800".toList "1".toList "1".toList 1800 8 rfl (by decide)
    ⟨by decide, fun k _ _ => by simp [HandlerEnv.diff, idleAtOnce, RETRY_TIME]; omega⟩ (by decide)

end Sysmngr.FwImages
