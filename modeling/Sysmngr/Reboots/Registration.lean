import Sysmngr.Machine
import Sysmngr.Reboots.Records

/-!
# Boot registration over whole histories

Once per boot, after at most fifteen retries, and with counters that count the
registered (trigger, reason) pairs.
-/

namespace Sysmngr.Reboots
open Text Uci Machine

/-! ### The daemon's events -/

/-- A new boot removes the lock file and kills the daemon; a start is a daemon
start or restart; the reset-reason file may change at any moment. -/
inductive Event where
  | boot (file : Option Str)
  | start (env : Env) (clk : Clock)
  | timer (env : Env) (clk : Clock)
  | file (content : Option Str)

def Event.isBoot : Event → Bool
  | .boot _ => true
  | _ => false

def Event.isStart : Event → Bool
  | .start _ _ => true
  | _ => false

abbrev Entry := Event × List Action

def Env.locking (env : Env) : Env := { env with create := true }

def World.step (w : World) (e : Event) : World × Entry :=
  let r : World × List Action := match e with
    | .boot file => ({ w with lock := false, resetReason := file, retryCount := 0, timer := false }, [])
    | .file content => ({ w with resetReason := content }, [])
    | .start env clk =>
      sysmngrRebootsInit env.locking clk { w with retryCount := 0, timer := false }
    | .timer env clk =>
      if w.timer then sysmngrRebootsInit env.locking clk { w with timer := false } else (w, [])
  (r.1, e, r.2)

def registration : Action → Option (Str × Str)
  | .registered trigger reason => some (trigger, reason)
  | _ => none

def registrations (log : List Entry) : List (Str × Str) :=
  log.flatMap fun e => e.2.filterMap registration

def isArm : Action → Bool
  | .armTimer _ => true
  | _ => false

def arms (log : List Entry) : ℕ := (log.flatMap Prod.snd).countP isArm

def invalidChecks (log : List Entry) : ℕ := (log.flatMap Prod.snd).count .invalidFile

/-- What one call of `sysmngr_reboots_init` can do. -/
theorem sysmngrRebootsInit_cases (env : Env) (clk : Clock) (w : World) :
    (w.lock = true ∧ sysmngrRebootsInit env.locking clk w = (w, [])) ∨
    (w.lock = false ∧ w.retryCount < REBOOT_MAX_RETRIES ∧
      sysmngrRebootsInit env.locking clk w =
        ({ w with retryCount := w.retryCount + 1, timer := true },
          [.invalidFile, .armTimer (REBOOT_RETRY_DELAY * 1000)])) ∨
    (w.lock = false ∧ ∃ trigger reason acts,
      (acts = [.registered trigger reason] ∨
        REBOOT_MAX_RETRIES ≤ w.retryCount ∧ acts = [.invalidFile, .registered trigger reason]) ∧
      sysmngrRebootsInit env.locking clk w =
        ({ w with
            config := registerBoot env.locking w.config clk trigger reason
            lock := true },
          acts)) := by
  cases hl : w.lock with
  | true => exact Or.inl ⟨rfl, by simp only [sysmngrRebootsInit, hl, if_true]⟩
  | false =>
    right
    have hreg : ∃ trigger reason, sysmngrRegisterBootAction env.locking clk w =
        ({ w with
            config := registerBoot env.locking w.config clk trigger reason
            lock := true },
          [.registered trigger reason]) := by
      simp only [sysmngrRegisterBootAction, hl, Bool.false_eq_true, if_false]
      exact ⟨_, _, rfl⟩
    obtain ⟨trigger, reason, hreg⟩ := hreg
    simp only [sysmngrRebootsInit, hl, Bool.false_eq_true, if_false]
    split
    · exact Or.inr ⟨trivial, trigger, reason, _, Or.inl rfl, hreg⟩
    · split
      · rename_i hr
        exact Or.inl ⟨trivial, hr, rfl⟩
      · rename_i hr
        refine Or.inr ⟨trivial, trigger, reason, _, Or.inr ⟨by omega, rfl⟩, ?_⟩
        rw [hreg]

/-! ### One step: lock, retries and registrations -/

def regsOf (acts : List Action) : List (Str × Str) := acts.filterMap registration

def World.free (w : World) : ℕ := if w.lock then 0 else 1

/-- How one call moves the lock and the retry counter, against what it is seen
to do. -/
structure Counts (w : World) (r : World × List Action) : Prop where
  once : (regsOf r.2).length + r.1.free = w.free
  arms : r.2.countP isArm + w.retryCount = r.1.retryCount
  bounded : w.retryCount ≤ REBOOT_MAX_RETRIES → r.1.retryCount ≤ REBOOT_MAX_RETRIES
  checks : r.1.lock = false → w.lock = false ∧ r.2.count .invalidFile + w.retryCount = r.1.retryCount
  forced : Action.invalidFile ∈ r.2 → w.lock = false ∧
    (REBOOT_MAX_RETRIES ≤ w.retryCount → regsOf r.2 ≠ [])

theorem counts_idle (w : World) : Counts w (w, []) where
  once := by simp [regsOf]
  arms := by simp
  bounded := id
  checks := fun h => ⟨h, by simp⟩
  forced := fun h => by simp at h

theorem init_counts (env : Env) (clk : Clock) (w : World) :
    Counts w (sysmngrRebootsInit env.locking clk w) := by
  rcases sysmngrRebootsInit_cases env clk w with ⟨hl, hr⟩ | ⟨hl, hlt, hr⟩ |
    ⟨hl, trigger, reason, acts, hacts, hr⟩
  · rw [hr]
    exact counts_idle w
  · rw [hr]
    exact {
      once := by simp [regsOf, registration, World.free]
      arms := by simp [isArm, Nat.add_comm]
      bounded := fun _ => hlt
      checks := fun _ => ⟨hl, by simp [Nat.add_comm]⟩
      forced := fun _ => ⟨hl, fun hge => absurd hlt (Nat.not_lt.mpr hge)⟩ }
  · rw [hr]
    rcases hacts with rfl | ⟨hge, rfl⟩
    · exact {
        once := by simp [regsOf, registration, World.free, hl]
        arms := by simp [isArm]
        bounded := id
        checks := fun h => by simp at h
        forced := fun h => by simp at h }
    · exact {
        once := by
          rw [World.free, World.free, hl]
          rfl
        arms := by simp [isArm]
        bounded := id
        checks := fun h => by simp at h
        forced := fun _ => ⟨hl, fun _ => List.cons_ne_nil _ _⟩ }

def World.entered (w : World) : Event → World
  | .boot file => { w with lock := false, resetReason := file, retryCount := 0, timer := false }
  | .start _ _ => { w with retryCount := 0, timer := false }
  | _ => w

theorem step_counts (w : World) (e : Event) :
    Counts (w.entered e) ((w.step e).1, (w.step e).2.2) := by
  cases e with
  | boot file => exact counts_idle _
  | file content =>
    exact { counts_idle w with once := Nat.zero_add _ }
  | start env clk => exact init_counts env clk _
  | timer env clk =>
    by_cases ht : w.timer
    · have h := init_counts env clk { w with timer := false }
      simp only [World.step, World.entered, if_pos ht]
      exact ⟨h.once, h.arms, h.bounded, h.checks, h.forced⟩
    · simp only [World.step, World.entered, if_neg ht]
      exact counts_idle w

/-! ### Stretches of a history -/

@[simp] theorem registrations_cons (e : Entry) (log : List Entry) :
    registrations (e :: log) = regsOf e.2 ++ registrations log := rfl

theorem arms_cons (e : Entry) (log : List Entry) :
    arms (e :: log) = e.2.countP isArm + arms log := by
  simp only [arms, List.flatMap_cons, List.countP_append]

theorem invalidChecks_cons (e : Entry) (log : List Entry) :
    invalidChecks (e :: log) = e.2.count .invalidFile + invalidChecks log := by
  simp only [invalidChecks, List.flatMap_cons, List.count_append]

theorem entered_free (w : World) (e : Event) (h : e.isBoot = false) :
    (w.entered e).free = w.free := by
  cases e with
  | boot file => simp [Event.isBoot] at h
  | start env clk => rfl
  | timer env clk => rfl
  | file content => rfl

theorem entered_quiet (w : World) (e : Event) (hb : e.isBoot = false) (hs : e.isStart = false) :
    w.entered e = w := by
  cases e with
  | boot file => simp [Event.isBoot] at hb
  | start env clk => simp [Event.isStart] at hs
  | timer env clk => rfl
  | file content => rfl

theorem step_entry (w : World) (e : Event) : (w.step e).2.1 = e := rfl

theorem run_entries (w : World) (es : List Event) :
    (run World.step w es).2.map Prod.fst = es := by
  induction es generalizing w with
  | nil => rfl
  | cons e es ih => simp only [run_cons_outputs, List.map_cons, ih, step_entry]

/-- Without a new boot, at most the one registration the lock leaves. -/
theorem run_registers_once (w : World) (es : List Event) (h : ∀ e ∈ es, e.isBoot = false) :
    (registrations (run World.step w es).2).length + (run World.step w es).1.free = w.free := by
  induction es generalizing w with
  | nil => simp [registrations]
  | cons e es ih =>
    have hstep := (step_counts w e).once
    rw [entered_free w e (h e (List.mem_cons_self ..))] at hstep
    have hrest := ih (w.step e).1 fun x hx => h x (List.mem_cons_of_mem _ hx)
    simp only [run_cons_outputs, run_cons_state, registrations_cons, List.length_append]
    simp only at hstep
    omega

/-- Within one daemon instance every retry is counted, and while nothing is
registered every failed check was a retry. -/
theorem run_retries (w : World) (es : List Event)
    (h : ∀ e ∈ es, e.isBoot = false ∧ e.isStart = false) :
    arms (run World.step w es).2 + w.retryCount = (run World.step w es).1.retryCount ∧
      ((run World.step w es).1.lock = false → w.lock = false ∧
        invalidChecks (run World.step w es).2 + w.retryCount =
          (run World.step w es).1.retryCount) := by
  induction es generalizing w with
  | nil => exact ⟨by simp [arms], fun hl => ⟨hl, by simp [invalidChecks]⟩⟩
  | cons e es ih =>
    have hstep := step_counts w e
    obtain ⟨hb, hs⟩ := h e (List.mem_cons_self ..)
    rw [entered_quiet w e hb hs] at hstep
    obtain ⟨harms, hchecks⟩ := ih (w.step e).1 fun x hx => h x (List.mem_cons_of_mem _ hx)
    have ha := hstep.arms
    simp only [run_cons_outputs, run_cons_state, arms_cons, invalidChecks_cons]
    simp only at ha
    refine ⟨by omega, fun hl => ?_⟩
    obtain ⟨hl', hc'⟩ := hchecks hl
    obtain ⟨hl'', hc''⟩ := hstep.checks hl'
    simp only at hc''
    exact ⟨hl'', by omega⟩

theorem entered_retryCount (w : World) (e : Event) (h : w.retryCount ≤ REBOOT_MAX_RETRIES) :
    (w.entered e).retryCount ≤ REBOOT_MAX_RETRIES := by
  cases e with
  | boot file => exact Nat.zero_le _
  | start env clk => exact Nat.zero_le _
  | timer env clk => exact h
  | file content => exact h

/-- The retry counter never passes its maximum. -/
theorem run_retryCount (w : World) (es : List Event) (h : w.retryCount ≤ REBOOT_MAX_RETRIES) :
    (run World.step w es).1.retryCount ≤ REBOOT_MAX_RETRIES := by
  induction es generalizing w with
  | nil => exact h
  | cons e es ih =>
    exact ih (w.step e).1 ((step_counts w e).bounded (entered_retryCount w e h))

/-- A stretch that stays in one daemon instance once it has begun. -/
def OneInstance (seg : List Entry) : Prop :=
  ∀ e ∈ seg.tail, e.1.isBoot = false ∧ e.1.isStart = false

theorem instance_retries (w : World) (es : List Event)
    (h : OneInstance (run World.step w es).2) :
    arms (run World.step w es).2 ≤ (run World.step w es).1.retryCount ∧
      ((run World.step w es).1.lock = false →
        invalidChecks (run World.step w es).2 ≤ (run World.step w es).1.retryCount) := by
  cases es with
  | nil => exact ⟨by simp [arms], fun _ => by simp [invalidChecks]⟩
  | cons e es =>
    have hquiet : ∀ x ∈ es, x.isBoot = false ∧ x.isStart = false := by
      intro x hx
      have hm : x ∈ ((run World.step (w.step e).1 es).2).map Prod.fst := by
        rw [run_entries]
        exact hx
      obtain ⟨entry, he, rfl⟩ := List.mem_map.mp hm
      exact h entry he
    obtain ⟨harms, hchecks⟩ := run_retries (w.step e).1 es hquiet
    have ha := (step_counts w e).arms
    simp only [run_cons_outputs, run_cons_state, arms_cons, invalidChecks_cons]
    simp only at ha
    refine ⟨by omega, fun hl => ?_⟩
    obtain ⟨hl', hc'⟩ := hchecks hl
    have hc := ((step_counts w e).checks hl').2
    simp only at hc
    omega

/-- An instance that has failed fifteen checks registers at its next failed one. -/
theorem instance_registers (w : World) (es : List Event) (e : Event)
    (h : OneInstance ((run World.step w es).2 ++ [((run World.step w es).1.step e).2]))
    (hge : REBOOT_MAX_RETRIES ≤ invalidChecks (run World.step w es).2)
    (hx : .invalidFile ∈ ((run World.step w es).1.step e).2.2) :
    regsOf ((run World.step w es).1.step e).2.2 ≠ [] := by
  cases es with
  | nil => exact absurd hge (Nat.not_succ_le_zero 14)
  | cons first rest =>
    have hquiet := h _ (List.mem_append_right _ (List.mem_singleton_self _))
    have hinst : OneInstance (run World.step w (first :: rest)).2 :=
      fun x hx => h x (List.mem_append_left _ hx)
    obtain ⟨_, hchecks⟩ := instance_retries w (first :: rest) hinst
    obtain ⟨hl, hforced⟩ := (step_counts (run World.step w (first :: rest)).1 e).forced hx
    rw [entered_quiet _ e hquiet.1 hquiet.2] at hl hforced
    exact hforced (Nat.le_trans hge (hchecks hl))

/-! ### Counters -/

def isReset (p : Str × Str) : Bool := p.1 = "defaultreset".toList

def sinceReset (l : List (Str × Str)) : List (Str × Str) :=
  l.reverse.takeWhile fun p => !isReset p

def bootsFromReset (l : List (Str × Str)) : ℕ :=
  (sinceReset l).length + if l.any isReset then 1 else 0

def bootsAfterReset (l : List (Str × Str)) : ℕ := (sinceReset l).length

def watchdogBoots (l : List (Str × Str)) : ℕ := l.countP fun p => strstr p.2 "watchdog".toList

def coldBoots (l : List (Str × Str)) : ℕ := l.countP fun p => p.2 = "POR_RESET".toList

def warmBoots (l : List (Str × Str)) : ℕ := l.countP fun p => p.2 ≠ "POR_RESET".toList

/-- The five counters of a configuration count the pairs `l`. -/
structure Counted (c : Config) (l : List (Str × Str)) : Prop where
  boot : counterValue c "boot_count" = bootsFromReset l
  curr : counterValue c "curr_version_boot_count" = bootsAfterReset l
  watchdog : counterValue c "watchdog_boot_count" = watchdogBoots l
  cold : counterValue c "cold_boot_count" = coldBoots l
  warm : counterValue c "warm_boot_count" = warmBoots l

/-- Every count stays below the last `int` the increment can leave. -/
structure CountsBelow (l : List (Str × Str)) : Prop where
  boot : bootsFromReset l < 2 ^ 31 - 1
  curr : bootsAfterReset l < 2 ^ 31 - 1
  watchdog : watchdogBoots l < 2 ^ 31 - 1
  cold : coldBoots l < 2 ^ 31 - 1
  warm : warmBoots l < 2 ^ 31 - 1

theorem counterValue_congr (c d : Config) (o : String)
    (h : c.named "reboots" o = d.named "reboots" o) : counterValue c o = counterValue d o := by
  simp only [counterValue, Named.get, h]

theorem counterValue_reset_self (c : Config) (o : String) (v : Str) (hv : v ≠ []) :
    counterValue (resetOptionCounter c o v) o = toInt (strtol (snprintf 16 v)) := by
  simp only [counterValue, Named.get, resetOptionCounter, Named.set_self _ _ _ _ hv,
    Option.getD_some]

theorem counterValue_reset_other (c : Config) (o o' : String) (v : Str) (h : o' ≠ o) :
    counterValue (resetOptionCounter c o v) o' = counterValue c o' :=
  counterValue_congr _ _ _ (by simp [resetOptionCounter, h])

theorem counterValue_increment_other (c : Config) (o o' : String) (h : o' ≠ o) :
    counterValue (incrementOptionCounter c o) o' = counterValue c o' :=
  counterValue_congr _ _ _ (incrementOptionCounter_named c o o' h)

/-- The increment as the `int` the option is read back as. -/
theorem counterValue_increment_self (c : Config) (o : String) :
    counterValue (incrementOptionCounter c o) o = toInt (counterValue c o + 1) := by
  obtain ⟨hlo, hhi⟩ := toInt_range (counterValue c o + 1)
  generalize hz : toInt (counterValue c o + 1) = z at hlo hhi
  have hback := strtol_snprintf_int z hlo hhi
  have hlen : (printInt z).length ≤ 11 := printInt_length_le _ 10 (by decide) (by omega)
  have hcut := snprintf_of_le 16 (printInt z) (by omega)
  have hne : printInt z ≠ [] := printInt_ne_nil z
  have hinc : incrementOptionCounter c o = resetOptionCounter c o (printInt z) := by
    simp only [incrementOptionCounter, resetOptionCounter, hz, hcut]
  rw [hinc, counterValue_reset_self _ _ _ hne]
  exact hback

theorem counterValue_increment_nat (c : Config) (o : String) (n : ℕ)
    (h : counterValue c o = toInt n) :
    counterValue (incrementOptionCounter c o) o = toInt (n + 1 : ℕ) := by
  rw [counterValue_increment_self, h, toInt, toInt, Int.bmod_add_bmod]
  rfl

theorem sinceReset_append (l : List (Str × Str)) (p : Str × Str) :
    sinceReset (l ++ [p]) = if isReset p then [] else p :: sinceReset l := by
  simp only [sinceReset, List.reverse_append, List.reverse_singleton, List.singleton_append,
    List.takeWhile_cons]
  cases isReset p <;> rfl

theorem bootsFromReset_append (l : List (Str × Str)) (p : Str × Str) :
    bootsFromReset (l ++ [p]) = if isReset p then 1 else bootsFromReset l + 1 := by
  unfold bootsFromReset
  rw [sinceReset_append]
  cases h : isReset p with
  | true => simp [h]
  | false =>
    simp only [Bool.false_eq_true, if_false, List.length_cons, List.any_append, List.any_cons, h,
      List.any_nil, Bool.or_false]
    omega

theorem bootsAfterReset_append (l : List (Str × Str)) (p : Str × Str) :
    bootsAfterReset (l ++ [p]) = if isReset p then 0 else bootsAfterReset l + 1 := by
  unfold bootsAfterReset
  rw [sinceReset_append]
  split <;> rfl

theorem counts_append (f : Str × Str → Bool) (l : List (Str × Str)) (p : Str × Str) :
    (l ++ [p]).countP f = l.countP f + if f p then 1 else 0 := by
  simp only [List.countP_append, List.countP_singleton]

/-- The five counters count the pairs `l` as far as an `int` goes. -/
structure Tallied (c : Config) (l : List (Str × Str)) : Prop where
  boot : counterValue c "boot_count" = toInt (bootsFromReset l)
  curr : counterValue c "curr_version_boot_count" = toInt (bootsAfterReset l)
  watchdog : counterValue c "watchdog_boot_count" = toInt (watchdogBoots l)
  cold : counterValue c "cold_boot_count" = toInt (coldBoots l)
  warm : counterValue c "warm_boot_count" = toInt (warmBoots l)

theorem countTrigger_counts (c : Config) (l : List (Str × Str)) (p : Str × Str)
    (h : Tallied c l) :
    counterValue (countTrigger c p.1) "boot_count" = toInt (bootsFromReset (l ++ [p])) ∧
      counterValue (countTrigger c p.1) "curr_version_boot_count" =
        toInt (bootsAfterReset (l ++ [p])) := by
  rw [bootsFromReset_append, bootsAfterReset_append]
  unfold countTrigger isReset
  by_cases hp : p.1 = "defaultreset".toList
  · rw [if_pos hp, decide_eq_true hp]
    constructor
    · rw [counterValue_reset_other _ _ _ _ (by decide),
        counterValue_reset_self _ _ _ (by decide), if_pos rfl]
      decide
    · rw [counterValue_reset_self _ _ _ (by decide), if_pos rfl]
      decide
  · rw [if_neg hp, decide_eq_false hp]
    constructor
    · rw [counterValue_increment_other _ _ _ (by decide)]
      exact counterValue_increment_nat _ _ _ h.boot
    · apply counterValue_increment_nat
      rw [counterValue_increment_other _ _ _ (by decide)]
      exact h.curr

theorem countTrigger_other (c : Config) (trigger : Str) (o : String) (h1 : o ≠ "boot_count")
    (h2 : o ≠ "curr_version_boot_count") :
    counterValue (countTrigger c trigger) o = counterValue c o := by
  unfold countTrigger
  split
  · rw [counterValue_reset_other _ _ _ _ h2, counterValue_reset_other _ _ _ _ h1]
  · rw [counterValue_increment_other _ _ _ h2, counterValue_increment_other _ _ _ h1]

theorem countWatchdog_counts (c : Config) (l : List (Str × Str)) (p : Str × Str)
    (h : counterValue c "watchdog_boot_count" = toInt (watchdogBoots l)) :
    counterValue (countWatchdog c p.2) "watchdog_boot_count" =
      toInt (watchdogBoots (l ++ [p])) := by
  have happ : watchdogBoots (l ++ [p]) =
      watchdogBoots l + if strstr p.2 "watchdog".toList then 1 else 0 := counts_append _ l p
  rw [happ]
  unfold countWatchdog
  split
  · exact counterValue_increment_nat _ _ _ h
  · exact h

theorem countWatchdog_other (c : Config) (reason : Str) (o : String)
    (h : o ≠ "watchdog_boot_count") :
    counterValue (countWatchdog c reason) o = counterValue c o := by
  unfold countWatchdog
  split
  · exact counterValue_increment_other _ _ _ h
  · rfl

theorem coldBoots_append (l : List (Str × Str)) (p : Str × Str) :
    coldBoots (l ++ [p]) = coldBoots l + if p.2 = "POR_RESET".toList then 1 else 0 := by
  unfold coldBoots
  rw [counts_append]
  simp only [decide_eq_true_eq]

theorem warmBoots_append (l : List (Str × Str)) (p : Str × Str) :
    warmBoots (l ++ [p]) = warmBoots l + if p.2 = "POR_RESET".toList then 0 else 1 := by
  unfold warmBoots
  rw [counts_append]
  simp only [decide_eq_true_eq, ne_eq, ite_not]

theorem countReason_counts (c : Config) (l : List (Str × Str)) (p : Str × Str)
    (hcold : counterValue c "cold_boot_count" = toInt (coldBoots l))
    (hwarm : counterValue c "warm_boot_count" = toInt (warmBoots l)) :
    counterValue (countReason c p.2) "cold_boot_count" = toInt (coldBoots (l ++ [p])) ∧
      counterValue (countReason c p.2) "warm_boot_count" = toInt (warmBoots (l ++ [p])) := by
  rw [coldBoots_append, warmBoots_append]
  unfold countReason
  by_cases hp : p.2 = "POR_RESET".toList
  · simp only [if_pos hp]
    exact ⟨counterValue_increment_nat _ _ _ hcold,
      (counterValue_increment_other _ _ _ (by decide)).trans hwarm⟩
  · simp only [if_neg hp]
    exact ⟨(counterValue_increment_other _ _ _ (by decide)).trans hcold,
      counterValue_increment_nat _ _ _ hwarm⟩

theorem countReason_other (c : Config) (reason : Str) (o : String)
    (h1 : o ≠ "cold_boot_count") (h2 : o ≠ "warm_boot_count") :
    counterValue (countReason c reason) o = counterValue c o := by
  unfold countReason
  split
  · exact counterValue_increment_other _ _ _ h1
  · exact counterValue_increment_other _ _ _ h2

theorem countBoot_tallied (c : Config) (l : List (Str × Str)) (p : Str × Str)
    (h : Tallied c l) : Tallied (countBoot c p.1 p.2) (l ++ [p]) := by
  obtain ⟨hboot, hcurr⟩ := countTrigger_counts c l p h
  have hwatch := countWatchdog_counts (countTrigger c p.1) l p
    ((countTrigger_other c p.1 _ (by decide) (by decide)).trans h.watchdog)
  have hcold : counterValue (countWatchdog (countTrigger c p.1) p.2) "cold_boot_count" =
      toInt (coldBoots l) := by
    rw [countWatchdog_other _ _ _ (by decide), countTrigger_other _ _ _ (by decide) (by decide)]
    exact h.cold
  have hwarm : counterValue (countWatchdog (countTrigger c p.1) p.2) "warm_boot_count" =
      toInt (warmBoots l) := by
    rw [countWatchdog_other _ _ _ (by decide), countTrigger_other _ _ _ (by decide) (by decide)]
    exact h.warm
  obtain ⟨hc, hw⟩ := countReason_counts _ l p hcold hwarm
  exact {
    boot := by
      rw [countBoot, countReason_other _ _ _ (by decide) (by decide),
        countWatchdog_other _ _ _ (by decide)]
      exact hboot
    curr := by
      rw [countBoot, countReason_other _ _ _ (by decide) (by decide),
        countWatchdog_other _ _ _ (by decide)]
      exact hcurr
    watchdog := by
      rw [countBoot, countReason_other _ _ _ (by decide) (by decide)]
      exact hwatch
    cold := hc
    warm := hw }

theorem recordBoot_counterValue (env : Env) (c : Config) (clk : Clock) (trigger reason : Str)
    (o : String) (h : o ≠ "last_reboot_cause") :
    counterValue (recordBoot env c clk trigger reason) o = counterValue c o := by
  apply counterValue_congr
  unfold recordBoot
  split
  · rw [createRebootSection_named]
    split
    · rfl
    · simp [h]
  · rfl

theorem registerBoot_tallied (env : Env) (c : Config) (clk : Clock) (l : List (Str × Str))
    (p : Str × Str) (h : Tallied c l) :
    Tallied (registerBoot env c clk p.1 p.2) (l ++ [p]) := by
  have hc := countBoot_tallied c l p h
  exact {
    boot := (recordBoot_counterValue env _ clk _ _ _ (by decide)).trans hc.boot
    curr := (recordBoot_counterValue env _ clk _ _ _ (by decide)).trans hc.curr
    watchdog := (recordBoot_counterValue env _ clk _ _ _ (by decide)).trans hc.watchdog
    cold := (recordBoot_counterValue env _ clk _ _ _ (by decide)).trans hc.cold
    warm := (recordBoot_counterValue env _ clk _ _ _ (by decide)).trans hc.warm }

theorem counted_of_tallied (c : Config) (l : List (Str × Str)) (h : Tallied c l)
    (hb : CountsBelow l) : Counted c l := by
  have hcut : ∀ n : ℕ, n < 2 ^ 31 - 1 → toInt n = n := fun n hn =>
    toInt_of_mem n (by omega) (by omega)
  exact {
    boot := h.boot.trans (hcut _ hb.boot)
    curr := h.curr.trans (hcut _ hb.curr)
    watchdog := h.watchdog.trans (hcut _ hb.watchdog)
    cold := h.cold.trans (hcut _ hb.cold)
    warm := h.warm.trans (hcut _ hb.warm) }

/-! ### Whole histories -/

/-- A call registers nothing and leaves the configuration, or it registers the one
pair it counts. -/
theorem init_config (env : Env) (clk : Clock) (w : World) :
    (regsOf (sysmngrRebootsInit env.locking clk w).2 = [] ∧
      (sysmngrRebootsInit env.locking clk w).1.config = w.config) ∨
    ∃ p, regsOf (sysmngrRebootsInit env.locking clk w).2 = [p] ∧
      (sysmngrRebootsInit env.locking clk w).1.config =
        registerBoot env.locking w.config clk p.1 p.2 := by
  rcases sysmngrRebootsInit_cases env clk w with ⟨_, hr⟩ | ⟨_, _, hr⟩ |
    ⟨_, trigger, reason, acts, hacts, hr⟩
  · rw [hr]
    exact Or.inl ⟨rfl, rfl⟩
  · rw [hr]
    exact Or.inl ⟨rfl, rfl⟩
  · rw [hr]
    rcases hacts with rfl | ⟨_, rfl⟩
    · exact Or.inr ⟨(trigger, reason), rfl, rfl⟩
    · exact Or.inr ⟨(trigger, reason), rfl, rfl⟩

theorem step_config (w : World) (e : Event) :
    (regsOf (w.step e).2.2 = [] ∧ (w.step e).1.config = w.config) ∨
    ∃ env clk p, regsOf (w.step e).2.2 = [p] ∧
      (w.step e).1.config = registerBoot env w.config clk p.1 p.2 := by
  have hinit : ∀ (env : Env) (clk : Clock) (w' : World), w'.config = w.config →
      (regsOf (sysmngrRebootsInit env.locking clk w').2 = [] ∧
        (sysmngrRebootsInit env.locking clk w').1.config = w.config) ∨
      ∃ env' clk' p, regsOf (sysmngrRebootsInit env.locking clk w').2 = [p] ∧
        (sysmngrRebootsInit env.locking clk w').1.config =
          registerBoot env' w.config clk' p.1 p.2 := by
    intro env clk w' hw
    rcases init_config env clk w' with ⟨hr, hc⟩ | ⟨p, hr, hc⟩
    · exact Or.inl ⟨hr, hc.trans hw⟩
    · exact Or.inr ⟨env.locking, clk, p, hr, by rw [hc, hw]⟩
  cases e with
  | boot file => left; exact ⟨rfl, rfl⟩
  | file content => left; exact ⟨rfl, rfl⟩
  | start env clk => exact hinit env clk { w with retryCount := 0, timer := false } rfl
  | timer env clk =>
    by_cases ht : w.timer
    · simp only [World.step, if_pos ht]
      exact hinit env clk { w with timer := false } rfl
    · simp only [World.step, if_neg ht]
      left
      exact ⟨rfl, trivial⟩

theorem run_tallied (w : World) (es : List Event) (l : List (Str × Str))
    (h : Tallied w.config l) :
    Tallied (run World.step w es).1.config (l ++ registrations (run World.step w es).2) := by
  induction es generalizing w l with
  | nil =>
    rw [run_nil, registrations, List.flatMap_nil, List.append_nil]
    exact h
  | cons e es ih =>
    simp only [run_cons_outputs, run_cons_state, registrations_cons]
    rcases step_config w e with ⟨hr, hc⟩ | ⟨env, clk, p, hr, hc⟩
    · rw [hr, List.nil_append]
      exact ih (w.step e).1 l (by rw [hc]; exact h)
    · have hnext : Tallied (w.step e).1.config (l ++ [p]) := by
        rw [hc]
        exact registerBoot_tallied env w.config clk l p h
      have hrest := ih (w.step e).1 (l ++ [p]) hnext
      rwa [List.append_assoc, ← hr] at hrest

/-- A configuration without counters. -/
def WithoutCounters (c : Config) : Prop :=
  ∀ o ∈ ["boot_count", "curr_version_boot_count", "watchdog_boot_count", "cold_boot_count",
    "warm_boot_count"], c.named "reboots" o = none

theorem withoutCounters_empty : WithoutCounters Config.empty := fun _ _ => rfl

theorem tallied_nil (c : Config) (h : WithoutCounters c) : Tallied c [] := by
  have hzero : ∀ o ∈ ["boot_count", "curr_version_boot_count", "watchdog_boot_count",
      "cold_boot_count", "warm_boot_count"], counterValue c o = toInt (0 : ℕ) := by
    intro o ho
    simp only [counterValue, Named.get, h o ho]
    decide
  exact ⟨hzero _ (by decide), hzero _ (by decide), hzero _ (by decide), hzero _ (by decide),
    hzero _ (by decide)⟩

theorem countsBelow_of_length (l : List (Str × Str)) (h : l.length < 2 ^ 31 - 2) :
    CountsBelow l := by
  have hs : (sinceReset l).length ≤ l.length := by
    unfold sinceReset
    exact (List.takeWhile_sublist _).length_le.trans_eq List.length_reverse
  exact {
    boot := by
      unfold bootsFromReset
      split <;> omega
    curr := by
      unfold bootsAfterReset
      omega
    watchdog := lt_of_le_of_lt List.countP_le_length (by omega)
    cold := lt_of_le_of_lt List.countP_le_length (by omega)
    warm := lt_of_le_of_lt List.countP_le_length (by omega) }

def World.fresh (file : Option Str) : World := ⟨Config.empty, false, file, 0, false⟩

/-- A boot is registered at most once, a daemon instance re-arms its timer at most
fifteen times and registers at its sixteenth failed check, and the counters count
the pairs registered. -/
theorem boots_registered_once_and_counted (file : Option Str) (es : List Event) :
    (∀ seg, seg <:+: (run World.step (World.fresh file) es).2 →
      (∀ e ∈ seg, e.1.isBoot = false) → (registrations seg).length ≤ 1) ∧
    (∀ seg, seg <:+: (run World.step (World.fresh file) es).2 →
      OneInstance seg → arms seg ≤ REBOOT_MAX_RETRIES) ∧
    (∀ seg x, seg ++ [x] <:+: (run World.step (World.fresh file) es).2 →
      OneInstance (seg ++ [x]) → REBOOT_MAX_RETRIES ≤ invalidChecks seg →
      .invalidFile ∈ x.2 → regsOf x.2 ≠ []) ∧
    ((∀ l, l <+: registrations (run World.step (World.fresh file) es).2 → CountsBelow l) →
      Counted (run World.step (World.fresh file) es).1.config
        (registrations (run World.step (World.fresh file) es).2)) := by
  have hfresh : (World.fresh file).retryCount ≤ REBOOT_MAX_RETRIES := Nat.zero_le _
  -- each stretch of the log is the log of a run of its own
  refine ⟨?_, ?_, ?_, ?_⟩
  · intro seg hseg hboot
    obtain ⟨as, bs, cs, _, rfl⟩ := run_outputs_infix _ _ _ _ hseg
    have hone := run_registers_once (run World.step (World.fresh file) as).1 bs (by
      intro e he
      rw [← run_entries (run World.step (World.fresh file) as).1 bs] at he
      obtain ⟨entry, hentry, rfl⟩ := List.mem_map.mp he
      exact hboot entry hentry)
    have hfree : (run World.step (World.fresh file) as).1.free ≤ 1 := by
      unfold World.free
      split <;> omega
    omega
  · intro seg hseg hinst
    obtain ⟨as, bs, cs, _, rfl⟩ := run_outputs_infix _ _ _ _ hseg
    obtain ⟨harms, _⟩ := instance_retries _ bs hinst
    have hmax := run_retryCount _ bs (run_retryCount _ as hfresh)
    omega
  · intro seg x hseg hinst hge hx
    obtain ⟨as, bs, e, rfl, rfl⟩ := run_outputs_infix_last _ _ _ _ _ hseg
    exact instance_registers _ bs e hinst hge hx
  · intro hb
    have h := run_tallied (World.fresh file) es [] (tallied_nil _ withoutCounters_empty)
    exact counted_of_tallied _ _ h (hb _ List.prefix_rfl)

def sampleHistory : List Event :=
  .start Env.ok ⟨100, 100, 20⟩ :: List.replicate 15 (.timer Env.ok ⟨150, 150, 70⟩) ++
    [.boot (some "triggered: defaultreset\nreason: POR_RESET\n".toList),
      .start Env.ok ⟨300, 300, 20⟩, .start Env.ok ⟨310, 310, 30⟩,
      .boot (some "reason: watchdog\n".toList), .start Env.ok ⟨500, 500, 20⟩]

theorem sampleHistory_counted :
    Counted (run World.step (World.fresh none) sampleHistory).1.config
      (registrations (run World.step (World.fresh none) sampleHistory).2) ∧
    (registrations (run World.step (World.fresh none) sampleHistory).2).length = 3 := by
  have hlen : (registrations (run World.step (World.fresh none) sampleHistory).2).length = 3 := by
    decide
  obtain ⟨_, _, _, hcounted⟩ := boots_registered_once_and_counted none sampleHistory
  refine ⟨hcounted fun l hl => countsBelow_of_length l ?_, hlen⟩
  have hle := hl.length_le
  omega

end Sysmngr.Reboots
