import Sysmngr.Machine
import Sysmngr.Processes.Model

/-!
# The updater of the process list

A refresh sets the timer for the next one. When the timer fires, the list is not
refreshed at once: the session of `tr069` is asked for its status, and the completion of
that call refreshes the list. Where the call is refused the timer's callback does it.
-/

namespace Sysmngr.Processes
open Text Uci Machine

/-- The context with what the main loop holds for it: the timer, pending with the delay it
was set to, and the calls that have been accepted and not completed. -/
structure Updater where
  ctx : ProcessCtx
  timer : Option ℤ
  calls : ℕ

/-- What the main loop runs: a request that browses the table, the timer's callback with
the answer to its call and `/proc` for the case that the call is refused, and the
completion of a call. -/
inductive UpdaterEvent where
  | browse (stop : ℕ → Bool)
  | timer (res : ℤ) (proc : Option Proc)
  | complete (proc : Option Proc)

/-- The timer fires once it is pending, and a call completes after it was accepted. -/
def UpdaterEvent.Possible (s : Updater) : UpdaterEvent → Prop
  | .browse _ => True
  | .timer _ _ => s.timer.isSome = true
  | .complete _ => 0 < s.calls

instance (s : Updater) : ∀ e : UpdaterEvent, Decidable (e.Possible s)
  | .browse _ => isTrue trivial
  | .timer _ _ => inferInstanceAs (Decidable (s.timer.isSome = true))
  | .complete _ => inferInstanceAs (Decidable (0 < s.calls))

inductive Done where
  | browsed (instances : List (ℕ × ProcessEntry)) (effects : List Effect)
  | refreshed (effects : List Effect)
  | asked

/-- `uloop_timeout_set` for each delay among the effects; setting a pending timer moves
it. -/
def timerAfter (timer : Option ℤ) (effects : List Effect) : Option ℤ :=
  effects.foldl (fun timer e =>
    match e with
    | .timeoutSet ms => some ms
    | .event _ _ => timer) timer

def Updater.refresh (s : Updater) (proc : Option Proc) : Updater × Done :=
  let r := runRefreshProcessList s.ctx proc
  ({ s with ctx := r.1, timer := timerAfter s.timer r.2 }, .refreshed r.2)

/-- The main loop takes the timer off its list before it runs the callback. -/
def processRefreshInstanceTimer (s : Updater) (res : ℤ) (proc : Option Proc) : Updater × Done :=
  let s := { s with timer := none }
  if res ≠ 0 then s.refresh proc else ({ s with calls := s.calls + 1 }, .asked)

def ubusCallCompleteCb (s : Updater) (proc : Option Proc) : Updater × Done :=
  Updater.refresh { s with calls := s.calls - 1 } proc

def updaterStep (s : Updater) : UpdaterEvent → Updater × Done
  | .browse stop =>
    let r := browseProcessEntriesInst s.ctx stop
    ({ s with timer := timerAfter s.timer r.2 }, .browsed r.1 r.2)
  | .timer res proc => processRefreshInstanceTimer s res proc
  | .complete proc => ubusCallCompleteCb s proc

def startUpdater (uci : Named) (first : Option Proc) : Updater :=
  let r := sysmngrProcessInit uci first
  ⟨r.1, timerAfter none r.2, 0⟩

/-- The refresh timer is pending or one call is in flight, and not both. -/
def OnePending (s : Updater) : Prop :=
  (s.timer.isSome = true ∧ s.calls = 0) ∨ (s.timer = none ∧ s.calls = 1)

def UpdaterEvent.firings : UpdaterEvent → ℕ
  | .timer _ _ => 1
  | _ => 0

def Done.refreshes : Done → ℕ
  | .refreshed _ => 1
  | _ => 0

/-! ### One refresh -/

theorem timerAfter_append (timer : Option ℤ) (effects : List Effect) (ms : ℤ) :
    timerAfter timer (effects ++ [.timeoutSet ms]) = some ms := by
  rw [timerAfter, List.foldl_append]
  rfl

theorem refresh_sets_timer (s : Updater) (proc : Option Proc) (h : 0 < s.ctx.refreshInterval) :
    (s.refresh proc).1.timer = some (toInt (s.ctx.refreshInterval * 1000)) := by
  rw [Updater.refresh, refresh_effects s.ctx proc h]
  exact timerAfter_append _ _ _

theorem refresh_calls (s : Updater) (proc : Option Proc) :
    (s.refresh proc).1.calls = s.calls := rfl

theorem browse_keeps_timer (s : Updater) (stop : ℕ → Bool) (h : 0 < s.ctx.refreshInterval) :
    (updaterStep s (.browse stop)).1 = s := by
  have hno : ¬s.ctx.refreshInterval ≤ 0 := Int.not_le.mpr h
  simp only [updaterStep, browseProcessEntriesInst, if_neg hno]
  rfl

/-! ### Runs -/

/-- Refreshes are periodic, and the next one is on its way exactly once. -/
structure Refreshing (s : Updater) : Prop where
  interval : 0 < s.ctx.refreshInterval
  pending : OnePending s

theorem step_interval (s : Updater) (e : UpdaterEvent) :
    (updaterStep s e).1.ctx.refreshInterval = s.ctx.refreshInterval := by
  cases e with
  | browse stop => rfl
  | timer res proc =>
    simp only [updaterStep, processRefreshInstanceTimer]
    split
    · exact refresh_interval s.ctx proc
    · rfl
  | complete proc => exact refresh_interval s.ctx proc

theorem step_pending (s : Updater) (e : UpdaterEvent) (h : Refreshing s) (he : e.Possible s) :
    OnePending (updaterStep s e).1 := by
  cases e with
  | browse stop =>
    rw [browse_keeps_timer s stop h.interval]
    exact h.pending
  | timer res proc =>
    -- a timer that fires was pending, so no call is in flight
    have hnone : s.calls = 0 := by
      rcases h.pending with ⟨-, hcalls⟩ | ⟨htimer, -⟩
      · exact hcalls
      · rw [UpdaterEvent.Possible, htimer] at he
        exact Bool.noConfusion he
    simp only [updaterStep, processRefreshInstanceTimer]
    split
    · have hset := refresh_sets_timer { s with timer := none } proc h.interval
      exact Or.inl ⟨Option.isSome_of_eq_some hset, hnone⟩
    · exact Or.inr ⟨rfl, by rw [hnone]⟩
  | complete proc =>
    -- the call that completes was the only one
    have hone : s.calls = 1 := by
      rcases h.pending with ⟨-, hcalls⟩ | ⟨-, hcalls⟩
      · rw [UpdaterEvent.Possible, hcalls] at he
        exact absurd he (Nat.lt_irrefl 0)
      · exact hcalls
    have hset := refresh_sets_timer { s with calls := s.calls - 1 } proc h.interval
    refine Or.inl ⟨Option.isSome_of_eq_some hset, ?_⟩
    simp only [updaterStep, ubusCallCompleteCb, refresh_calls, hone]

theorem step_refreshing (s : Updater) (e : UpdaterEvent) (h : Refreshing s) (he : e.Possible s) :
    Refreshing (updaterStep s e).1 where
  interval := by
    rw [step_interval]
    exact h.interval
  pending := step_pending s e h he

/-- A firing is answered by a refresh or by a call, and a call by a refresh. -/
theorem step_balance (s : Updater) (e : UpdaterEvent) (he : e.Possible s) :
    s.calls + e.firings = (updaterStep s e).1.calls + (updaterStep s e).2.refreshes := by
  cases e with
  | browse stop => rfl
  | timer res proc =>
    simp only [updaterStep, processRefreshInstanceTimer]
    split <;> rfl
  | complete proc =>
    have hpos : 0 < s.calls := he
    simp only [updaterStep, ubusCallCompleteCb, UpdaterEvent.firings, Updater.refresh,
      Done.refreshes]
    omega

theorem start_refreshing (uci : Named) (first : Option Proc)
    (h : 0 < getInstanceRefreshInterval uci) : Refreshing (startUpdater uci first) where
  interval := by
    rw [startUpdater, sysmngrProcessInit, refresh_interval]
    exact h
  pending := by
    refine Or.inl ⟨?_, rfl⟩
    have hset := refresh_sets_timer ⟨⟨[], getInstanceRefreshInterval uci, 0⟩, none, 0⟩ first h
    rw [startUpdater, sysmngrProcessInit]
    exact Option.isSome_of_eq_some hset

/-- The periodic refresh after a run: one is on its way, and every firing of the timer has
led to one refresh but for the call in flight. -/
structure KeepsRefreshing (uci : Named) (first : Option Proc) (es : List UpdaterEvent) : Prop where
  pending : OnePending (run updaterStep (startUpdater uci first) es).1
  refreshes : (es.map UpdaterEvent.firings).sum =
    (run updaterStep (startUpdater uci first) es).1.calls +
      ((run updaterStep (startUpdater uci first) es).2.map Done.refreshes).sum

/-- In every run of a periodic updater the refresh is neither lost nor doubled. -/
theorem keepsRefreshing (uci : Named) (first : Option Proc) (es : List UpdaterEvent)
    (hinterval : 0 < getInstanceRefreshInterval uci)
    (h : Along updaterStep UpdaterEvent.Possible (startUpdater uci first) es) :
    KeepsRefreshing uci first es := by
  have hstart := start_refreshing uci first hinterval
  refine ⟨?_, ?_⟩
  · exact (run_invariant updaterStep UpdaterEvent.Possible Refreshing step_refreshing _ es hstart
      h).pending
  · have hbalance := run_balance updaterStep UpdaterEvent.Possible Refreshing UpdaterEvent.firings
      Updater.calls Done.refreshes step_refreshing (fun s e _ he => step_balance s e he) _ es
      hstart h
    have hnone : (startUpdater uci first).calls = 0 := rfl
    rw [hnone, Nat.zero_add] at hbalance
    exact hbalance

def everyTenSeconds : Named :=
  Named.set (fun _ _ => none) "process" "instance_refresh_interval" "10".toList

/-- The call of the first firing is accepted, that of the second is refused. -/
theorem keepsRefreshing_accepted_refused :
    KeepsRefreshing everyTenSeconds none
      [.timer 0 none, .browse fun _ => false, .complete none, .timer 4 none] :=
  keepsRefreshing everyTenSeconds none _ (by decide +kernel) (by decide +kernel)

end Sysmngr.Processes
