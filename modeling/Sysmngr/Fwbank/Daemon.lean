import Mathlib.Data.List.DropRight
import Sysmngr.Fwbank.Dump

/-!
# The life of the daemon's dump (`fwbank.c`, `sysmngr.c`)

The first dump is started before the `fwbank` object is registered and ends some time
later; a switch or an upgrade starts further ones. An attempt that fails arms the retry
timer as long as the one counter of failures allows it.
-/

namespace Sysmngr.Fwbank
open Text Blobmsg Machine

/-- The dump and its timer, the number of dump tasks that run, and whether the `fwbank`
object is registered. -/
structure Daemon where
  cache : FwbankDump
  dumps : ℕ
  registered : Bool

def Daemon.initial : Daemon := ⟨.initial, 0, false⟩

/-- The steps of the start-up, a refresh after a switch or on a `sysupgrade` event, the
end of a dump task, the retry timer and a client's request for the dump. -/
inductive DaemonEvent where
  | initFwbankDump (fileExists forkOk : Bool)
  | registerFwbank (added : Bool)
  | refresh (forkOk : Bool)
  | finish (r : Reads)
  | timer (fileExists forkOk : Bool)
  | dump

/-- What is seen of an event: the end of an attempt, with whether the retry timer is
pending before and after it, or the reply to a request. -/
inductive Observed where
  | quiet
  | finished (r : Reads) (before after : Bool)
  | replied (dump : Option (List Attr))

def Daemon.initGlobalFwbankDump (d : Daemon) (forkOk : Bool) : Daemon :=
  if forkOk then { d with dumps := d.dumps + 1 } else d

def Daemon.sysmngrInitFwbankDump (d : Daemon) (fileExists forkOk : Bool) : Daemon :=
  if fileExists then d.initGlobalFwbankDump forkOk else d

section Runs
variable (parse : Str → Option (List Attr))

def Daemon.step (d : Daemon) (e : DaemonEvent) : Daemon × Observed :=
  match e with
  | .initFwbankDump fileExists forkOk => (d.sysmngrInitFwbankDump fileExists forkOk, .quiet)
  | .registerFwbank added => ({ d with registered := d.registered || added }, .quiet)
  | .refresh forkOk => (d.initGlobalFwbankDump forkOk, .quiet)
  | .finish r =>
    if d.dumps = 0 then (d, .quiet)
    else
      let cache := fwbankDumpFinishCallback parse d.cache r
      ({ d with cache := cache, dumps := d.dumps - 1 }, .finished r d.cache.timer cache.timer)
  | .timer fileExists forkOk =>
    if d.cache.timer then
      (Daemon.sysmngrInitFwbankDump { d with cache := { d.cache with timer := false } }
        fileExists forkOk, .quiet)
    else (d, .quiet)
  | .dump => (d, if d.registered then .replied (dumpHandler d.cache) else .quiet)

def Observed.failed : Observed → Bool
  | .finished r _ _ => (accepted parse r).isNone
  | _ => false

def Observed.succeeded : Observed → Bool
  | .finished r _ _ => (accepted parse r).isSome
  | _ => false

def failures (log : List Observed) : ℕ := log.countP (Observed.failed parse)

/-- The failures since the last attempt that succeeded. -/
def failuresSinceSuccess (log : List Observed) : ℕ :=
  failures parse (log.rtakeWhile fun o => !o.succeeded parse)

/-! ### Steps -/

theorem dumpCallback_eq (g : FwbankDump) (r : Reads) :
    fwbankDumpFinishCallback parse g r =
      match accepted parse r with
      | some dump => { g with output := some (dump.take 1) }
      | none => retry g := by
  unfold fwbankDumpFinishCallback accepted
  cases dumpText r with
  | none => rfl
  | some buffer =>
    simp only [Option.bind_some]
    cases parse buffer with
    | none => rfl
    | some temp =>
      simp only [Option.filter_some]
      split <;> rfl

/-- Every step but the end of an attempt keeps the dump and the count, and is no attempt. -/
theorem step_quiet (d : Daemon) (e : DaemonEvent) (he : ∀ r, e ≠ .finish r) :
    (d.step parse e).1.cache.output = d.cache.output ∧
      (d.step parse e).1.cache.retryCount = d.cache.retryCount ∧
      ∀ r before after, (d.step parse e).2 ≠ .finished r before after := by
  have hinit : ∀ (d : Daemon) k, (d.initGlobalFwbankDump k).cache = d.cache := by
    intro d k
    unfold Daemon.initGlobalFwbankDump
    split <;> rfl
  have hstart : ∀ (d : Daemon) f k, (d.sysmngrInitFwbankDump f k).cache = d.cache := by
    intro d f k
    unfold Daemon.sysmngrInitFwbankDump
    split
    · exact hinit d k
    · rfl
  cases e with
  | initFwbankDump f k => simp [Daemon.step, hstart]
  | registerFwbank added => simp [Daemon.step]
  | refresh k => simp [Daemon.step, hinit]
  | finish r => exact absurd rfl (he r)
  | timer f k =>
    simp only [Daemon.step]
    split <;> simp [hstart]
  | dump =>
    simp only [Daemon.step]
    split <;> simp

theorem step_finish (d : Daemon) (r : Reads) (h : d.dumps ≠ 0) :
    d.step parse (.finish r) =
      ({ d with cache := fwbankDumpFinishCallback parse d.cache r, dumps := d.dumps - 1 },
        .finished r d.cache.timer (fwbankDumpFinishCallback parse d.cache r).timer) := by
  simp only [Daemon.step, if_neg h]

/-! ### Requests for the dump -/

def LoadedReplies : List Observed → Prop :=
  Throughout fun _ o => ∀ dump, o = .replied dump → dump.isSome

def RepliesAfterDump : List Observed → Prop :=
  Throughout fun pre o => ∀ dump, o = .replied dump → ∃ x ∈ pre, x.succeeded parse = true

def LoadedAfter (d : Daemon) (log : List Observed) : Prop :=
  d.cache.output.isSome ↔ ∃ o ∈ log, o.succeeded parse = true

theorem succeeded_of_quiet (o : Observed) (h : ∀ r before after, o ≠ .finished r before after) :
    o.succeeded parse = false ∧ o.failed parse = false := by
  cases o with
  | quiet => exact ⟨rfl, rfl⟩
  | finished r before after => exact absurd rfl (h r before after)
  | replied dump => exact ⟨rfl, rfl⟩

theorem exists_append_singleton (log : List Observed) (o : Observed) (p : Observed → Bool) :
    (∃ x ∈ log ++ [o], p x = true) ↔ (∃ x ∈ log, p x = true) ∨ p o = true := by
  simp [or_and_right, exists_or]

theorem step_loadedAfter (d : Daemon) (e : DaemonEvent) (log : List Observed)
    (h : LoadedAfter parse d log) :
    LoadedAfter parse (d.step parse e).1 (log ++ [(d.step parse e).2]) := by
  unfold LoadedAfter at h ⊢
  rw [exists_append_singleton, ← h]
  by_cases hfinish : ∃ r, e = .finish r
  · obtain ⟨r, rfl⟩ := hfinish
    by_cases hdumps : d.dumps = 0
    · simp [Daemon.step, hdumps, Observed.succeeded]
    · rw [step_finish parse d r hdumps]
      simp only [dumpCallback_eq, Observed.succeeded]
      cases accepted parse r with
      | none =>
        simp only [retry, Option.isSome_none, Bool.false_eq_true, or_false]
        split <;> rfl
      | some dump => simp
  · obtain ⟨houtput, -, hquiet⟩ := step_quiet parse d e fun r hr => hfinish ⟨r, hr⟩
    rw [houtput, (succeeded_of_quiet parse _ hquiet).1]
    simp

theorem step_replied (d : Daemon) (e : DaemonEvent) (dump : Option (List Attr))
    (h : (d.step parse e).2 = .replied dump) : dump = d.cache.output := by
  cases e with
  | initFwbankDump f k => simp [Daemon.step] at h
  | registerFwbank added => simp [Daemon.step] at h
  | refresh k => simp [Daemon.step] at h
  | finish r =>
    simp only [Daemon.step] at h
    split at h <;> simp at h
  | timer f k =>
    simp only [Daemon.step] at h
    split at h <;> simp at h
  | dump =>
    simp only [Daemon.step] at h
    split at h
    · exact (Observed.replied.inj h).symm
    · simp at h

/-- Every request for the dump is answered with a loaded dump exactly when each comes
after a dump task has finished with an output that is accepted. -/
theorem loaded_replies_iff (es : List DaemonEvent) :
    LoadedReplies (run (Daemon.step parse) .initial es).2 ↔
      RepliesAfterDump parse (run (Daemon.step parse) .initial es).2 := by
  refine throughout_run_iff (Daemon.step parse) (LoadedAfter parse) _ _
    (fun d e log => step_loadedAfter parse d e log) (fun d e log hlog => ?_) .initial es ?_
  · refine forall_congr' fun dump => imp_congr_right fun hdump => ?_
    rw [step_replied parse d e dump hdump]
    exact hlog
  · exact iff_of_false (by decide) (by simp)

/-- A client asks for the dump before the first one has finished. -/
theorem request_before_first_dump :
    ¬∀ parse es, LoadedReplies (run (Daemon.step parse) .initial es).2 := by
  intro hall
  have hlog : (run (Daemon.step fun _ => none) .initial
      [.initFwbankDump true true, .registerFwbank true, .dump]).2 =
        [.quiet, .quiet] ++ [.replied none] := rfl
  have h := hall (fun _ => none) [.initFwbankDump true true, .registerFwbank true, .dump]
  rw [hlog] at h
  exact absurd (h _ _ [] rfl none rfl) (by decide)

/-! ### Retries -/

def RetriesEachEpisode : List Observed → Prop :=
  Throughout fun pre o => ∀ r before after, o = .finished r before after →
    accepted parse r = none → failuresSinceSuccess parse pre < FWBANK_DUMP_MAX_RETRIES →
    after = true

def FailuresWithinBudget : List Observed → Prop :=
  Throughout fun pre o => ∀ r before after, o = .finished r before after →
    accepted parse r = none → failuresSinceSuccess parse pre < FWBANK_DUMP_MAX_RETRIES →
    before = true ∨ failures parse pre < FWBANK_DUMP_MAX_RETRIES

/-- The counter is never set back: it counts all failures, up to its maximum. -/
def CountsFailures (d : Daemon) (log : List Observed) : Prop :=
  d.cache.retryCount = min (failures parse log) FWBANK_DUMP_MAX_RETRIES

theorem retry_retryCount (g : FwbankDump) : (retry g).retryCount =
    if g.retryCount < FWBANK_DUMP_MAX_RETRIES then g.retryCount + 1 else g.retryCount := by
  unfold retry
  split <;> rfl

theorem step_countsFailures (d : Daemon) (e : DaemonEvent) (log : List Observed)
    (h : CountsFailures parse d log) :
    CountsFailures parse (d.step parse e).1 (log ++ [(d.step parse e).2]) := by
  unfold CountsFailures failures at h ⊢
  rw [List.countP_append, List.countP_singleton]
  by_cases hfinish : ∃ r, e = .finish r
  · obtain ⟨r, rfl⟩ := hfinish
    by_cases hdumps : d.dumps = 0
    · simp [Daemon.step, hdumps, Observed.failed, h]
    · rw [step_finish parse d r hdumps]
      rcases haccepted : accepted parse r with _ | dump
      · simp only [dumpCallback_eq, Observed.failed, haccepted, retry_retryCount, h,
          Option.isNone_none, if_true]
        split <;> omega
      · simpa [dumpCallback_eq, Observed.failed, haccepted] using h
  · obtain ⟨-, hcount, hquiet⟩ := step_quiet parse d e fun r hr => hfinish ⟨r, hr⟩
    rw [hcount, (succeeded_of_quiet parse _ hquiet).2]
    simpa using h

theorem step_finished (d : Daemon) (e : DaemonEvent) (r : Reads) (before after : Bool)
    (h : (d.step parse e).2 = .finished r before after) (hr : accepted parse r = none) :
    after = true ↔ before = true ∨ d.cache.retryCount < FWBANK_DUMP_MAX_RETRIES := by
  by_cases hfinish : ∃ r, e = .finish r
  · obtain ⟨r', rfl⟩ := hfinish
    by_cases hdumps : d.dumps = 0
    · simp [Daemon.step, hdumps] at h
    · rw [step_finish parse d r' hdumps] at h
      obtain ⟨rfl, rfl, rfl⟩ := Observed.finished.inj h
      rw [dumpCallback_eq, hr]
      simp only [retry]
      split
      · simp [*]
      · simp [*]
  · exact absurd h ((step_quiet parse d e fun r hr => hfinish ⟨r, hr⟩).2.2 r before after)

/-- In every run, each attempt that fails with fewer than ten failures since the last
success is retried exactly when it finds the retry timer pending or fewer than ten have
failed since the daemon was started. -/
theorem retries_iff (es : List DaemonEvent) :
    RetriesEachEpisode parse (run (Daemon.step parse) .initial es).2 ↔
      FailuresWithinBudget parse (run (Daemon.step parse) .initial es).2 := by
  refine throughout_run_iff (Daemon.step parse) (CountsFailures parse) _ _
    (fun d e log => step_countsFailures parse d e log) (fun d e log hlog => ?_) .initial es rfl
  refine forall_congr' fun r => forall_congr' fun before => forall_congr' fun after =>
    imp_congr_right fun ho => imp_congr_right fun hr => imp_congr_right fun _ => ?_
  rw [step_finished parse d e r before after ho hr, hlog]
  refine or_congr_right ?_
  omega

end Runs

def noOutput : Reads := ⟨[], false⟩

def bankOutput : Reads := ⟨[versionedText], false⟩

def retriedOnce : List DaemonEvent :=
  [.refresh true, .finish noOutput, .timer true true, .finish bankOutput]

def retriedLog : List Observed :=
  [.quiet, .finished noOutput false true, .quiet, .finished bankOutput false false]

theorem noOutput_refused : accepted versionedParse noOutput = none := by
  have hread : readOutput noOutput = some [] :=
    readOutput_eq [] fun c hc => absurd hc List.not_mem_nil
  rw [accepted, dumpText, hread]
  rfl

set_option maxRecDepth 4000 in
theorem bankOutput_accepted : accepted versionedParse bankOutput = some versionedDump := by
  rw [bankOutput, accepted_whole versionedParse _ (by decide) (by decide) (by decide),
    versionedParse, if_pos rfl]
  rfl

/-- Each round takes one of the retries away for good. -/
theorem run_retriedOnce (k n : ℕ) (output : Option (List Attr)) (h : n + k ≤ 10) :
    (∃ output', (run (Daemon.step versionedParse) ⟨⟨output, n, false⟩, 0, false⟩
      (List.replicate k retriedOnce).flatten).1 = ⟨⟨output', n + k, false⟩, 0, false⟩) ∧
    (run (Daemon.step versionedParse) ⟨⟨output, n, false⟩, 0, false⟩
      (List.replicate k retriedOnce).flatten).2 = (List.replicate k retriedLog).flatten := by
  induction k generalizing n output with
  | zero => exact ⟨⟨output, rfl⟩, rfl⟩
  | succ k ih =>
    have hmax : n < FWBANK_DUMP_MAX_RETRIES := by
      unfold FWBANK_DUMP_MAX_RETRIES
      omega
    have hround : run (Daemon.step versionedParse) ⟨⟨output, n, false⟩, 0, false⟩ retriedOnce =
        (⟨⟨some (versionedDump.take 1), n + 1, false⟩, 0, false⟩, retriedLog) := by
      simp [retriedOnce, run, Daemon.step, Daemon.initGlobalFwbankDump,
        Daemon.sysmngrInitFwbankDump, dumpCallback_eq, noOutput_refused, bankOutput_accepted,
        retry, hmax, retriedLog]
    obtain ⟨⟨output', hstate⟩, hlog⟩ := ih (n + 1) (some (versionedDump.take 1)) (by omega)
    rw [List.replicate_succ, List.flatten_cons, run_append, hround]
    refine ⟨⟨output', ?_⟩, ?_⟩
    · rw [hstate, Nat.add_right_comm, Nat.add_assoc]
    · rw [hlog]
      rfl

/-- Ten refreshes that were each retried once use up the retries of the eleventh. -/
theorem eleventh_refresh_not_retried :
    ¬∀ parse es, RetriesEachEpisode parse (run (Daemon.step parse) .initial es).2 := by
  intro hall
  have h := hall versionedParse ((List.replicate 10 retriedOnce).flatten ++
    [.refresh true, .finish noOutput])
  obtain ⟨⟨output, hstate⟩, hlog⟩ := run_retriedOnce 10 0 none (by decide)
  have hlast : (run (Daemon.step versionedParse) ⟨⟨output, 10, false⟩, 0, false⟩
      [.refresh true, .finish noOutput]).2 = [.quiet, .finished noOutput false false] := by
    simp [run, Daemon.step, Daemon.initGlobalFwbankDump, dumpCallback_eq, noOutput_refused,
      retry, FWBANK_DUMP_MAX_RETRIES]
  have hinitial : Daemon.initial = ⟨⟨none, 0, false⟩, 0, false⟩ := rfl
  rw [run_append, hinitial, hstate, hlog, hlast] at h
  have hten : (List.replicate 10 retriedLog).flatten ++ [.quiet, .finished noOutput false false] =
      ((List.replicate 9 retriedLog).flatten ++ retriedLog.dropLast ++
        [.finished bankOutput false false] ++ [.quiet]) ++
          [.finished noOutput false false] := rfl
  rw [hten] at h
  have hafter := h _ _ [] rfl noOutput false false rfl noOutput_refused
  rw [failuresSinceSuccess, List.rtakeWhile_concat_pos _ _ _ rfl,
    List.rtakeWhile_concat_neg] at hafter
  · exact absurd (hafter (by decide)) (by decide)
  · simp [Observed.succeeded, bankOutput_accepted]

end Sysmngr.Fwbank
