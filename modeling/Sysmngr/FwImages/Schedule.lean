import Sysmngr.FwImages.Crontab
import Sysmngr.Intervals

/-!
# When the lines of `Activate()` run

Each line names a minute of the year, that of the start of its window and at the
earliest a minute ahead. Cron runs it in that minute, and as no line is ever removed
also in the same minute of later years.
-/

namespace Sysmngr.FwImages
open Text Uci Calendar Intervals

/-! ### Runs of a line -/

/-- With local time `zone` seconds ahead of UTC, cron starts the handler of the job at
the time `t`: the lines written for it have an entry for that minute which runs it. -/
def HandlerRunsAt (j : Job) (zone t : ℤ) : Prop :=
  t % 60 = 0 ∧ ∃ ls l e, Cron.Lines j.line ls ∧ l ∈ ls ∧ Cron.readEntry l = some e ∧
    Cron.scheduleMatches e.schedule (gmtime (t + zone)) (weekday (t + zone)) = true ∧
    Shell.pipeline e.command = some [⟨"sh".toList :: ACTIVATE_HANDLER_FILE :: j.args, []⟩]

/-- After `now` the handler runs exactly once, no earlier than the minute of the start
of the window and no later than its end, both counted from `now`. -/
def RunsOnceWithin (j : Job) (zone now start end_ : ℤ) : Prop :=
  ∃ t, HandlerRunsAt j zone t ∧ now < t ∧ (now + start) / 60 * 60 ≤ t ∧ t ≤ now + end_ ∧
    ∀ t', HandlerRunsAt j zone t' → now < t' → t' = t

theorem handlerRunsAt_add_era (j : Job) (zone t : ℤ) (h : HandlerRunsAt j zone t) :
    HandlerRunsAt j zone (t + eraSeconds) := by
  obtain ⟨hminute, ls, l, e, hlines, hl, hentry, hmatches, hpipe⟩ := h
  have hera : (t + eraSeconds) % 60 = 0 := by
    unfold eraSeconds
    omega
  refine ⟨hera, ls, l, e, hlines, hl, hentry, ?_, hpipe⟩
  rw [Int.add_right_comm, Cron.scheduleMatches_add_era]
  exact hmatches

theorem not_runsOnceWithin (j : Job) (zone now start end_ : ℤ) :
    ¬RunsOnceWithin j zone now start end_ := by
  rintro ⟨t, hruns, hnow, _, _, honce⟩
  have hlater : t < t + eraSeconds := by
    unfold eraSeconds
    omega
  have hsame := honce _ (handlerRunsAt_add_era j zone t hruns) (by omega)
  omega

/-- No window of a request makes the handler run exactly once after the request. -/
theorem window_never_runs_once (api : Bbfdm) (env : Env) (bankId keep : Str) (count i : ℕ)
    (w : Window) (zone : ℤ) :
    ¬RunsOnceWithin (windowJob api env bankId keep count i w) zone (env.now i) (strtol w.start)
      (strtol w.end_) :=
  not_runsOnceWithin _ _ _ _ _

/-! ### The scheduled run -/

def SameMinuteOfYear (tm tm' : Tm) : Prop :=
  tm.min = tm'.min ∧ tm.hour = tm'.hour ∧ tm.mday = tm'.mday ∧ tm.mon = tm'.mon

theorem schedule_matches_iff (j : Job) (s : ℤ) (htime : j.time = gmtime s) (tm : Tm) (wday : ℤ) :
    Cron.scheduleMatches j.fields tm wday = true ↔ SameMinuteOfYear j.time tm := by
  obtain ⟨hmin, hhour, hmday, hmon⟩ := gmtime_nonneg s
  rw [← htime] at hmin hhour hmday hmon
  have hstar : Cron.fieldMatches "*".toList wday = true := rfl
  simp only [Job.fields, Cron.scheduleMatches, or_true, if_true, hstar, Bool.and_true,
    Bool.and_eq_true, Cron.fieldMatches_printInt _ _ hmin, Cron.fieldMatches_printInt _ _ hhour,
    Cron.fieldMatches_printInt _ _ hmday, Cron.fieldMatches_printInt (j.time.mon + 1) _ (by omega),
    SameMinuteOfYear]
  omega

/-- A job that fits its line runs in its minute of every year, and at no other time. -/
theorem handlerRunsAt_iff (j : Job) (hfits : j.Fits) (s zone t : ℤ) (htime : j.time = gmtime s) :
    HandlerRunsAt j zone t ↔ t % 60 = 0 ∧ SameMinuteOfYear j.time (gmtime (t + zone)) := by
  have hlines : Cron.Lines j.line [j.content] := by
    have hall := lines_content [j]
      (fun i hi hm => by
        rw [List.mem_singleton.mp hi] at hm
        obtain ⟨a, ha, hca⟩ := List.mem_flatten.mp hm
        exact (hfits.1 a ha).2.1 hca)
      (fun i hi => by
        rw [List.mem_singleton.mp hi]
        have hlength := length_content j
        have hfit := hfits.2
        omega)
    simpa using hall
  have hmatches := schedule_matches_iff j s htime (gmtime (t + zone)) (weekday (t + zone))
  refine and_congr_right fun _ => ⟨?_, fun hsame => ?_⟩
  · rintro ⟨ls, l, e, hls, hl, hentry, he, _⟩
    rw [hls.unique hlines] at hl
    rw [List.mem_singleton.mp hl, readEntry_content] at hentry
    obtain rfl := Option.some.inj hentry
    exact hmatches.mp he
  · obtain ⟨e, hentry, hschedule, hpipe⟩ := runs_content j hfits.1
    refine ⟨_, _, e, hlines, List.mem_singleton_self _, hentry, ?_, hpipe⟩
    rw [hschedule]
    exact hmatches.mpr hsame

theorem windowJob_time (api : Bbfdm) (env : Env) (bankId keep : Str) (count i : ℕ) (w : Window) :
    (windowJob api env bankId keep count i w).time =
      api.localtime (env.now i + max (strtol w.start) 60) := by
  have hmax : (if strtol w.start > 60 then strtol w.start else 60) = max (strtol w.start) 60 := by
    omega
  simp only [windowJob, hmax]

theorem sameMinute_roundDown (s zone : ℤ) (hzone : zone % 60 = 0) :
    SameMinuteOfYear (gmtime (s + zone)) (gmtime (roundDown 60 s + zone)) := by
  rw [← roundDown_add_of_dvd (by decide) s zone hzone, roundDown, gmtime_minute]
  exact ⟨rfl, rfl, rfl, rfl⟩

/-- The first run after the request is in the minute of the start, taken to be at least
60 seconds ahead, and so within a window that ends no earlier than that. -/
theorem window_runs_in_time (api : Bbfdm) (env : Env) (bankId keep : Str) (count i : ℕ)
    (w : Window) (zone : ℤ) (hzone : zone % 60 = 0)
    (hlocal : ∀ t, api.localtime t = gmtime (t + zone))
    (hfits : (windowJob api env bankId keep count i w).Fits) (hle : strtol w.start ≤ strtol w.end_)
    (hend : 60 ≤ strtol w.end_) :
    ∃ t, HandlerRunsAt (windowJob api env bankId keep count i w) zone t ∧ env.now i < t ∧
      (env.now i + strtol w.start) / 60 * 60 ≤ t ∧ t ≤ env.now i + strtol w.end_ := by
  have htime := windowJob_time api env bankId keep count i w
  rw [hlocal] at htime
  refine ⟨roundDown 60 (env.now i + max (strtol w.start) 60),
    (handlerRunsAt_iff _ hfits _ zone _ htime).mpr ⟨roundDown_emod _, ?_⟩, ?_, ?_, ?_⟩
  · rw [htime]
    exact sameMinute_roundDown _ zone hzone
  · exact lt_roundDown_add (by decide) _ _ (Int.le_max_right _ _)
  · exact roundDown_mono (by decide) (by omega)
  · have hle' : roundDown 60 (env.now i + max (strtol w.start) 60) ≤
        env.now i + max (strtol w.start) 60 := roundDown_le (by decide) _
    omega

def nextHour : Window := ⟨"60".toList, "3600".toList, "AnyTime".toList, [], []⟩

def nextHourJob : Job := windowJob .plain .fine "2".toList "1".toList 1 0 nextHour

theorem nextHour_runs_every_year :
    ¬∀ (api : Bbfdm) (env : Env) (bankId keep : Str) (count i : ℕ) (w : Window) (zone : ℤ),
      zone % 60 = 0 → (∀ t, api.localtime t = gmtime (t + zone)) → checkWindow api none w = true →
      RunsOnceWithin (windowJob api env bankId keep count i w) zone (env.now i) (strtol w.start)
        (strtol w.end_) := by
  intro hall
  have honce := hall .plain .fine "2".toList "1".toList 1 0 nextHour 0 (by decide)
    (fun t => by rw [Int.add_zero]; rfl) (by decide)
  obtain ⟨t, _, _, _, _, hunique⟩ := honce
  have hruns : ∀ t, t % 60 = 0 → SameMinuteOfYear nextHourJob.time (gmtime (t + 0)) →
      HandlerRunsAt nextHourJob 0 t :=
    fun t ht hsame => (handlerRunsAt_iff nextHourJob (by decide) 60 0 t rfl).mpr ⟨ht, hsame⟩
  have hfirst := hunique 60 (hruns 60 (by decide) ⟨by decide, by decide, by decide, by decide⟩)
    (by decide)
  have hsecond := hunique (60 + 365 * 86400)
    (hruns _ (by decide) ⟨by decide, by decide, by decide, by decide⟩) (by decide)
  omega

end Sysmngr.FwImages
