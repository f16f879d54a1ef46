import Mathlib.Data.List.Forall2
import Sysmngr.Cron
import Sysmngr.FwImages.Model
import Sysmngr.Shell

/-!
# The lines of `Activate()` in root's crontab

Each time window appends one `snprintf` of at most 511 bytes with the handler's
arguments between single quotes. What cron and the shell make of the appended text
is what was meant exactly when the arguments hold no single quote, newline or
percent sign and every line fits.
-/

namespace Sysmngr.FwImages
open Text Uci Blobmsg Fwbank

/-! ### What the lines should say -/

def Job.fields (j : Job) : List Str :=
  [printInt j.time.min, printInt j.time.hour, printInt j.time.mday, printInt (j.time.mon + 1),
    "*".toList]

/-- Read by cron, the line runs at the job's time a text of which the shell makes one
command, the handler with the seven arguments of the job. -/
def Runs (line : Str) (j : Job) : Prop :=
  ∃ e, Cron.readEntry line = some e ∧ e.schedule = j.fields ∧
    Shell.pipeline e.command = some [⟨"sh".toList :: ACTIVATE_HANDLER_FILE :: j.args, []⟩]

/-- The text is one line for each job, in order, that runs it. -/
def RunsJobs (text : Str) (jobs : List Job) : Prop :=
  ∃ ls, Cron.Lines text ls ∧ List.Forall₂ Runs ls jobs

def appended (effects : List Effect) : Str :=
  effects.flatMap fun
    | .appendCrontab j => j.line
    | _ => []

/-- The arguments keep to their quotes, and with the 78 bytes printed around them they
and the fields keep to the buffer. -/
def Job.Fits (j : Job) : Prop :=
  (∀ a ∈ j.args, '\'' ∉ a ∧ '\n' ∉ a ∧ '%' ∉ a) ∧
    j.fields.flatten.length + j.args.flatten.length + 78 ≤ 511

instance (j : Job) : Decidable j.Fits := inferInstanceAs (Decidable (_ ∧ _))

/-! ### The text of a line -/

def Job.content (j : Job) : Str := j.schedule ++ ' ' :: j.command

theorem line_eq (j : Job) : j.line = (j.content ++ ['\n']).take 511 := by
  simp [Job.line, Job.content, snprintf]

theorem command_eq (j : Job) :
    j.command = "sh ".toList ++ ACTIVATE_HANDLER_FILE ++ Shell.quoted j.args := rfl

theorem content_eq (j : Job) : j.content =
    printInt j.time.min ++ ' ' :: (printInt j.time.hour ++ ' ' :: (printInt j.time.mday ++
      ' ' :: (printInt (j.time.mon + 1) ++ ' ' :: ("*".toList ++ ' ' :: j.command)))) := by
  simp [Job.content, Job.schedule]

theorem command_countP (p : Char → Bool) (hs : p ' ' = false) (hq : p '\'' = false)
    (h : ("sh ".toList ++ ACTIVATE_HANDLER_FILE).countP p = 0) (j : Job) :
    j.command.countP p = j.args.flatten.countP p := by
  rw [command_eq, List.countP_append, h, Shell.countP_quoted p hs hq, Nat.zero_add]

theorem words_countP (p : Char → Bool) (h : ("sh".toList ++ ACTIVATE_HANDLER_FILE).countP p = 0)
    (j : Job) : (Shell.wordChars [⟨"sh".toList :: ACTIVATE_HANDLER_FILE :: j.args, []⟩]).countP p =
      j.args.flatten.countP p := by
  have hwords : Shell.wordChars [⟨"sh".toList :: ACTIVATE_HANDLER_FILE :: j.args, []⟩] =
      "sh".toList ++ ACTIVATE_HANDLER_FILE ++ j.args.flatten := by
    simp [Shell.wordChars]
  rw [hwords, List.countP_append, h, Nat.zero_add]

theorem schedule_newline (j : Job) : '\n' ∉ j.schedule := by
  have hint : ∀ z, '\n' ∉ printInt z := fun z hm => by
    rcases printInt_chars z '\n' hm with h | h <;> exact absurd h (by decide)
  simp [Job.schedule, hint]

theorem content_newline (j : Job) (h : '\n' ∉ j.args.flatten) : '\n' ∉ j.content := by
  have hcommand : '\n' ∉ j.command := by
    refine notMem_of_countP_eq_zero _ _ ?_
    rw [command_countP _ (by decide) (by decide) (by decide)]
    exact countP_eq_zero_of_notMem _ _ h
  intro hm
  rcases List.mem_append.mp hm with hm | hm
  · exact schedule_newline j hm
  · rcases List.mem_cons.mp hm with hm | hm
    · exact absurd hm (by decide)
    · exact hcommand hm

/-! ### Reading one line -/

theorem readEntry_content (j : Job) :
    Cron.readEntry j.content = some ⟨j.fields, Cron.command j.command⟩ := by
  have hint : ∀ z, ∀ c ∈ printInt z, Cron.blank c = false := by
    intro z c hc
    rcases printInt_chars z c hc with h | rfl
    · simp only [Cron.blank, Bool.or_eq_false_iff, decide_eq_false_iff_not]
      constructor <;> (rintro rfl; exact absurd h (by decide))
    · decide
  have hstar : ∀ c ∈ "*".toList, Cron.blank c = false := fun c hc => by
    rw [List.mem_singleton.mp hc]
    decide
  have hcommand : Cron.readFields 0 j.command = some ([], j.command) := rfl
  rw [Cron.readEntry, content_eq,
    Cron.readFields_field 4 _ _ (printInt_ne_nil _) (hint _),
    Cron.readFields_field 3 _ _ (printInt_ne_nil _) (hint _),
    Cron.readFields_field 2 _ _ (printInt_ne_nil _) (hint _),
    Cron.readFields_field 1 _ _ (printInt_ne_nil _) (hint _),
    Cron.readFields_field 0 _ _ (by decide) hstar, hcommand]
  rfl

theorem pipeline_command (j : Job) (h : ∀ a ∈ j.args, '\'' ∉ a) :
    Shell.pipeline j.command = some [⟨"sh".toList :: ACTIVATE_HANDLER_FILE :: j.args, []⟩] := by
  have hstart : Shell.Lexer.start.run ("sh ".toList ++ ACTIVATE_HANDLER_FILE) =
      some ⟨.plain, some ACTIVATE_HANDLER_FILE, false, [.word "sh".toList]⟩ := by decide
  obtain ⟨l, hrun, hmode, htoks⟩ := Shell.run_quoted
    ⟨.plain, some ACTIVATE_HANDLER_FILE, false, [.word "sh".toList]⟩ j.args rfl h
  refine Shell.pipeline_words j.command l _ _ ?_ hmode htoks
  rw [command_eq, Shell.run_append, hstart]
  exact hrun

theorem runs_content (j : Job) (h : ∀ a ∈ j.args, '\'' ∉ a ∧ '\n' ∉ a ∧ '%' ∉ a) :
    Runs j.content j := by
  refine ⟨_, readEntry_content j, rfl, ?_⟩
  have hclean : '%' ∉ j.command := by
    refine notMem_of_countP_eq_zero _ _ ?_
    rw [command_countP _ (by decide) (by decide) (by decide)]
    refine countP_eq_zero_of_notMem _ _ fun hm => ?_
    obtain ⟨a, ha, hca⟩ := List.mem_flatten.mp hm
    exact (h a ha).2.2 hca
  rw [Cron.command_of_clean _ hclean]
  exact pipeline_command j fun a ha => (h a ha).1

theorem runs_countP (p : Char → Bool) (h0 : ("sh".toList ++ ACTIVATE_HANDLER_FILE).countP p = 0)
    (line : Str) (j : Job) (h : Runs line j) : j.args.flatten.countP p ≤ line.countP p := by
  obtain ⟨e, hentry, _, hpipe⟩ := h
  rw [← words_countP p h0 j]
  exact (Shell.pipeline_countP_le p _ _ hpipe).trans (Cron.readEntry_countP_le p _ e hentry)

/-- A percent sign or a single quote in an argument costs a double quote, a backslash
or a percent sign that some argument needed. -/
theorem args_of_runs (j : Job) (h : Runs j.content j) :
    ∀ a ∈ j.args, '\'' ∉ a ∧ '%' ∉ a := by
  -- these three only the arguments bring, and both readings may lose but never add them
  let p (c : Char) : Bool := c = '"' || c = '\\' || c = '%'
  obtain ⟨e, hentry, _, hpipe⟩ := h
  obtain rfl := Option.some.inj (hentry.symm.trans (readEntry_content j))
  change Shell.pipeline (Cron.command j.command) = _ at hpipe
  have hall : j.command.countP p = j.args.flatten.countP p :=
    command_countP p (by decide) (by decide) (by decide) j
  have hwords := words_countP p (by decide) j
  have hshell := Shell.pipeline_countP_le p _ _ hpipe
  have hcron := Cron.command_countP_le p j.command
  have hpercent : '%' ∉ j.command := fun hm => by
    have hlt := Cron.command_countP_lt p rfl rfl j.command hm
    omega
  intro a ha
  constructor
  · intro hm
    have hsub : a.Sublist (Shell.wordChars
        [⟨"sh".toList :: ACTIVATE_HANDLER_FILE :: j.args, []⟩]) :=
      Shell.sublist_wordChars (List.mem_singleton_self _)
        (List.mem_cons_of_mem _ (List.mem_cons_of_mem _ ha))
    have hlt := Shell.pipeline_countP_lt p rfl rfl _ _ hpipe (hsub.subset hm)
    omega
  · intro hm
    refine hpercent ?_
    rw [command_eq]
    refine List.mem_append_right _ (List.mem_flatMap.mpr ⟨a, ha, ?_⟩)
    simp [hm]

/-! ### Reading all lines -/

theorem line_newline (j : Job) (h : '\n' ∉ j.args.flatten) :
    j.line.countP (· == '\n') = if j.content.length ≤ 510 then 1 else 0 := by
  have hcontent := content_newline j h
  rw [line_eq]
  split
  · rename_i hlen
    rw [List.take_of_length_le (by simp; omega), List.countP_append,
      countP_eq_zero_of_notMem _ _ hcontent]
    rfl
  · rename_i hlen
    rw [List.take_append_of_le_length (by omega)]
    exact countP_eq_zero_of_notMem _ _ fun hm => hcontent (List.mem_of_mem_take hm)

theorem exists_of_forall₂ {α β : Type} {R : α → β → Prop} {as : List α} {bs : List β}
    (h : List.Forall₂ R as bs) : ∀ b ∈ bs, ∃ a ∈ as, R a b := by
  induction h with
  | nil => exact fun b hb => absurd hb List.not_mem_nil
  | cons hab _ ih =>
    intro b hb
    rcases List.mem_cons.mp hb with rfl | hb
    · exact ⟨_, List.mem_cons_self .., hab⟩
    · obtain ⟨a, ha, hr⟩ := ih b hb
      exact ⟨a, List.mem_cons_of_mem _ ha, hr⟩

theorem lines_newline (jobs : List Job) (h : ∀ j ∈ jobs, '\n' ∉ j.args.flatten) :
    (jobs.flatMap Job.line).countP (· == '\n') =
      jobs.countP fun j => decide (j.content.length ≤ 510) := by
  induction jobs with
  | nil => rfl
  | cons j jobs ih =>
    have hrest := ih fun x hx => h x (List.mem_cons_of_mem _ hx)
    rw [List.flatMap_cons, List.countP_append, line_newline j (h j (List.mem_cons_self ..)), hrest,
      List.countP_cons]
    simp only [decide_eq_true_eq]
    omega

theorem lines_content (jobs : List Job) (hargs : ∀ j ∈ jobs, '\n' ∉ j.args.flatten)
    (hlen : ∀ j ∈ jobs, j.content.length ≤ 510) :
    Cron.Lines (jobs.flatMap Job.line) (jobs.map Job.content) := by
  constructor
  · intro l hl
    obtain ⟨j, hj, rfl⟩ := List.mem_map.mp hl
    exact content_newline j (hargs j hj)
  · rw [List.flatMap_map]
    refine List.flatMap_congr fun j hj => ?_
    have hj' := hlen j hj
    rw [line_eq, List.take_of_length_le (by simp; omega)]

theorem length_content (j : Job) :
    j.content.length + 1 = j.fields.flatten.length + j.args.flatten.length + 78 := by
  have hargs : j.args.length = 7 := rfl
  have hhead : ("sh ".toList ++ ACTIVATE_HANDLER_FILE).length = 51 := by decide
  have hcommand : j.command.length = 51 + (j.args.flatten.length + 3 * 7) := by
    rw [command_eq, List.length_append, hhead, Shell.length_quoted, hargs]
  rw [content_eq]
  simp only [Job.fields, List.flatten_cons, List.flatten_nil, List.length_append,
    List.length_cons, List.length_nil, hcommand]
  omega

theorem runsJobs_iff (jobs : List Job) :
    RunsJobs (jobs.flatMap Job.line) jobs ↔ ∀ j ∈ jobs, j.Fits := by
  constructor
  · rintro ⟨ls, hlines, hruns⟩
    have hargs : ∀ j ∈ jobs, '\n' ∉ j.args.flatten := by
      intro j hj hm
      obtain ⟨l, hl, hrun⟩ := exists_of_forall₂ hruns j hj
      have hle := runs_countP (· == '\n') (by decide) l j hrun
      have hzero := countP_eq_zero_of_notMem _ _ (hlines.clean l hl)
      have hpos : 0 < j.args.flatten.countP (· == '\n') :=
        List.countP_pos_iff.mpr ⟨'\n', hm, by decide⟩
      omega
    -- with no newline in an argument a line has at most its own, and none is missing
    have hlen : ∀ j ∈ jobs, j.content.length ≤ 510 := by
      have hcount := hlines.countP_newline
      rw [lines_newline jobs hargs, hruns.length_eq, List.countP_eq_length] at hcount
      exact fun j hj => of_decide_eq_true (hcount j hj)
    obtain rfl := hlines.unique (lines_content jobs hargs hlen)
    rw [List.forall₂_map_left_iff, List.forall₂_same] at hruns
    intro j hj
    refine ⟨fun a ha => ?_, ?_⟩
    · have hclean := args_of_runs j (hruns j hj) a ha
      exact ⟨hclean.1, fun hm => hargs j hj (List.mem_flatten.mpr ⟨a, ha, hm⟩), hclean.2⟩
    · have hj' := hlen j hj
      have hlength := length_content j
      omega
  · intro hfits
    have hargs : ∀ j ∈ jobs, '\n' ∉ j.args.flatten := by
      intro j hj hm
      obtain ⟨a, ha, hca⟩ := List.mem_flatten.mp hm
      exact ((hfits j hj).1 a ha).2.1 hca
    have hlen : ∀ j ∈ jobs, j.content.length ≤ 510 := by
      intro j hj
      have hj' := (hfits j hj).2
      have hlength := length_content j
      omega
    refine ⟨_, lines_content jobs hargs hlen, ?_⟩
    rw [List.forall₂_map_left_iff, List.forall₂_same]
    exact fun j hj => runs_content j (hfits j hj).1

/-! ### Accepted requests -/

def requestedJobs (api : Bbfdm) (env : Env) (s : State) (entry : Attr) (ws : List Window) :
    List Job :=
  windowJobs api env (getFwbankOptionValue entry "id") (keepConfig s) ws

theorem appended_jobs (jobs : List Job) :
    appended (jobs.map .appendCrontab ++ [.cronRestart]) = jobs.flatMap Job.line := by
  simp [appended, List.flatMap_append, List.flatMap_map]

theorem activate_effects (api : Bbfdm) (env : Env) (s : State) (entry : Attr) (value : Args)
    (ws : List Window) (hws : parseWindows api value MAX_TIME_WINDOW 0 none = some ws)
    (hne : ws ≠ []) (hid : getFwbankOptionValue entry "id" ≠ []) (hopens : env.crontabOpens = true) :
    (operateDeviceInfoFirmwareImageActivate api env s entry value).2 =
      (requestedJobs api env s entry ws).map .appendCrontab ++ [.cronRestart] := by
  have hlen : ws.length ≠ 0 := fun h => hne (List.length_eq_zero_iff.mp h)
  have hid' : ¬(getFwbankOptionValue entry "id").length = 0 :=
    fun h => hid (List.length_eq_zero_iff.mp h)
  unfold operateDeviceInfoFirmwareImageActivate
  simp only [hws, if_neg hid', if_pos hlen, if_pos hopens]
  rfl

theorem activate_accepted (api : Bbfdm) (env : Env) (s : State) (entry : Attr) (value : Args)
    (ws : List Window) (hws : parseWindows api value MAX_TIME_WINDOW 0 none = some ws)
    (hne : ws ≠ [])
    (hok : (operateDeviceInfoFirmwareImageActivate api env s entry value).1 = none) :
    appended (operateDeviceInfoFirmwareImageActivate api env s entry value).2 =
      (requestedJobs api env s entry ws).flatMap Job.line := by
  have hlen : ws.length ≠ 0 := fun h => hne (List.length_eq_zero_iff.mp h)
  have hstarted : getFwbankOptionValue entry "id" ≠ [] ∧ env.crontabOpens = true := by
    unfold operateDeviceInfoFirmwareImageActivate at hok
    simp only [hws, if_pos hlen, List.length_eq_zero_iff] at hok
    split at hok
    · exact absurd hok (by simp)
    · rename_i hid
      split at hok
      · rename_i hopens
        exact ⟨hid, hopens⟩
      · exact absurd hok (by simp)
  rw [activate_effects api env s entry value ws hws hne hstarted.1 hstarted.2]
  exact appended_jobs _

/-- What an accepted request with time windows appends runs one job for each window
and nothing else exactly when every job fits. -/
theorem crontab_runs_windows_iff (api : Bbfdm) (env : Env) (s : State) (entry : Attr)
    (value : Args) (ws : List Window)
    (hws : parseWindows api value MAX_TIME_WINDOW 0 none = some ws) (hne : ws ≠ [])
    (hok : (operateDeviceInfoFirmwareImageActivate api env s entry value).1 = none) :
    RunsJobs (appended (operateDeviceInfoFirmwareImageActivate api env s entry value).2)
        (requestedJobs api env s entry ws) ↔
      ∀ j ∈ requestedJobs api env s entry ws, j.Fits := by
  rw [activate_accepted api env s entry value ws hws hne hok]
  exact runsJobs_iff _

def twoWindows (message : Str) : Args := fun name =>
  if name = "TimeWindow.1.Start".toList then "60".toList
  else if name = "TimeWindow.1.End".toList then "3600".toList
  else if name = "TimeWindow.1.Mode".toList then "WhenIdle".toList
  else if name = "TimeWindow.1.UserMessage".toList then message
  else if name = "TimeWindow.2.Start".toList then "7200".toList
  else if name = "TimeWindow.2.End".toList then "9000".toList
  else if name = "TimeWindow.2.Mode".toList then "Immediately".toList
  else if name = "TimeWindow.2.MaxRetries".toList then "3".toList
  else []

def twoWindowsRead (message : Str) : List Window :=
  [⟨"60".toList, "3600".toList, "WhenIdle".toList, message, []⟩,
    ⟨"7200".toList, "9000".toList, "Immediately".toList, [], "3".toList⟩]

def updateSoon : Str := "update at 5".toList

theorem crontab_runs_windows_sample :
    RunsJobs (appended (operateDeviceInfoFirmwareImageActivate .plain .fine .fresh bankTwo
        (twoWindows updateSoon)).2)
      (requestedJobs .plain .fine .fresh bankTwo (twoWindowsRead updateSoon)) :=
  (crontab_runs_windows_iff .plain .fine .fresh bankTwo (twoWindows updateSoon)
    (twoWindowsRead updateSoon) (by decide) (by decide) (by decide)).mpr (by decide)

def itsReady : Str := "it's ready".toList

theorem apostrophe_breaks_line :
    ¬∀ (api : Bbfdm) (env : Env) (s : State) (entry : Attr) (value : Args) (ws : List Window),
      parseWindows api value MAX_TIME_WINDOW 0 none = some ws → ws ≠ [] →
      (operateDeviceInfoFirmwareImageActivate api env s entry value).1 = none →
      RunsJobs (appended (operateDeviceInfoFirmwareImageActivate api env s entry value).2)
        (requestedJobs api env s entry ws) := by
  intro hall
  have hws : parseWindows .plain (twoWindows itsReady) MAX_TIME_WINDOW 0 none =
    some (twoWindowsRead itsReady) := by decide
  have hok : (operateDeviceInfoFirmwareImageActivate .plain .fine .fresh bankTwo
    (twoWindows itsReady)).1 = none := by decide
  have hruns := hall .plain .fine .fresh bankTwo (twoWindows itsReady) (twoWindowsRead itsReady)
    hws (by decide) hok
  rw [activate_accepted _ _ _ _ _ _ hws (by decide) hok, runsJobs_iff] at hruns
  exact absurd hruns (by decide)

end Sysmngr.FwImages
