import Mathlib.Data.List.TakeWhile
import Sysmngr.FwImages.Schedule

/-!
# The time windows of a request

`Activate()` reads its windows in one loop, which compares each with the one before it,
and writes a job for each in a second loop that finds out anew how many there are. The
windows of an accepted request lie apart, and its jobs are due in their order.
-/

namespace Sysmngr.FwImages
open Text Uci Blobmsg Calendar Fwbank Intervals

/-! ### The two loops -/

/-- The arrays of the operation as far as they are read, and `last_idx`. What lies
behind is a null pointer, of length 0. -/
structure Arrays where
  entries : List Window
  lastIdx : ℤ

def Arrays.start (a : Arrays) (i : ℕ) : Str := (a.entries[i]?.map Window.start).getD []

/-- The first loop with `n` rounds left, the next one for the entry not yet read. -/
def parseLoop (api : Bbfdm) (value : Args) : ℕ → Arrays → Option Arrays
  | 0, a => some a
  | n + 1, a =>
    let w := windowArgs value a.entries.length
    if w.start.length = 0 then some { a with entries := a.entries ++ [w] }
    else if checkWindow api a.entries.getLast? w then
      parseLoop api value n ⟨a.entries ++ [w], a.lastIdx + 1⟩
    else none

/-- The second loop with `n` rounds left, the next one for the entry `i`. -/
def writeLoop (api : Bbfdm) (env : Env) (bankId keep : Str) (a : Arrays) : ℕ → ℕ → List Job
  | 0, _ => []
  | n + 1, i =>
    match a.entries[i]? with
    | none => []
    | some w =>
      if w.start.length = 0 then []
      else
        { windowJob api env bankId keep MAX_TIME_WINDOW i w with
          force := decide ((i : ℤ) = a.lastIdx) } :: writeLoop api env bankId keep a n (i + 1)

def activateInLoops (api : Bbfdm) (env : Env) (s : State) (entry : Attr) (value : Args) :
    Option Fault × List Effect :=
  let keep := keepConfig s
  match parseLoop api value MAX_TIME_WINDOW ⟨[], -1⟩ with
  | none => (some .USP_FAULT_INVALID_ARGUMENT, [])
  | some a =>
    let bankId := getFwbankOptionValue entry "id"
    if bankId.length = 0 then (some .USP_FAULT_COMMAND_FAILURE, [])
    else if (a.start 0).length ≠ 0 then
      if env.crontabOpens then
        (if env.cronRestarts then none else some .USP_FAULT_COMMAND_FAILURE,
          (writeLoop api env bankId keep a MAX_TIME_WINDOW 0).map .appendCrontab ++ [.cronRestart])
      else (some .USP_FAULT_COMMAND_FAILURE, [])
    else
      let r := fwbankSetBootbank env bankId
      if r.1 then
        (none, r.2 ++ (if keep = "1".toList then [.copyConfig] else []) ++ [.reboot])
      else (some .USP_FAULT_COMMAND_FAILURE, r.2)

/-! ### What a request asks for -/

/-- The leading windows with a start, of the first `n` from `i` on. -/
def windowsFrom (value : Args) (i n : ℕ) : List Window :=
  ((List.range' i n).map (windowArgs value)).takeWhile fun w => w.start.length != 0

def requestedWindows (value : Args) : List Window := windowsFrom value 0 MAX_TIME_WINDOW

/-- What the first loop reads behind them: the window without a start that stops it. -/
def stopEntry (value : Args) (i n : ℕ) : List Window :=
  (((List.range' i n).map (windowArgs value)).dropWhile fun w => w.start.length != 0).take 1

theorem windowsFrom_succ (value : Args) (i n : ℕ) :
    windowsFrom value i (n + 1) =
      if (windowArgs value i).start.length = 0 then []
      else windowArgs value i :: windowsFrom value (i + 1) n := by
  simp only [windowsFrom, List.range'_succ, List.map_cons, List.takeWhile_cons, bne_iff_ne, ne_eq,
    ite_not]

theorem stopEntry_succ (value : Args) (i n : ℕ) :
    stopEntry value i (n + 1) =
      if (windowArgs value i).start.length = 0 then [windowArgs value i]
      else stopEntry value (i + 1) n := by
  simp only [stopEntry, List.range'_succ, List.map_cons, List.dropWhile_cons, bne_iff_ne, ne_eq]
  by_cases hw : (windowArgs value i).start.length = 0 <;> simp [hw]

theorem windowsFrom_length_le (value : Args) (i n : ℕ) : (windowsFrom value i n).length ≤ n := by
  have htake := (List.takeWhile_prefix (fun w : Window => w.start.length != 0)
    (l := (List.range' i n).map (windowArgs value))).length_le
  simpa [windowsFrom] using htake

theorem windowsFrom_start (value : Args) (i n : ℕ) :
    ∀ w ∈ windowsFrom value i n, w.start.length ≠ 0 := by
  intro w hw
  have hstart := List.mem_takeWhile_imp hw
  exact bne_iff_ne.mp hstart

theorem stopEntry_start (value : Args) (i n : ℕ) :
    ∀ w ∈ stopEntry value i n, w.start.length = 0 := by
  induction n generalizing i with
  | zero => simp [stopEntry]
  | succ n ih =>
    rw [stopEntry_succ]
    split
    · rename_i hw
      intro w hmem
      rwa [List.mem_singleton.mp hmem]
    · exact ih (i + 1)

/-! ### The loops agree -/

def passes (api : Bbfdm) : Option Window → List Window → Bool
  | _, [] => true
  | prev, w :: ws => checkWindow api prev w && passes api (some w) ws

theorem parseWindows_eq (api : Bbfdm) (value : Args) (n i : ℕ) (prev : Option Window) :
    parseWindows api value n i prev =
      if passes api prev (windowsFrom value i n) then some (windowsFrom value i n) else none := by
  induction n generalizing i prev with
  | zero => rfl
  | succ n ih =>
    rw [windowsFrom_succ]
    simp only [parseWindows, ih]
    by_cases hw : (windowArgs value i).start.length = 0
    · simp only [if_pos hw, passes, if_true]
    · simp only [if_neg hw, passes]
      cases checkWindow api prev (windowArgs value i) with
      | false => rfl
      | true =>
        simp only [if_true, Bool.true_and]
        split <;> rfl

theorem parseWindows_requested (api : Bbfdm) (value : Args) :
    parseWindows api value MAX_TIME_WINDOW 0 none =
      if passes api none (requestedWindows value) then some (requestedWindows value) else none :=
  parseWindows_eq api value MAX_TIME_WINDOW 0 none

theorem parseLoop_eq (api : Bbfdm) (value : Args) (n : ℕ) (a : Arrays) :
    parseLoop api value n a =
      if passes api a.entries.getLast? (windowsFrom value a.entries.length n) then
        some ⟨a.entries ++ windowsFrom value a.entries.length n ++
            stopEntry value a.entries.length n,
          a.lastIdx + (windowsFrom value a.entries.length n).length⟩
      else none := by
  induction n generalizing a with
  | zero => simp [parseLoop, windowsFrom, stopEntry, passes]
  | succ n ih =>
    rw [windowsFrom_succ, stopEntry_succ]
    simp only [parseLoop]
    generalize hw : windowArgs value a.entries.length = w
    by_cases hstart : w.start.length = 0
    · simp only [if_pos hstart, passes, if_true, List.append_nil, List.length_nil, Nat.cast_zero,
        Int.add_zero]
    · simp only [if_neg hstart, passes]
      cases checkWindow api a.entries.getLast? w with
      | false => rfl
      | true =>
        have hlast : (a.entries ++ [w]).getLast? = some w := List.getLast?_concat
        have hlen : (a.entries ++ [w]).length = a.entries.length + 1 := List.length_append
        rw [if_pos rfl, ih, hlast, hlen, Bool.true_and]
        simp only [List.append_assoc, List.length_cons, Nat.cast_add,
          Nat.cast_one, Int.add_assoc, Int.add_comm 1, List.cons_append, List.nil_append]

/-- The second loop stops where the first did, whatever is left of its own rounds. -/
theorem writeLoop_eq (api : Bbfdm) (env : Env) (bankId keep : Str) (ws stop : List Window)
    (hws : ∀ w ∈ ws, w.start.length ≠ 0) (hstop : ∀ w ∈ stop, w.start.length = 0) (n i : ℕ)
    (hn : ws.length ≤ i + n) :
    writeLoop api env bankId keep ⟨ws ++ stop, -1 + ws.length⟩ n i =
      (windowJobs api env bankId keep ws).drop i := by
  induction n generalizing i with
  | zero =>
    rw [writeLoop, List.drop_eq_nil_of_le]
    simpa [windowJobs] using hn
  | succ n ih =>
    rw [writeLoop]
    by_cases hi : i < ws.length
    · have hentry : (ws ++ stop)[i]? = some ws[i] := by
        rw [List.getElem?_append_left hi, List.getElem?_eq_getElem hi]
      have hi' : i < (windowJobs api env bankId keep ws).length := by simpa [windowJobs] using hi
      have hforce : decide ((i : ℤ) = -1 + ws.length) = (i + 1 == ws.length) := by
        rw [Bool.eq_iff_iff, decide_eq_true_iff, beq_iff_eq]
        omega
      rw [hentry, List.drop_eq_getElem_cons hi', ih (i + 1) (by omega)]
      simp only [if_neg (hws _ (List.getElem_mem hi)), hforce]
      simp [windowJobs, windowJob]
    · have hnone : (windowJobs api env bankId keep ws).drop i = [] :=
        List.drop_eq_nil_of_le (by simpa [windowJobs] using hi)
      rw [hnone]
      split
      · rfl
      · rename_i w hentry
        rw [List.getElem?_append_right (by omega)] at hentry
        rw [if_pos (hstop w (List.mem_of_getElem? hentry))]

theorem start_zero_iff (ws stop : List Window) (lastIdx : ℤ)
    (hws : ∀ w ∈ ws, w.start.length ≠ 0) (hstop : ∀ w ∈ stop, w.start.length = 0) :
    ((Arrays.mk (ws ++ stop) lastIdx).start 0).length ≠ 0 ↔ ws.length ≠ 0 := by
  cases ws with
  | cons w ws => simpa [Arrays.start] using hws w (List.mem_cons_self ..)
  | nil =>
    cases stop with
    | nil => simp [Arrays.start]
    | cons w stop => simpa [Arrays.start] using hstop w (List.mem_cons_self ..)

theorem activateInLoops_eq (api : Bbfdm) (env : Env) (s : State) (entry : Attr) (value : Args) :
    activateInLoops api env s entry value =
      operateDeviceInfoFirmwareImageActivate api env s entry value := by
  have hparse := parseLoop_eq api value MAX_TIME_WINDOW ⟨[], -1⟩
  have hwindows := parseWindows_eq api value MAX_TIME_WINDOW 0 none
  have hws := windowsFrom_start value 0 MAX_TIME_WINDOW
  have hstop := stopEntry_start value 0 MAX_TIME_WINDOW
  have hlen := windowsFrom_length_le value 0 MAX_TIME_WINDOW
  have hwrite : ∀ bankId keep, _ := fun bankId keep =>
    writeLoop_eq api env bankId keep _ _ hws hstop MAX_TIME_WINDOW 0 (by rwa [Nat.zero_add])
  simp only [List.getLast?_nil, List.length_nil, List.nil_append] at hparse
  unfold activateInLoops operateDeviceInfoFirmwareImageActivate
  cases hpass : passes api none (windowsFrom value 0 MAX_TIME_WINDOW) with
  | false =>
    simp only [hpass, Bool.false_eq_true, if_false] at hparse hwindows
    rw [hparse, hwindows]
  | true =>
    simp only [hpass, if_true] at hparse hwindows
    rw [hparse, hwindows]
    simp only [start_zero_iff _ _ _ hws hstop, hwrite, List.drop_zero]

/-! ### Requests as they are meant -/

def signedDecimal : Str → Option ℤ
  | '-' :: v => (decimal v).map fun (n : ℕ) => -(n : ℤ)
  | v => (decimal v).map fun (n : ℕ) => (n : ℤ)

/-- What the validators of the library are documented to accept. -/
structure Bbfdm.Documented (api : Bbfdm) : Prop where
  unsignedInt : ∀ v, api.validateUnsignedInt v = true ↔ ∃ n, decimal v = some n ∧ n < 2 ^ 32
  int : ∀ v, api.validateInt v = true ↔ ∃ z, signedDecimal v = some z ∧ -1 ≤ z ∧ z ≤ 10
  string : ∀ allowed v, api.validateString allowed v = true ↔ v ∈ allowed

/-- Start and end of a window, in seconds after the request. -/
def Window.opens (w : Window) : ℕ := (decimal w.start).getD 0

def Window.closes (w : Window) : ℕ := (decimal w.end_).getD 0

structure Window.Valid (w : Window) : Prop where
  present : w.end_ ≠ [] ∧ w.mode ≠ []
  start : ∃ n, decimal w.start = some n ∧ n < 2 ^ 32
  end_ : ∃ n, decimal w.end_ = some n ∧ n < 2 ^ 32
  maxRetries : w.maxRetries = [] ∨ ∃ z, signedDecimal w.maxRetries = some z ∧ -1 ≤ z ∧ z ≤ 10
  mode : w.mode ∈ FW_Mode
  le : w.opens ≤ w.closes

structure ValidWindows (ws : List Window) : Prop where
  each : ∀ w ∈ ws, w.Valid
  inOrder : InOrder Window.opens Window.closes ws

theorem strtol_getD (v : Str) (h : ∃ n, decimal v = some n ∧ n < 2 ^ 32) :
    strtol v = ((decimal v).getD 0 : ℕ) := by
  obtain ⟨n, hv, hn⟩ := h
  rw [hv]
  exact strtol_decimal v n hv (by omega)

theorem Window.Valid.strtol_start {w : Window} (h : w.Valid) : strtol w.start = w.opens :=
  strtol_getD _ h.start

theorem Window.Valid.strtol_end {w : Window} (h : w.Valid) : strtol w.end_ = w.closes :=
  strtol_getD _ h.end_

theorem any_after_iff (prev : Option Window) (w : Window) :
    (prev.any fun p => decide (strtol p.end_ > strtol w.start)) = false ↔
      ∀ p ∈ prev, strtol p.end_ ≤ strtol w.start := by
  cases prev <;> simp

theorem checkWindow_iff (api : Bbfdm) (hapi : api.Documented) (prev : Option Window) (w : Window)
    (hprev : ∀ p ∈ prev, p.Valid) :
    checkWindow api prev w = true ↔ w.Valid ∧ ∀ p ∈ prev, p.closes ≤ w.opens := by
  simp only [checkWindow, Bool.and_eq_true, Bool.or_eq_true, Bool.not_eq_true', bne_iff_ne, ne_eq,
    List.length_eq_zero_iff, decide_eq_true_eq, decide_eq_false_iff_not, hapi.unsignedInt, hapi.int,
    hapi.string, any_after_iff, gt_iff_lt, Int.not_lt]
  constructor
  · rintro ⟨⟨⟨⟨⟨⟨⟨hend, hmode⟩, hstart⟩, hend_⟩, hretries⟩, hmodes⟩, hle⟩, hafter⟩
    rw [strtol_getD _ hstart, strtol_getD _ hend_] at hle
    refine ⟨⟨⟨hend, hmode⟩, hstart, hend_, hretries, hmodes, Int.ofNat_le.mp hle⟩, fun p hp => ?_⟩
    have hp' := hafter p hp
    rw [(hprev p hp).strtol_end, strtol_getD _ hstart] at hp'
    exact Int.ofNat_le.mp hp'
  · rintro ⟨hw, hafter⟩
    refine ⟨⟨⟨⟨⟨⟨hw.present, hw.start⟩, hw.end_⟩, hw.maxRetries⟩, hw.mode⟩, ?_⟩, fun p hp => ?_⟩
    · rw [hw.strtol_start, hw.strtol_end]
      exact Int.ofNat_le.mpr hw.le
    · rw [(hprev p hp).strtol_end, hw.strtol_start]
      exact Int.ofNat_le.mpr (hafter p hp)

theorem passes_iff (api : Bbfdm) (hapi : api.Documented) (prev : Option Window)
    (hprev : ∀ p ∈ prev, p.Valid) (ws : List Window) :
    passes api prev ws = true ↔
      (∀ w ∈ ws, w.Valid) ∧ InOrder Window.opens Window.closes (prev.toList ++ ws) := by
  induction ws generalizing prev with
  | nil => cases prev <;> simp [passes, InOrder]
  | cons w ws ih =>
    rw [passes, Bool.and_eq_true, checkWindow_iff api hapi prev w hprev, List.forall_mem_cons]
    constructor
    · rintro ⟨⟨hw, hafter⟩, hrest⟩
      obtain ⟨hall, horder⟩ := (ih (some w) fun p hp => Option.mem_some.mp hp ▸ hw).mp hrest
      refine ⟨⟨hw, hall⟩, ?_⟩
      cases prev with
      | none => exact horder
      | some p => exact List.isChain_cons_cons.mpr ⟨hafter p rfl, horder⟩
    · rintro ⟨⟨hw, hall⟩, horder⟩
      have hrest := ih (some w) fun p hp => Option.mem_some.mp hp ▸ hw
      cases prev with
      | none => exact ⟨⟨hw, fun p hp => absurd hp (by simp)⟩, hrest.mpr ⟨hall, horder⟩⟩
      | some p =>
        obtain ⟨hafter, horder⟩ := List.isChain_cons_cons.mp horder
        refine ⟨⟨hw, fun q hq => ?_⟩, hrest.mpr ⟨hall, horder⟩⟩
        rwa [← Option.mem_some.mp hq]

theorem parseWindows_valid (api : Bbfdm) (hapi : api.Documented) (value : Args) :
    parseWindows api value MAX_TIME_WINDOW 0 none = some (requestedWindows value) ∧
        ValidWindows (requestedWindows value) ∨
      parseWindows api value MAX_TIME_WINDOW 0 none = none ∧
        ¬ValidWindows (requestedWindows value) := by
  have hpasses := passes_iff api hapi none (fun p hp => absurd hp (by simp))
    (requestedWindows value)
  rw [parseWindows_requested]
  by_cases hpass : passes api none (requestedWindows value) = true
  · rw [if_pos hpass]
    exact Or.inl ⟨rfl, (hpasses.mp hpass).1, (hpasses.mp hpass).2⟩
  · rw [if_neg hpass]
    exact Or.inr ⟨rfl, fun h => hpass (hpasses.mpr ⟨h.each, h.inOrder⟩)⟩

/-! ### The jobs of an accepted request -/

/-- The minute a job is set for when the clock reads `now`. -/
def Window.due (w : Window) (now : ℤ) : ℤ := roundDown 60 (now + max (w.opens : ℤ) 60)

/-- The job hands on what the window says, and names the minute it is due, which lies
ahead and no later than the start, taken to be at least a minute away. -/
structure Serves (zone now : ℤ) (w : Window) (j : Job) : Prop where
  mode : j.mode = w.mode
  duration : j.duration = (w.closes : ℤ) - w.opens
  userMessage : j.userMessage = w.userMessage
  maxRetries : j.maxRetries = w.maxRetries
  minute : SameMinuteOfYear j.time (gmtime (w.due now + zone))
  ahead : now < w.due now
  soon : w.due now ≤ now + max (w.opens : ℤ) 60

/-- The jobs are those of the windows, one for each and in their order, `now i` being the
time at which the job `i` is computed. -/
structure Scheduled (zone : ℤ) (now : ℕ → ℤ) (ws : List Window) (jobs : List Job) : Prop where
  apart : Apart Window.opens Window.closes ws
  length : jobs.length = ws.length
  serves : ∀ (i : ℕ) (w : Window) (j : Job), ws[i]? = some w → jobs[i]? = some j →
    Serves zone (now i) w j
  force : ∀ (i : ℕ) (j : Job), jobs[i]? = some j → (j.force = true ↔ i + 1 = jobs.length)
  monotone : ∀ (i : ℕ) (w w' : Window), ws[i]? = some w → ws[i + 1]? = some w' →
    w.due (now i) ≤ w'.due (now (i + 1))

/-- Read by cron, the text is these jobs, each run in the minute it is due. -/
structure Written (zone : ℤ) (now : ℕ → ℤ) (ws : List Window) (jobs : List Job) (text : Str) :
    Prop where
  runs : RunsJobs text jobs
  due : ∀ (i : ℕ) (w : Window) (j : Job), ws[i]? = some w → jobs[i]? = some j →
    HandlerRunsAt j zone (w.due (now i))

theorem windowJob_serves (api : Bbfdm) (env : Env) (bankId keep : Str) (count i : ℕ) (w : Window)
    (hw : w.Valid) (zone : ℤ) (hzone : zone % 60 = 0)
    (hlocal : ∀ t, api.localtime t = gmtime (t + zone)) :
    Serves zone (env.now i) w (windowJob api env bankId keep count i w) where
  mode := rfl
  duration := by
    simp only [windowJob, hw.strtol_start, hw.strtol_end]
  userMessage := rfl
  maxRetries := rfl
  minute := by
    rw [windowJob_time, hlocal, hw.strtol_start]
    exact sameMinute_roundDown _ zone hzone
  ahead := lt_roundDown_add (by decide) _ _ (Int.le_max_right _ _)
  soon := roundDown_le (by decide) _

theorem windowJobs_getElem? (api : Bbfdm) (env : Env) (bankId keep : Str) (ws : List Window)
    (i : ℕ) : (windowJobs api env bankId keep ws)[i]? =
      ws[i]?.map (windowJob api env bankId keep ws.length i) :=
  List.getElem?_mapIdx

theorem windowJobs_scheduled (api : Bbfdm) (env : Env) (bankId keep : Str) (ws : List Window)
    (hws : ValidWindows ws) (hclock : ∀ i, env.now i ≤ env.now (i + 1)) (zone : ℤ)
    (hzone : zone % 60 = 0) (hlocal : ∀ t, api.localtime t = gmtime (t + zone)) :
    Scheduled zone env.now ws (windowJobs api env bankId keep ws) where
  apart := hws.inOrder.apart _ _ fun w hw => (hws.each w hw).le
  length := by simp [windowJobs]
  serves := by
    intro i w j hw hj
    rw [windowJobs_getElem?, hw] at hj
    obtain rfl := Option.some.inj hj
    exact windowJob_serves api env bankId keep _ i w (hws.each w (List.mem_of_getElem? hw)) zone
      hzone hlocal
  force := by
    intro i j hj
    rw [windowJobs_getElem?] at hj
    obtain ⟨w, _, rfl⟩ := Option.map_eq_some_iff.mp hj
    simp [windowJob, windowJobs]
  monotone := by
    intro i w w' hw hw'
    have hnow := hclock i
    have hle := (hws.each w (List.mem_of_getElem? hw)).le
    obtain ⟨hi', rfl⟩ := List.getElem?_eq_some_iff.mp hw'
    obtain ⟨hi, rfl⟩ := List.getElem?_eq_some_iff.mp hw
    have hnext : ws[i].closes ≤ ws[i + 1].opens := List.isChain_iff_getElem.mp hws.inOrder i hi'
    exact roundDown_mono (by decide) (by omega)

/-! ### Their text -/

/-- A text that leaves the quotes around it, its line and the command as they are. -/
def Plain (a : Str) : Prop := '\'' ∉ a ∧ '\n' ∉ a ∧ '%' ∉ a

instance (a : Str) : Decidable (Plain a) := inferInstanceAs (Decidable (_ ∧ _))

theorem plain_of_chars (a : Str) (h : ∀ c ∈ a, c.isDigit = true ∨ c = '-') : Plain a := by
  have hnot : ∀ d : Char, d.isDigit = false → d ≠ '-' → d ∉ a := by
    intro d hd hne hm
    rcases h d hm with h' | h'
    · rw [hd] at h'
      exact Bool.noConfusion h'
    · exact hne h'
  exact ⟨hnot _ (by decide) (by decide), hnot _ (by decide) (by decide),
    hnot _ (by decide) (by decide)⟩

theorem plain_signedDecimal (v : Str) (z : ℤ) (h : signedDecimal v = some z) : Plain v := by
  refine plain_of_chars v fun c hc => ?_
  unfold signedDecimal at h
  split at h
  · obtain ⟨n, hn, _⟩ := Option.map_eq_some_iff.mp h
    rcases List.mem_cons.mp hc with rfl | hc
    · exact Or.inr rfl
    · exact Or.inl ((decimal_eq_some _ n).mp hn |>.2.1 c hc)
  · obtain ⟨n, hn, _⟩ := Option.map_eq_some_iff.mp h
    exact Or.inl ((decimal_eq_some _ n).mp hn |>.2.1 c hc)

theorem plain_mode : ∀ mode ∈ FW_Mode, Plain mode := by decide

theorem plain_bankId (entry : Attr) : Plain (getFwbankOptionValue entry "id") := by
  rcases getFwbankOptionValue_id entry with hnone | ⟨n, hn⟩
  · rw [hnone]
    decide
  · rw [hn]
    exact plain_of_chars _ (printInt_chars _)

theorem windowJob_fits (api : Bbfdm) (env : Env) (bankId keep : Str) (count i : ℕ) (w : Window)
    (hw : w.Valid) (hbank : Plain bankId) (hmessage : Plain w.userMessage) (hkeep : Plain keep)
    (hline : (windowJob api env bankId keep count i w).content.length + 1 < 512) :
    (windowJob api env bankId keep count i w).Fits := by
  have hlength := length_content (windowJob api env bankId keep count i w)
  have hduration : Plain (printInt (strtol w.end_ - strtol w.start)) :=
    plain_of_chars _ (printInt_chars _)
  have hforce : Plain (if i + 1 == count then "1".toList else "0".toList) := by
    split <;> decide
  have hretries : Plain w.maxRetries := by
    rcases hw.maxRetries with h | ⟨z, hz, _⟩
    · rw [h]
      decide
    · exact plain_signedDecimal _ z hz
  refine ⟨?_, by omega⟩
  simp only [Job.args, windowJob, List.forall_mem_cons]
  exact ⟨plain_mode _ hw.mode, hbank, hduration, hforce, hmessage, hretries, hkeep,
    fun a ha => absurd ha List.not_mem_nil⟩

theorem windowJobs_written (api : Bbfdm) (env : Env) (bankId keep : Str) (ws : List Window)
    (hws : ValidWindows ws) (zone : ℤ) (hzone : zone % 60 = 0)
    (hlocal : ∀ t, api.localtime t = gmtime (t + zone)) (hbank : Plain bankId)
    (hmessages : ∀ w ∈ ws, Plain w.userMessage) (hkeep : Plain keep)
    (hlines : ∀ j ∈ windowJobs api env bankId keep ws, j.content.length + 1 < 512) :
    Written zone env.now ws (windowJobs api env bankId keep ws)
      ((windowJobs api env bankId keep ws).flatMap Job.line) := by
  have hfits : ∀ (i : ℕ) (w : Window), ws[i]? = some w →
      (windowJob api env bankId keep ws.length i w).Fits := by
    intro i w hw
    have hmem := List.mem_of_getElem? hw
    refine windowJob_fits api env bankId keep _ i w (hws.each w hmem) hbank (hmessages w hmem) hkeep
      (hlines _ (List.mem_of_getElem? (i := i) ?_))
    rw [windowJobs_getElem?, hw, Option.map_some]
  constructor
  · refine (runsJobs_iff _).mpr fun j hj => ?_
    obtain ⟨i, hi⟩ := List.getElem?_of_mem hj
    rw [windowJobs_getElem?] at hi
    obtain ⟨w, hw, rfl⟩ := Option.map_eq_some_iff.mp hi
    exact hfits i w hw
  · intro i w j hw hj
    rw [windowJobs_getElem?, hw] at hj
    obtain rfl := Option.some.inj hj
    have hvalid := hws.each w (List.mem_of_getElem? hw)
    have hserves := windowJob_serves api env bankId keep ws.length i w hvalid zone hzone hlocal
    have htime := windowJob_time api env bankId keep ws.length i w
    rw [hlocal, hvalid.strtol_start] at htime
    exact (handlerRunsAt_iff _ (hfits i w hw) _ zone _ htime).mpr
      ⟨roundDown_emod _, hserves.minute⟩

/-! ### Requests -/

theorem activate_fault_iff (api : Bbfdm) (hapi : api.Documented) (env : Env) (s : State)
    (entry : Attr) (value : Args) :
    (operateDeviceInfoFirmwareImageActivate api env s entry value).1 ≠
        some .USP_FAULT_INVALID_ARGUMENT ↔ ValidWindows (requestedWindows value) := by
  unfold operateDeviceInfoFirmwareImageActivate
  rcases parseWindows_valid api hapi value with ⟨hparse, hvalid⟩ | ⟨hparse, hvalid⟩
  · rw [hparse]
    refine iff_of_true ?_ hvalid
    -- past the checks only a failure of the command itself is left
    dsimp only
    split
    · simp
    split
    · split
      · split <;> simp
      · simp
    · split <;> simp
  · rw [hparse]
    exact iff_of_false (fun h => h rfl) hvalid

/-- A request passes exactly when its windows are valid, and then has one job written for
each, in order and apart, the last one forced, which are due ahead and one after another;
texts that keep to their quotes and lines reach cron as these jobs. -/
theorem activate_windows (api : Bbfdm) (hapi : api.Documented) (env : Env) (s : State)
    (entry : Attr) (value : Args) (zone : ℤ) (hzone : zone % 60 = 0)
    (hlocal : ∀ t, api.localtime t = gmtime (t + zone)) :
    ((activateInLoops api env s entry value).1 ≠ some .USP_FAULT_INVALID_ARGUMENT ↔
        ValidWindows (requestedWindows value)) ∧
      (ValidWindows (requestedWindows value) → requestedWindows value ≠ [] →
        getFwbankOptionValue entry "id" ≠ [] → env.crontabOpens = true →
        (∀ i, env.now i ≤ env.now (i + 1)) →
        (activateInLoops api env s entry value).2 =
            (requestedJobs api env s entry (requestedWindows value)).map .appendCrontab ++
              [.cronRestart] ∧
          Scheduled zone env.now (requestedWindows value)
            (requestedJobs api env s entry (requestedWindows value)) ∧
          ((∀ j ∈ requestedJobs api env s entry (requestedWindows value),
              j.content.length + 1 < 512) →
            (∀ w ∈ requestedWindows value, Plain w.userMessage) → Plain (keepConfig s) →
            Written zone env.now (requestedWindows value)
              (requestedJobs api env s entry (requestedWindows value))
              (appended (activateInLoops api env s entry value).2))) := by
  rw [activateInLoops_eq]
  refine ⟨activate_fault_iff api hapi env s entry value, ?_⟩
  intro hvalid hne hbank hopens hclock
  have hparse : parseWindows api value MAX_TIME_WINDOW 0 none = some (requestedWindows value) := by
    rcases parseWindows_valid api hapi value with ⟨hparse, -⟩ | ⟨-, hinvalid⟩
    · exact hparse
    · exact absurd hvalid hinvalid
  have heffects := activate_effects api env s entry value _ hparse hne hbank hopens
  refine ⟨heffects, windowJobs_scheduled api env _ _ _ hvalid hclock zone hzone hlocal, ?_⟩
  intro hlines hmessages hkeep
  rw [heffects, appended_jobs]
  exact windowJobs_written api env _ _ _ hvalid zone hzone hlocal (plain_bankId entry) hmessages
    hkeep hlines

def Bbfdm.strict : Bbfdm :=
  { Bbfdm.plain with
    validateUnsignedInt v := (decimal v).any fun n => decide (n < 2 ^ 32)
    validateInt v := (signedDecimal v).any fun z => decide (-1 ≤ z ∧ z ≤ 10) }

theorem strict_documented : Bbfdm.strict.Documented where
  unsignedInt v := by simp [Bbfdm.strict, Option.any_eq_true]
  int v := by simp [Bbfdm.strict, Option.any_eq_true]
  string allowed v := by simp [Bbfdm.strict, Bbfdm.plain]

theorem twoWindows_requested :
    requestedWindows (twoWindows updateSoon) = twoWindowsRead updateSoon := by decide +kernel

set_option maxRecDepth 2000 in
theorem activate_windows_sample :
    Scheduled 0 Env.fine.now (twoWindowsRead updateSoon)
        (requestedJobs .strict .fine .fresh bankTwo (twoWindowsRead updateSoon)) ∧
      Written 0 Env.fine.now (twoWindowsRead updateSoon)
        (requestedJobs .strict .fine .fresh bankTwo (twoWindowsRead updateSoon))
        (appended (activateInLoops .strict .fine .fresh bankTwo (twoWindows updateSoon)).2) := by
  obtain ⟨hpasses, hjobs⟩ := activate_windows .strict strict_documented .fine .fresh bankTwo
    (twoWindows updateSoon) 0 (by decide) (fun t => by rw [Int.add_zero]; rfl)
  rw [twoWindows_requested] at hpasses hjobs
  obtain ⟨_, hscheduled, hwritten⟩ := hjobs (hpasses.mp (by decide +kernel)) (by decide) (by decide)
    (by decide) (fun _ => Int.le_refl 0)
  exact ⟨hscheduled, hwritten (by decide) (by decide) (by decide)⟩

end Sysmngr.FwImages
