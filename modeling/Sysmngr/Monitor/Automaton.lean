import Sysmngr.Hysteresis
import Sysmngr.Monitor.Model

/-!
# The monitors are hysteresis automata

The critical state is the order of two timestamps. While every poll's time lies
beyond both, the two tests of a poll make the one step of the automaton, and a
start or reload finds the state it left.
-/

namespace Sysmngr.Monitor
open Text Uci Machine Hysteresis

/-! ### The automaton's side -/

def modeOf (c : Ctx) : Mode :=
  if c.criticalRiseTime > c.criticalFallTime then .critical else .normal

/-- What comes with an edge: the timestamp is kept, the critical log written if it is
enabled, and a rise is notified. -/
def render (n : Names) (event : ℕ → Effect) (c : Ctx) (p : Poll) : Option Edge → List Effect
  | some .rise =>
    [.uciSet n.package "critical_rise_time" (snprintf 32 (printInt p.riseNow))] ++
      (if c.enableCriticalLog then [.criticalLog c.logFile n.logType true] else []) ++
      [event p.utilization]
  | some .fall =>
    [.uciSet n.package "critical_fall_time" (snprintf 32 (printInt p.fallNow))] ++
      (if c.enableCriticalLog then [.criticalLog c.logFile n.logType false] else [])
  | none => []

/-- The automaton with the effects of its edges, which sets the timer at every poll; without
a poll it does `idle`. -/
def spec (n : Names) (event : ℕ → Effect) (c : Ctx) (idle : List Effect) (m : Mode) :
    Option Poll → Mode × List Effect
  | none => (m, idle)
  | some p =>
    let r := Hysteresis.step c.criticalRiseThreshold c.criticalFallThreshold m p.utilization
    (r.1, render n event c p r.2 ++ [.timeoutSet (toInt (toUInt (c.interval * 1000)))])

theorem render_rise (n : Names) (event : ℕ → Effect) (c : Ctx) (p : Poll) :
    render n event c p (some .rise) =
      [.uciSet n.package "critical_rise_time" (snprintf 32 (printInt p.riseNow))] ++
        criticalLog n c true ++ [event p.utilization] := rfl

theorem render_fall (n : Names) (event : ℕ → Effect) (c : Ctx) (p : Poll) :
    render n event c p (some .fall) =
      [.uciSet n.package "critical_fall_time" (snprintf 32 (printInt p.fallNow))] ++
        criticalLog n c false := rfl

theorem spec_poll (n : Names) (event : ℕ → Effect) (c : Ctx) (idle : List Effect) (m : Mode)
    (p : Poll) : spec n event c idle m (some p) =
      ((Hysteresis.step c.criticalRiseThreshold c.criticalFallThreshold m p.utilization).1,
        render n event c p
          (Hysteresis.step c.criticalRiseThreshold c.criticalFallThreshold m p.utilization).2 ++
          [rearm c]) := rfl

def edgeOf : Effect → Option Edge
  | .uciSet _ option _ =>
    if option = "critical_rise_time" then some .rise
    else if option = "critical_fall_time" then some .fall
    else none
  | _ => none

def edges (effects : List Effect) : List Edge := effects.filterMap edgeOf

theorem edges_criticalLog (n : Names) (c : Ctx) (critical : Bool) :
    edges (criticalLog n c critical) = [] := by
  unfold criticalLog
  split <;> rfl

theorem edges_append (a b : List Effect) : edges (a ++ b) = edges a ++ edges b :=
  List.filterMap_append

theorem edges_render (n : Names) (event : ℕ → Effect) (c : Ctx) (p : Poll) (e : Option Edge)
    (hevent : ∀ u, edgeOf (event u) = none) : edges (render n event c p e) = e.toList := by
  have hev : edges [event p.utilization] = [] := by
    simp only [edges, List.filterMap_cons, hevent, List.filterMap_nil]
  rcases e with _ | _ | _
  · rfl
  · simp only [render_rise, edges_append, edges_criticalLog, hev]
    rfl
  · simp only [render_fall, edges_append, edges_criticalLog]
    rfl

theorem spec_turn (n : Names) (event : ℕ → Effect) (c : Ctx) (idle : List Effect)
    (hevent : ∀ u, edgeOf (event u) = none) (hidle : edges idle = []) (m : Mode)
    (p : Option Poll) :
    Turn m (edges (spec n event c idle m p).2) (spec n event c idle m p).1 := by
  cases p with
  | none => exact Or.inl ⟨hidle, rfl⟩
  | some p =>
    have hrearm : edges [rearm c] = [] := rfl
    simp only [spec_poll, edges_append, edges_render n event c p _ hevent, hrearm, List.append_nil]
    exact turn_step _ _ m p.utilization

/-! ### Timestamps -/

/-- What a reload reads of a stored timestamp. -/
def readBack (now : ℤ) : ℤ := strtol (snprintf 16 (snprintf 32 (printInt now)))

def ReadsBack (now : ℤ) : Prop := strtol (snprintf 16 (snprintf 32 (printInt now))) = now

instance (now : ℤ) : Decidable (ReadsBack now) := inferInstanceAs (Decidable (_ = _))

theorem readsBack_of_lt (now : ℤ) (hlo : -10 ^ 14 < now) (hhi : now < 10 ^ 14) :
    ReadsBack now := by
  have hlen := printInt_length_le now 14 (by decide) (by omega)
  unfold ReadsBack
  rw [snprintf_of_le 32 _ (by omega), snprintf_of_le 16 _ (by omega)]
  exact strtol_printInt now (by omega) (by omega)

/-- The clock has passed both stored timestamps and its readings are kept whole. -/
structure Timely (c : Ctx) (riseNow fallNow : ℤ) : Prop where
  rise : c.criticalRiseTime < riseNow ∧ c.criticalFallTime < riseNow
  fall : c.criticalRiseTime < fallNow ∧ c.criticalFallTime < fallNow
  riseBack : ReadsBack riseNow
  fallBack : ReadsBack fallNow

instance (c : Ctx) (riseNow fallNow : ℤ) : Decidable (Timely c riseNow fallNow) :=
  decidable_of_iff ((c.criticalRiseTime < riseNow ∧ c.criticalFallTime < riseNow) ∧
      (c.criticalRiseTime < fallNow ∧ c.criticalFallTime < fallNow) ∧
      ReadsBack riseNow ∧ ReadsBack fallNow)
    ⟨fun ⟨h1, h2, h3, h4⟩ => ⟨h1, h2, h3, h4⟩, fun ⟨h1, h2, h3, h4⟩ => ⟨h1, h2, h3, h4⟩⟩

def Poll.Timely (c : Ctx) (p : Poll) : Prop := Monitor.Timely c p.riseNow p.fallNow

instance (c : Ctx) (p : Poll) : Decidable (p.Timely c) :=
  inferInstanceAs (Decidable (Monitor.Timely c p.riseNow p.fallNow))

theorem stamp_ne_nil (now : ℤ) : snprintf 32 (printInt now) ≠ [] := by
  have hne : printInt now ≠ [] := by
    unfold printInt
    split
    · exact List.cons_ne_nil _ _
    · exact printNat_ne_nil _
  obtain ⟨c, s, hs⟩ := List.exists_cons_of_ne_nil hne
  rw [hs]
  exact List.cons_ne_nil c (s.take 30)

theorem get_stamp (uci : Named) (package option : String) (default : Str) (now : ℤ) :
    strtol ((uci.set package option (snprintf 32 (printInt now))).get package option default 16) =
      readBack now := by
  rw [Named.get, Named.set_self _ _ _ _ (stamp_ne_nil now)]
  rfl

theorem get_other (uci : Named) (package o o' : String) (v default : Str) (size : ℕ) (h : o' ≠ o) :
    (uci.set package o v).get package o' default size = uci.get package o' default size := by
  rw [Named.get, Named.get, Named.set_other _ _ _ _ _ _ fun hh => h hh.2]

theorem fillGlobal_riseTime (n : Names) (uci : Named) (now : ℤ) :
    fillGlobal n (uci.set n.package "critical_rise_time" (snprintf 32 (printInt now))) =
      { fillGlobal n uci with criticalRiseTime := readBack now } := by
  simp only [fillGlobal, get_stamp,
    get_other uci n.package "critical_rise_time" n.interval _ _ _ n.interval_ne.1,
    get_other uci n.package "critical_rise_time" "enable" _ _ _ (by decide),
    get_other uci n.package "critical_rise_time" "enable_critical_log" _ _ _ (by decide),
    get_other uci n.package "critical_rise_time" "critical_rise_threshold" _ _ _ (by decide),
    get_other uci n.package "critical_rise_time" "critical_fall_threshold" _ _ _ (by decide),
    get_other uci n.package "critical_rise_time" "critical_fall_time" _ _ _ (by decide),
    get_other uci n.package "critical_rise_time" "file_path" _ _ _ (by decide)]

theorem fillGlobal_fallTime (n : Names) (uci : Named) (now : ℤ) :
    fillGlobal n (uci.set n.package "critical_fall_time" (snprintf 32 (printInt now))) =
      { fillGlobal n uci with criticalFallTime := readBack now } := by
  simp only [fillGlobal, get_stamp,
    get_other uci n.package "critical_fall_time" n.interval _ _ _ n.interval_ne.2,
    get_other uci n.package "critical_fall_time" "enable" _ _ _ (by decide),
    get_other uci n.package "critical_fall_time" "enable_critical_log" _ _ _ (by decide),
    get_other uci n.package "critical_fall_time" "critical_rise_threshold" _ _ _ (by decide),
    get_other uci n.package "critical_fall_time" "critical_fall_threshold" _ _ _ (by decide),
    get_other uci n.package "critical_fall_time" "critical_rise_time" _ _ _ (by decide),
    get_other uci n.package "critical_fall_time" "file_path" _ _ _ (by decide)]

/-! ### One poll -/

/-- A context with the settings of `c` that agrees with what the package stores. -/
structure Tracks (n : Names) (c : Ctx) (s : State) : Prop where
  stored : s.ctx = fillGlobal n s.uci
  settings : ∃ rise fall, s.ctx = { c with criticalRiseTime := rise, criticalFallTime := fall }

theorem tracks_load (n : Names) (uci : Named) : Tracks n (fillGlobal n uci) (.load n uci) :=
  ⟨rfl, _, _, rfl⟩

theorem Tracks.reload {n : Names} {c : Ctx} {s : State} (h : Tracks n c s) :
    State.load n s.uci = s := by
  rw [State.load, ← h.stored]

def RiseFires (c : Ctx) (p : Poll) : Prop :=
  p.utilization > c.criticalRiseThreshold ∧ c.criticalFallTime ≥ c.criticalRiseTime

def FallFires (c : Ctx) (p : Poll) : Prop :=
  p.utilization < c.criticalFallThreshold ∧ c.criticalRiseTime > c.criticalFallTime

theorem checkRise_cases (n : Names) (event : ℕ → Effect) (s : State) (p : Poll) :
    (RiseFires s.ctx p ∧ checkRise n event s p.utilization p.riseNow =
      (⟨s.uci.set n.package "critical_rise_time" (snprintf 32 (printInt p.riseNow)),
          { s.ctx with criticalRiseTime := p.riseNow }⟩, render n event s.ctx p (some .rise))) ∨
    (¬RiseFires s.ctx p ∧ checkRise n event s p.utilization p.riseNow = (s, [])) := by
  by_cases hr : RiseFires s.ctx p
  · exact Or.inl ⟨hr, if_pos hr⟩
  · exact Or.inr ⟨hr, if_neg hr⟩

theorem checkFall_cases (n : Names) (event : ℕ → Effect) (s : State) (p : Poll) :
    (FallFires s.ctx p ∧ checkFall n s p.utilization p.fallNow =
      (⟨s.uci.set n.package "critical_fall_time" (snprintf 32 (printInt p.fallNow)),
          { s.ctx with criticalFallTime := p.fallNow }⟩, render n event s.ctx p (some .fall))) ∨
    (¬FallFires s.ctx p ∧ checkFall n s p.utilization p.fallNow = (s, [])) := by
  by_cases hf : FallFires s.ctx p
  · exact Or.inl ⟨hf, if_pos hf⟩
  · exact Or.inr ⟨hf, if_neg hf⟩

/-- What a poll can do: at most one of its two tests succeeds. -/
theorem runMonitor_cases (n : Names) (event : ℕ → Effect) (s : State) (p : Poll)
    (hle : s.ctx.criticalFallThreshold ≤ s.ctx.criticalRiseThreshold) :
    (RiseFires s.ctx p ∧ runMonitor n event s p.utilization p.riseNow p.fallNow =
      (⟨s.uci.set n.package "critical_rise_time" (snprintf 32 (printInt p.riseNow)),
          { s.ctx with criticalRiseTime := p.riseNow }⟩,
        render n event s.ctx p (some .rise) ++ [rearm s.ctx])) ∨
    (FallFires s.ctx p ∧ runMonitor n event s p.utilization p.riseNow p.fallNow =
      (⟨s.uci.set n.package "critical_fall_time" (snprintf 32 (printInt p.fallNow)),
          { s.ctx with criticalFallTime := p.fallNow }⟩,
        render n event s.ctx p (some .fall) ++ [rearm s.ctx])) ∨
    (¬RiseFires s.ctx p ∧ ¬FallFires s.ctx p ∧
      runMonitor n event s p.utilization p.riseNow p.fallNow =
        (s, render n event s.ctx p none ++ [rearm s.ctx])) := by
  rcases checkRise_cases n event s p with ⟨hr, hrise⟩ | ⟨hr, hrise⟩
  · rcases checkFall_cases n event (checkRise n event s p.utilization p.riseNow).1 p with
      ⟨hf, -⟩ | ⟨-, hfall⟩
    · -- The thresholds are in order, so that the two tests exclude each other.
      rw [hrise] at hf
      exact absurd (Nat.lt_of_lt_of_le hf.1 hle) (Nat.lt_asymm hr.1)
    · refine Or.inl ⟨hr, ?_⟩
      dsimp only [runMonitor]
      rw [hfall, hrise, List.append_nil]
  · rcases checkFall_cases n event s p with ⟨hf, hfall⟩ | ⟨hf, hfall⟩
    · refine Or.inr (Or.inl ⟨hf, ?_⟩)
      simp only [runMonitor, hrise, hfall, List.nil_append]
    · refine Or.inr (Or.inr ⟨hr, hf, ?_⟩)
      simp only [runMonitor, hrise, hfall, render, List.nil_append]

/-- The clock moves the mode wherever a test succeeds. -/
structure Poll.Moves (c : Ctx) (p : Poll) : Prop where
  rise : RiseFires c p → c.criticalFallTime < p.riseNow
  fall : FallFires c p → c.criticalRiseTime ≤ p.fallNow

theorem render_times (n : Names) (event : ℕ → Effect) (c : Ctx) (p : Poll) (e : Option Edge)
    (rise fall : ℤ) :
    render n event { c with criticalRiseTime := rise, criticalFallTime := fall } p e =
      render n event c p e := by
  rcases e with _ | _ | _ <;> rfl

theorem runMonitor_spec (n : Names) (event : ℕ → Effect) (c : Ctx) (idle : List Effect) (s : State)
    (p : Poll) (hs : ∃ rise fall, s.ctx = { c with criticalRiseTime := rise, criticalFallTime := fall })
    (hle : c.criticalFallThreshold ≤ c.criticalRiseThreshold) (hp : p.Moves s.ctx) :
    (modeOf (runMonitor n event s p.utilization p.riseNow p.fallNow).1.ctx,
        (runMonitor n event s p.utilization p.riseNow p.fallNow).2) =
      spec n event c idle (modeOf s.ctx) (some p) := by
  obtain ⟨rise, fall, hctx⟩ := hs
  have hspec : spec n event c idle (modeOf s.ctx) (some p) =
      spec n event s.ctx idle (modeOf s.ctx) (some p) := by
    simp only [spec_poll, hctx, render_times]
    rfl
  rw [hspec]
  have hle' : s.ctx.criticalFallThreshold ≤ s.ctx.criticalRiseThreshold := by
    rw [hctx]
    exact hle
  rcases runMonitor_cases n event s p hle' with ⟨hr, hrun⟩ | ⟨hf, hrun⟩ | ⟨hr, hf, hrun⟩
  · have hmode : ¬(s.ctx.criticalRiseTime > s.ctx.criticalFallTime) := Int.not_lt.mpr hr.2
    have hmode' : p.riseNow > s.ctx.criticalFallTime := hp.rise hr
    rw [hrun]
    simp only [spec_poll, modeOf, if_neg hmode, if_pos hmode', Hysteresis.step, if_pos hr.1]
  · have hmode' : ¬(s.ctx.criticalRiseTime > p.fallNow) := Int.not_lt.mpr (hp.fall hf)
    rw [hrun]
    simp only [spec_poll, modeOf, if_pos hf.2, if_neg hmode', Hysteresis.step, if_pos hf.1]
  · rw [hrun]
    by_cases hmode : s.ctx.criticalRiseTime > s.ctx.criticalFallTime
    · have hu : ¬(p.utilization < s.ctx.criticalFallThreshold) := fun h => hf ⟨h, hmode⟩
      simp only [spec_poll, modeOf, if_pos hmode, Hysteresis.step, if_neg hu]
    · have hu : ¬(p.utilization > s.ctx.criticalRiseThreshold) := fun h =>
        hr ⟨h, Int.not_lt.mp hmode⟩
      simp only [spec_poll, modeOf, if_neg hmode, Hysteresis.step, if_neg hu]

theorem Poll.Timely.moves {c : Ctx} {p : Poll} (h : p.Timely c) : p.Moves c :=
  ⟨fun _ => h.rise.2, fun _ => Int.le_of_lt h.fall.1⟩

theorem runMonitor_tracks (n : Names) (event : ℕ → Effect) (c : Ctx) (s : State) (p : Poll)
    (hs : Tracks n c s) (hle : c.criticalFallThreshold ≤ c.criticalRiseThreshold)
    (hp : p.Timely s.ctx) :
    Tracks n c (runMonitor n event s p.utilization p.riseNow p.fallNow).1 := by
  obtain ⟨hstored, rise, fall, hctx⟩ := hs
  have hle' : s.ctx.criticalFallThreshold ≤ s.ctx.criticalRiseThreshold := by
    rw [hctx]
    exact hle
  rcases runMonitor_cases n event s p hle' with ⟨-, hrun⟩ | ⟨-, hrun⟩ | ⟨-, -, hrun⟩
  · rw [hrun]
    have hback : readBack p.riseNow = p.riseNow := hp.riseBack
    exact ⟨by rw [fillGlobal_riseTime n s.uci p.riseNow, ← hstored, hback], p.riseNow, fall,
      by rw [hctx]⟩
  · rw [hrun]
    have hback : readBack p.fallNow = p.fallNow := hp.fallBack
    exact ⟨by rw [fillGlobal_fallTime n s.uci p.fallNow, ← hstored, hback], rise, p.fallNow,
      by rw [hctx]⟩
  · rw [hrun]
    exact ⟨hstored, rise, fall, hctx⟩

/-! ### What is written -/

/-- What the writes among the effects make of the package. -/
def written (uci : Named) (effects : List Effect) : Named :=
  effects.foldl (fun uci e => match e with
    | .uciSet package option value => uci.set package option value
    | _ => uci) uci

theorem written_append (uci : Named) (a b : List Effect) :
    written uci (a ++ b) = written (written uci a) b :=
  List.foldl_append

theorem written_criticalLog (n : Names) (c : Ctx) (critical : Bool) (uci : Named) :
    written uci (criticalLog n c critical) = uci := by
  unfold criticalLog
  split <;> rfl

theorem checkRise_written (n : Names) (event : ℕ → Effect) (s : State) (p : Poll)
    (hevent : ∀ u uci, written uci [event u] = uci) :
    (checkRise n event s p.utilization p.riseNow).1.uci =
      written s.uci (checkRise n event s p.utilization p.riseNow).2 := by
  rcases checkRise_cases n event s p with ⟨-, hcheck⟩ | ⟨-, hcheck⟩
  · rw [hcheck]
    dsimp only
    rw [render_rise, written_append, written_append, written_criticalLog, hevent]
    rfl
  · rw [hcheck]
    rfl

theorem checkFall_written (n : Names) (event : ℕ → Effect) (s : State) (p : Poll) :
    (checkFall n s p.utilization p.fallNow).1.uci =
      written s.uci (checkFall n s p.utilization p.fallNow).2 := by
  rcases checkFall_cases n event s p with ⟨-, hcheck⟩ | ⟨-, hcheck⟩
  · rw [hcheck]
    dsimp only
    rw [render_fall, written_append, written_criticalLog]
    rfl
  · rw [hcheck]
    rfl

/-- The package after a poll is the one before it with what the poll wrote. -/
theorem runMonitor_written (n : Names) (event : ℕ → Effect) (s : State) (p : Poll)
    (hevent : ∀ u uci, written uci [event u] = uci) :
    (runMonitor n event s p.utilization p.riseNow p.fallNow).1.uci =
      written s.uci (runMonitor n event s p.utilization p.riseNow p.fallNow).2 := by
  have hrise := checkRise_written n event s p hevent
  have hfall := checkFall_written n event (checkRise n event s p.utilization p.riseNow).1 p
  have hrearm : ∀ uci, written uci [rearm s.ctx] = uci := fun _ => rfl
  dsimp only [runMonitor]
  rw [written_append, written_append, hrearm, ← hrise, ← hfall]

/-- A poll writes the two timestamps only. -/
theorem runMonitor_get (n : Names) (event : ℕ → Effect) (s : State) (p : Poll) (option : String)
    (default : Str) (size : ℕ) (hrise : option ≠ "critical_rise_time")
    (hfall : option ≠ "critical_fall_time") :
    (runMonitor n event s p.utilization p.riseNow p.fallNow).1.uci.get n.package option default
        size = s.uci.get n.package option default size := by
  have hfirst : (checkRise n event s p.utilization p.riseNow).1.uci.get n.package option default
      size = s.uci.get n.package option default size := by
    rcases checkRise_cases n event s p with ⟨-, hcheck⟩ | ⟨-, hcheck⟩
    · rw [hcheck]
      exact get_other s.uci n.package _ option _ default size hrise
    · rw [hcheck]
  rw [← hfirst]
  dsimp only [runMonitor]
  rcases checkFall_cases n event (checkRise n event s p.utilization p.riseNow).1 p with
    ⟨-, hcheck⟩ | ⟨-, hcheck⟩
  · rw [hcheck]
    exact get_other _ n.package _ option _ default size hfall
  · rw [hcheck]

/-! ### What is polled -/

def MemoryEvent.reading : MemoryEvent → MemoryReading
  | .timer r => r
  | .reload r => r

/-- The enabled memory monitor polls at every event. -/
def memoryPolls (events : List MemoryEvent) : List (Option Poll) :=
  events.map fun e => some e.reading.poll

/-- The average with the samples of the reading among the others. -/
def CpuInfo.poll (c : CpuInfo) (r : CpuReading) : Poll :=
  ⟨calculateAverageSamples (takeSamples c r.stat) (takeSamples c r.stat).utilizationSamples,
    r.riseNow, r.fallNow⟩

/-- The polls of the CPU monitor: the averages of the samples taken since the last reload, which
the thresholds have no part in. A reload does not poll. -/
def cpuPolls (uci : Named) : CpuInfo → List CpuEvent → List (Option Poll)
  | _, [] => []
  | c, .timer r :: events => some (c.poll r) :: cpuPolls uci (takeSamples c r.stat) events
  | _, .reload stat :: events => none :: cpuPolls uci (fillGlobalCpuInfo uci stat) events

def MemoryEvent.Timely (c : Ctx) (e : MemoryEvent) : Prop :=
  Monitor.Timely c e.reading.riseNow e.reading.fallNow

instance (c : Ctx) (e : MemoryEvent) : Decidable (e.Timely c) :=
  inferInstanceAs (Decidable (Monitor.Timely c e.reading.riseNow e.reading.fallNow))

def CpuEvent.Timely (c : Ctx) : CpuEvent → Prop
  | .timer r => Monitor.Timely c r.riseNow r.fallNow
  | .reload _ => True

instance (c : Ctx) : ∀ e : CpuEvent, Decidable (e.Timely c)
  | .timer r => inferInstanceAs (Decidable (Monitor.Timely c r.riseNow r.fallNow))
  | .reload _ => isTrue trivial

/-! ### Runs with reloads -/

/-- What a run did is what the automaton does on the polls, from the state the package `uci`
stores to the one that the run's own writes leave there. -/
structure FollowsHysteresis (n : Names) (event : ℕ → Effect) (idle : List Effect) (uci : Named)
    (polls : List (Option Poll)) (outs : List Out) (final : State) : Prop where
  effects : outs.map Out.effects =
    (run (spec n event (fillGlobal n uci) idle) (modeOf (fillGlobal n uci)) polls).2
  mode : modeOf final.ctx =
    (run (spec n event (fillGlobal n uci) idle) (modeOf (fillGlobal n uci)) polls).1
  written : final.uci = written uci (outs.flatMap Out.effects)
  stored : final.ctx = fillGlobal n final.uci
  alternates : Alternates (modeOf (fillGlobal n uci)) (outs.flatMap fun o => edges o.effects)

/-- A machine each of whose events keeps the context in step with the package and
does what the automaton does follows it. -/
theorem follows_of_step {σ ε : Type} (step : σ → ε → σ × Out) (mon : σ → State)
    (P : σ → ε → Prop) (n : Names) (event : ℕ → Effect) (idle : List Effect) (uci : Named)
    (hevent : ∀ u, edgeOf (event u) = none) (hidle : edges idle = [])
    (hstep : ∀ s e, Tracks n (fillGlobal n uci) (mon s) → P s e →
      Tracks n (fillGlobal n uci) (mon (step s e).1) ∧
        (modeOf (mon (step s e).1).ctx, (step s e).2.effects) =
          spec n event (fillGlobal n uci) idle (modeOf (mon s).ctx) (step s e).2.polled)
    (hwritten : ∀ s e, (mon (step s e).1).uci = written (mon s).uci (step s e).2.effects)
    (s : σ) (es : List ε) (polls : List (Option Poll)) (hs : mon s = .load n uci)
    (hP : Along step P s es) (hpolls : (run step s es).2.map Out.polled = polls) :
    FollowsHysteresis n event idle uci polls (run step s es).2 (mon (run step s es).1) := by
  subst hpolls
  let R : σ → Mode → Prop := fun t m => Tracks n (fillGlobal n uci) (mon t) ∧ modeOf (mon t).ctx = m
  have hR : R s (modeOf (fillGlobal n uci)) := by
    rw [show R s _ = (Tracks n (fillGlobal n uci) (mon s) ∧ modeOf (mon s).ctx = _) from rfl, hs]
    exact ⟨tracks_load n uci, rfl⟩
  obtain ⟨⟨htracks, hmode⟩, heffects⟩ := run_simulates_observed step
    (spec n event (fillGlobal n uci) idle) R Out.polled Out.effects P (by
      rintro t m e ⟨ht, rfl⟩ hp
      obtain ⟨ht', hspec⟩ := hstep t e ht hp
      rw [← hspec]
      exact ⟨⟨ht', rfl⟩, rfl⟩) s _ es hR hP
  have hlog := run_history step
    (fun t log => (mon t).uci = written uci (log.flatMap Out.effects))
    (by
      intro t e log ht
      rw [hwritten, ht, List.flatMap_append, written_append, List.flatMap_singleton])
    s es [] (by rw [hs]; rfl)
  have halt := run_alternates (spec n event (fillGlobal n uci) idle) id edges
    (spec_turn n event (fillGlobal n uci) idle hevent hidle) (modeOf (fillGlobal n uci))
    ((run step s es).2.map Out.polled)
  rw [← heffects, List.flatMap_map] at halt
  exact ⟨heffects, hmode, hlog, htracks.stored, halt⟩

/-! ### The memory monitor -/

theorem sysmngrMemoryInit_enabled (s : State) (r : MemoryReading)
    (h : State.load memoryNames s.uci = s) (henable : s.ctx.enable = true) :
    sysmngrMemoryInit s r = runMemoryMonitor s r := by
  rw [sysmngrMemoryInit, fillGlobalMemoryCtx, h]
  exact if_pos henable

theorem Tracks.enable {n : Names} {c : Ctx} {s : State} (h : Tracks n c s) :
    s.ctx.enable = c.enable := by
  obtain ⟨rise, fall, hctx⟩ := h.settings
  rw [hctx]

/-- The enabled monitor polls the reading of every event. -/
theorem memoryStep_run (c : Ctx) (s : State) (e : MemoryEvent) (hs : Tracks memoryNames c s)
    (henable : c.enable = true) : memoryStep s e = runMemoryMonitor s e.reading := by
  cases e with
  | timer r => rfl
  | reload r => exact sysmngrMemoryInit_enabled s r hs.reload (hs.enable.trans henable)

theorem memoryStep_spec (c : Ctx) (s : State) (e : MemoryEvent) (hs : Tracks memoryNames c s)
    (henable : c.enable = true) (hle : c.criticalFallThreshold ≤ c.criticalRiseThreshold)
    (hp : e.Timely s.ctx) :
    Tracks memoryNames c (memoryStep s e).1 ∧
      (modeOf (memoryStep s e).1.ctx, (memoryStep s e).2.effects) =
        spec memoryNames memoryCriticalStateEvent c [] (modeOf s.ctx) (memoryStep s e).2.polled := by
  rw [memoryStep_run c s e hs henable]
  have htimely : e.reading.poll.Timely s.ctx := hp
  exact ⟨runMonitor_tracks memoryNames memoryCriticalStateEvent c s e.reading.poll hs hle htimely,
    runMonitor_spec memoryNames memoryCriticalStateEvent c [] s e.reading.poll hs.settings hle
      htimely.moves⟩

theorem memoryStep_written (s : State) (e : MemoryEvent) :
    (memoryStep s e).1.uci = written s.uci (memoryStep s e).2.effects := by
  have hrun : ∀ (s : State) (r : MemoryReading),
      (runMemoryMonitor s r).1.uci = written s.uci (runMemoryMonitor s r).2.effects :=
    fun s r => runMonitor_written memoryNames memoryCriticalStateEvent s r.poll fun _ _ => rfl
  cases e with
  | timer r => exact hrun s r
  | reload r =>
    dsimp only [memoryStep, sysmngrMemoryInit]
    split
    · exact hrun (fillGlobalMemoryCtx s) r
    · rfl

theorem memory_polled (c : Ctx) (henable : c.enable = true)
    (hle : c.criticalFallThreshold ≤ c.criticalRiseThreshold) (s : State)
    (events : List MemoryEvent) (hs : Tracks memoryNames c s)
    (hP : Along memoryStep (fun s e => e.Timely s.ctx) s events) :
    (run memoryStep s events).2.map Out.polled = memoryPolls events := by
  induction events generalizing s with
  | nil => rfl
  | cons e events ih =>
    have hpolled : (memoryStep s e).2.polled = some e.reading.poll := by
      rw [memoryStep_run c s e hs henable]
      rfl
    have hrest := ih _ (memoryStep_spec c s e hs henable hle hP.1).1 hP.2
    rw [run_cons_outputs, List.map_cons, hpolled, hrest]
    rfl

/-! ### The CPU monitor -/

theorem cpuStep_spec (c : Ctx) (s : CpuInfo) (e : CpuEvent) (hs : Tracks cpuNames c s.mon)
    (henable : c.enable = true) (hle : c.criticalFallThreshold ≤ c.criticalRiseThreshold)
    (hp : e.Timely s.mon.ctx) :
    Tracks cpuNames c (cpuStep s e).1.mon ∧
      (modeOf (cpuStep s e).1.mon.ctx, (cpuStep s e).2.effects) =
        spec cpuNames cpuCriticalStateEvent c [rearm c] (modeOf s.mon.ctx)
          (cpuStep s e).2.polled := by
  cases e with
  | timer r =>
    have htimely : (s.poll r).Timely s.mon.ctx := hp
    exact ⟨runMonitor_tracks cpuNames cpuCriticalStateEvent c s.mon (s.poll r) hs hle htimely,
      runMonitor_spec cpuNames cpuCriticalStateEvent c [rearm c] s.mon (s.poll r) hs.settings hle
        htimely.moves⟩
  | reload stat =>
    have hmon : (fillGlobalCpuInfo s.mon.uci stat).mon = s.mon := hs.reload
    obtain ⟨rise, fall, hctx⟩ := hs.settings
    have hen : s.mon.ctx.enable = true := hs.enable.trans henable
    have harm : rearm s.mon.ctx = rearm c := by
      rw [hctx]
      rfl
    simp only [cpuStep, sysmngrCpuInit, hmon, if_pos hen, harm, spec, and_true]
    exact hs

theorem cpuStep_written (s : CpuInfo) (e : CpuEvent) :
    (cpuStep s e).1.mon.uci = written s.mon.uci (cpuStep s e).2.effects := by
  cases e with
  | timer r =>
    exact runMonitor_written cpuNames cpuCriticalStateEvent s.mon (s.poll r) fun _ _ => rfl
  | reload stat =>
    dsimp only [cpuStep, sysmngrCpuInit]
    split <;> rfl

def storedSamples (uci : Named) : Str := uci.get "cpu" "num_samples" "30".toList 16

/-- The samples of the running monitor are those of one whose thresholds are never tested. -/
structure SameSamples (uci : Named) (s t : CpuInfo) : Prop where
  samples : s = { t with mon := s.mon }
  stored : storedSamples s.mon.uci = storedSamples uci

theorem fillGlobalCpuInfo_sameSamples (uci uci' : Named) (stat : List (List UInt64))
    (h : storedSamples uci' = storedSamples uci) :
    SameSamples uci (fillGlobalCpuInfo uci' stat) (fillGlobalCpuInfo uci stat) := by
  refine ⟨?_, h⟩
  have hcount : toUInt (strtoul (uci'.get "cpu" "num_samples" "30".toList 16)) =
      toUInt (strtoul (uci.get "cpu" "num_samples" "30".toList 16)) :=
    congrArg (fun text => toUInt (strtoul text)) h
  dsimp only [fillGlobalCpuInfo]
  rw [hcount]

theorem runCpuMonitor_sameSamples (uci : Named) (s t : CpuInfo) (r : CpuReading)
    (h : SameSamples uci s t) :
    SameSamples uci (runCpuMonitor s r).1 (takeSamples t r.stat) ∧
      (runCpuMonitor s r).2.polled = some (t.poll r) := by
  obtain ⟨hsamples, hstored⟩ := h
  have htaken : takeSamples s r.stat = { takeSamples t r.stat with mon := s.mon } := by
    rw [hsamples]
    rfl
  have hcount := runMonitor_get cpuNames cpuCriticalStateEvent s.mon (s.poll r) "num_samples"
    "30".toList 16 (by decide) (by decide)
  refine ⟨⟨?_, hcount.trans hstored⟩, ?_⟩
  · dsimp only [runCpuMonitor]
    rw [htaken]
  · dsimp only [runCpuMonitor]
    rw [htaken]
    rfl

theorem cpu_polled (uci : Named) (s t : CpuInfo) (events : List CpuEvent)
    (h : SameSamples uci s t) :
    (run cpuStep s events).2.map Out.polled = cpuPolls uci t events := by
  induction events generalizing s t with
  | nil => rfl
  | cons e events ih =>
    rw [run_cons_outputs, List.map_cons]
    cases e with
    | timer r =>
      obtain ⟨hnext, hpolled⟩ := runCpuMonitor_sameSamples uci s t r h
      exact List.cons_eq_cons.mpr ⟨hpolled, ih _ _ hnext⟩
    | reload stat =>
      exact List.cons_eq_cons.mpr
        ⟨rfl, ih _ _ (fillGlobalCpuInfo_sameSamples uci s.mon.uci stat h.stored)⟩

/-! ### Both monitors -/

/-- The notifications of both monitors are those of the hysteresis automaton, over
any mix of polls, restarts and reloads. -/
theorem monitors_follow_hysteresis (uci : Named) :
    (∀ events : List MemoryEvent,
      (fillGlobal memoryNames uci).enable = true →
      (fillGlobal memoryNames uci).criticalFallThreshold ≤
        (fillGlobal memoryNames uci).criticalRiseThreshold →
      Along memoryStep (fun s e => e.Timely s.ctx) (.load memoryNames uci) events →
      FollowsHysteresis memoryNames
        (fun u => .event "Device.DeviceInfo.MemoryStatus.MemoryMonitor.MemoryCriticalState!"
          [("MemUtilization", snprintf 32 (printNat u), .unint)])
        [] uci (memoryPolls events)
        (run memoryStep (.load memoryNames uci) events).2
        (run memoryStep (.load memoryNames uci) events).1) ∧
    (∀ (stat : List (List UInt64)) (events : List CpuEvent),
      (fillGlobal cpuNames uci).enable = true →
      (fillGlobal cpuNames uci).criticalFallThreshold ≤
        (fillGlobal cpuNames uci).criticalRiseThreshold →
      Along cpuStep (fun s e => e.Timely s.mon.ctx) (fillGlobalCpuInfo uci stat) events →
      FollowsHysteresis cpuNames
        (fun u => .event "Device.DeviceInfo.ProcessStatus.CPU.1.CPUCriticalState!"
          [("CPUUtilization", snprintf 32 (printNat u), .unint),
            ("Name", "cpu".toList, .string)])
        [.timeoutSet (toInt (toUInt ((fillGlobal cpuNames uci).interval * 1000)))] uci
        (cpuPolls uci (fillGlobalCpuInfo uci stat) events)
        (run cpuStep (fillGlobalCpuInfo uci stat) events).2
        (run cpuStep (fillGlobalCpuInfo uci stat) events).1.mon) := by
  constructor
  · intro events henable hle hP
    exact follows_of_step memoryStep id _ memoryNames memoryCriticalStateEvent [] uci
      (fun _ => rfl) rfl (fun s e hs hp => memoryStep_spec _ s e hs henable hle hp)
      memoryStep_written _ events _ rfl hP
      (memory_polled _ henable hle _ events (tracks_load memoryNames uci) hP)
  · intro stat events henable hle hP
    exact follows_of_step cpuStep CpuInfo.mon _ cpuNames cpuCriticalStateEvent _ uci
      (fun _ => rfl) rfl (fun s e hs hp => cpuStep_spec _ s e hs henable hle hp)
      cpuStep_written _ events _ rfl hP
      (cpu_polled uci _ _ events (fillGlobalCpuInfo_sameSamples uci uci stat rfl))

def sampleUci : Named := fun _ option => if option = "enable" then some "1".toList else none

def sampleMemory : List MemoryEvent :=
  [.timer ⟨some ⟨100, 10, 0, 0, 0⟩, 100, 100⟩, .reload ⟨some ⟨100, 5, 5, 5, 0⟩, 160, 160⟩,
    .timer ⟨some ⟨100, 20, 20, 10, 0⟩, 220, 220⟩, .reload ⟨some ⟨100, 30, 0, 0, 0⟩, 280, 280⟩]

def sampleCpu : List CpuEvent :=
  [.timer ⟨[[90, 0, 0, 10]], 100, 100⟩, .reload [[90, 0, 0, 10]],
    .timer ⟨[[1], [100, 0, 0, 100]], 110, 110⟩]

theorem monitors_follow_hysteresis_sample :
    (FollowsHysteresis memoryNames memoryCriticalStateEvent [] sampleUci
        (memoryPolls sampleMemory) (run memoryStep (.load memoryNames sampleUci) sampleMemory).2
        (run memoryStep (.load memoryNames sampleUci) sampleMemory).1 ∧
      ((run memoryStep (.load memoryNames sampleUci) sampleMemory).2.flatMap
        fun o => edges o.effects) = [.rise, .fall]) ∧
    (FollowsHysteresis cpuNames cpuCriticalStateEvent [rearm (fillGlobal cpuNames sampleUci)]
        sampleUci (cpuPolls sampleUci (fillGlobalCpuInfo sampleUci []) sampleCpu)
        (run cpuStep (fillGlobalCpuInfo sampleUci []) sampleCpu).2
        (run cpuStep (fillGlobalCpuInfo sampleUci []) sampleCpu).1.mon ∧
      ((run cpuStep (fillGlobalCpuInfo sampleUci []) sampleCpu).2.flatMap
        fun o => edges o.effects) = [.rise, .fall]) := by
  obtain ⟨hmemory, hcpu⟩ := monitors_follow_hysteresis sampleUci
  exact ⟨⟨hmemory sampleMemory (by decide) (by decide) (by decide), by decide⟩,
    hcpu [] sampleCpu (by decide) (by decide) (by decide), by decide⟩

end Sysmngr.Monitor
