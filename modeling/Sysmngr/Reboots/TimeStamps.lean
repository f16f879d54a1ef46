import Sysmngr.IsoTime
import Sysmngr.Words
import Sysmngr.Reboots.Cause

/-!
# Time stamps of the reboot records (`reboots.c`, `utils.c`)

A boot is dated by the clock less the uptime, and the date is kept as text in the record.
What the record tells later is the second of the boot it was written for, or of the last
of the boots that were registered under its name.
-/

namespace Sysmngr.Reboots
open Text Lines Words Uci Calendar Machine

/-! ### The uptime -/

/-- `sysmngr_get_uptime`: the number in front of the first dot of `/proc/uptime`. -/
def sysmngrGetUptime (file : Option Str) : ℤ :=
  match file with
  | none => 0
  | some content =>
    match nextWord (· == '.') (cstr (fgets 63 content).1) with
    | some (pch, _) => toInt (strtol pch)
    | none => 0

/-- `/proc/uptime` as the kernel writes it, for an uptime of a C `int`. -/
structure UptimeFile where
  seconds : ℕ
  rest : Str
  fits : seconds < 2 ^ 31

def UptimeFile.text (u : UptimeFile) : Str := printNat u.seconds ++ '.' :: u.rest

theorem isDigit_plain (c : Char) (h : c.isDigit = true) : c ≠ '.' ∧ c ≠ '\n' ∧ c ≠ NUL := by
  refine ⟨?_, ?_, ?_⟩ <;> rintro rfl <;> exact absurd h (by decide)

theorem sysmngrGetUptime_text (u : UptimeFile) : sysmngrGetUptime (some u.text) = u.seconds := by
  have hdigits := printNat_isDigit u.seconds
  have hshort := printNat_length_le u.seconds 10 (by decide) (by have := u.fits; omega)
  obtain ⟨m, hm⟩ : ∃ m, 63 = (printNat u.seconds ++ ['.']).length + m :=
    ⟨52 + (10 - (printNat u.seconds).length), by
      rw [List.length_append, List.length_singleton]
      omega⟩
  have hline : '\n' ∉ printNat u.seconds ++ ['.'] := by
    simp only [List.mem_append, List.mem_singleton, not_or]
    exact ⟨fun hc => (isDigit_plain _ (hdigits _ hc)).2.1 rfl, by decide⟩
  have hread : (fgets 63 u.text).1 = printNat u.seconds ++ '.' :: (fgets m u.rest).1 := by
    have happend := fgets_append m (printNat u.seconds ++ ['.']) u.rest hline
    rw [← hm, List.append_assoc, List.singleton_append] at happend
    rw [UptimeFile.text, happend, List.append_assoc, List.singleton_append]
  have hkeep : ∀ c ∈ printNat u.seconds ++ ['.'], (c != NUL) = true := by
    intro c hc
    rw [bne_iff_ne]
    rcases List.mem_append.mp hc with hc | hc
    · exact (isDigit_plain c (hdigits c hc)).2.2
    · rw [List.mem_singleton.mp hc]
      decide
  have hcut : cstr (printNat u.seconds ++ '.' :: (fgets m u.rest).1) =
      printNat u.seconds ++ '.' :: cstr (fgets m u.rest).1 := by
    have happend : ((printNat u.seconds ++ ['.']) ++ (fgets m u.rest).1).takeWhile (· != NUL) =
        (printNat u.seconds ++ ['.']) ++ (fgets m u.rest).1.takeWhile (· != NUL) :=
      List.takeWhile_append_of_pos hkeep
    rwa [List.append_assoc, List.append_assoc] at happend
  have hword := nextWord_append_break (· == '.') (printNat u.seconds) '.'
    (cstr (fgets m u.rest).1) (printNat_ne_nil _)
    (fun c hc => beq_eq_false_iff_ne.mpr (isDigit_plain c (hdigits c hc)).1) rfl
  have hvalue : strtol (printNat u.seconds) = u.seconds := by
    rw [strtol_digits _ (printNat_ne_nil _) hdigits (by
      rw [digitsValue_printNat]
      have := u.fits
      omega), digitsValue_printNat]
  simp only [sysmngrGetUptime, hread, hcut, hword, hvalue]
  exact toInt_of_mem _ (by omega) (by have := u.fits; omega)

/-! ### One record -/

/-- The sections named `name` carry the stamp, the others are among the old ones. -/
def Stamped (old : List Section) (name stamp : Str) (l : List Section) : Prop :=
  ∀ s ∈ l, (s.name = name ∧ s.get "time_stamp" = stamp) ∨ (s.name ≠ name ∧ s ∈ old)

theorem setOption_mem (l : List Section) (name : Str) (option : String) (value : Str) (s : Section)
    (hs : s ∈ setOption l name option value) :
    (∃ t ∈ l, t.name = name ∧ s = t.set option value) ∨ (s.name ≠ name ∧ s ∈ l) := by
  obtain ⟨t, ht, rfl⟩ := List.mem_map.mp hs
  by_cases hname : t.name = name
  · rw [if_pos (beq_iff_eq.mpr hname)]
    exact Or.inl ⟨t, ht, hname, rfl⟩
  · rw [if_neg (mt beq_iff_eq.mp hname)]
    exact Or.inr ⟨hname, ht⟩

theorem Stamped.setOption {old l : List Section} {name stamp : Str} (h : Stamped old name stamp l)
    (option : String) (value : Str) (ho : "time_stamp" ≠ option) :
    Stamped old name stamp (setOption l name option value) := by
  intro s hs
  rcases setOption_mem l name option value s hs with ⟨t, ht, hname, rfl⟩ | ⟨hname, hold⟩
  · refine Or.inl ⟨(Section.set_name t option value).trans hname, ?_⟩
    rw [Section.get_set_other _ _ _ _ ho]
    exact (h t ht).elim And.right fun hother => absurd hname hother.1
  · exact h s hold

theorem stamped_addSection (old : List Section) (name stamp : Str) :
    Stamped old name stamp (setOption (addSection old name) name "time_stamp" stamp) := by
  intro s hs
  rcases setOption_mem _ name "time_stamp" stamp s hs with ⟨t, ht, hname, rfl⟩ | ⟨hname, hadded⟩
  · exact Or.inl ⟨(Section.set_name t _ _).trans hname, Section.get_set_self t _ _⟩
  · refine Or.inr ⟨hname, ?_⟩
    unfold addSection at hadded
    split at hadded
    · exact hadded
    · rcases List.mem_append.mp hadded with hold | hnew
      · exact hold
      · exact absurd (congrArg Section.name (List.mem_singleton.mp hnew)) hname

theorem createRebootSection_stamped (c : Config) (clk : Clock) (trigger reason : Str) :
    Stamped c.reboot (sectionName clk) (calculateBootTime clk)
      (createRebootSection c clk trigger reason).reboot := by
  have hstamp := stamped_addSection c.reboot (sectionName clk) (calculateBootTime clk)
  unfold createRebootSection
  by_cases ht : trigger = "defaultreset".toList
  · simp only [if_pos ht]
    exact ((hstamp.setOption _ _ (by decide)).setOption _ _ (by decide)).setOption _ _ (by decide)
  · simp only [if_neg ht]
    exact ((hstamp.setOption _ _ (by decide)).setOption _ _ (by decide)).setOption _ _ (by decide)

theorem deletePass_subset (env : Env) (n k : ℤ) (l kept : List Section)
    (h : deletePass env n k l = some kept) : kept ⊆ l := by
  induction l generalizing k kept with
  | nil =>
    rw [← Option.some.inj h]
    exact List.Subset.refl _
  | cons s rest ih =>
    rw [deletePass] at h
    split at h
    · split at h
      · exact List.subset_cons_of_subset s (ih (k + 1) kept h)
      · exact absurd h (by simp)
    · obtain ⟨tail, htail, rfl⟩ := Option.map_eq_some_iff.mp h
      exact List.cons_subset_cons s (ih k tail htail)

theorem deleteExcess_subset (env : Env) (l : List Section) (v : ℤ) :
    deleteExcessRebootSections env l v ⊆ l := by
  unfold deleteExcessRebootSections
  dsimp only
  split
  · exact List.Subset.refl _
  · split
    · rename_i kept hkept
      split
      · exact deletePass_subset env _ _ l kept hkept
      · exact List.Subset.refl _
    · exact List.Subset.refl _

theorem deleteEarliest_subset (n k : ℤ) (l : List Section) : deleteEarliest n k l ⊆ l := by
  rw [deleteEarliest_eq]
  exact List.drop_subset _ _

/-! ### Whole histories -/

/-- A boot with what its registration meets; `gmtime` gives a time for its second. -/
structure Registration where
  env : Env
  now : Int64
  bootNow : Int64
  uptime : UptimeFile
  trigger : Str
  reason : Str
  year : toInt ((gmtime (bootNow.toInt - uptime.seconds)).year - 1900) =
    (gmtime (bootNow.toInt - uptime.seconds)).year - 1900

/-- The second in which the device was booted, by the clock at the registration. -/
def Registration.second (r : Registration) : ℤ := r.bootNow.toInt - r.uptime.seconds

def Registration.clock (r : Registration) : Clock :=
  ⟨r.now, r.bootNow, sysmngrGetUptime (some r.uptime.text)⟩

def Registration.name (r : Registration) : Str := sectionName r.clock

inductive RecordEvent where
  | boot (r : Registration)
  | remoteReboot (rebooted : Bool)
  | setMax (value : ℤ)
  | remove (name : Str)
  | removeAll

/-- The configuration after an event, and the boot it wrote a record for. -/
def recordStep (c : Config) : RecordEvent → Config × Option Registration
  | .boot r =>
    (registerBoot r.env c r.clock r.trigger r.reason,
      if maxRebootEntries c ≠ 0 then some r else none)
  | .remoteReboot rebooted => (execReboot c rebooted, none)
  | .setMax value => (setDeviceInfoRebootsMaxRebootEntries c value, none)
  | .remove name => (operateDeviceInfoRebootsRebootRemove c name, none)
  | .removeAll => (operateDeviceInfoRebootsRemoveAllReboots c, none)

/-- The last boot that was recorded under a name. -/
def latest (log : List (Option Registration)) (name : Str) : Option Registration :=
  (log.reverse.filterMap id).find? fun r => r.name == name

theorem latest_append (log : List (Option Registration)) (o : Option Registration) (name : Str) :
    latest (log ++ [o]) name =
      if o.any (fun r => r.name == name) then o else latest log name := by
  unfold latest
  rw [List.reverse_append, List.reverse_singleton, List.singleton_append]
  cases o with
  | none => rfl
  | some r =>
    have hcons : (some r :: log.reverse).filterMap id = r :: log.reverse.filterMap id := rfl
    rw [hcons, List.find?_cons, Option.any_some]
    cases r.name == name <;> rfl

/-- Every record that is kept carries the stamp of the last boot recorded under its name. -/
def Dated (c : Config) (log : List (Option Registration)) : Prop :=
  ∀ s ∈ c.reboot, ∃ r, latest log s.name = some r ∧ s.get "time_stamp" = calculateBootTime r.clock

theorem Dated.subset {c d : Config} {log : List (Option Registration)} (h : Dated c log)
    (hsub : d.reboot ⊆ c.reboot) : Dated d (log ++ [none]) := by
  intro s hs
  rw [latest_append]
  exact h s (hsub hs)

theorem registerBoot_dated (c : Config) (log : List (Option Registration)) (r : Registration)
    (h : Dated c log) :
    Dated (registerBoot r.env c r.clock r.trigger r.reason)
      (log ++ [if maxRebootEntries c ≠ 0 then some r else none]) := by
  have hcount := countBoot_reboot c r.trigger r.reason
  have hmax := maxRebootEntries_countBoot c r.trigger r.reason
  unfold registerBoot recordBoot
  rw [hmax, hcount]
  by_cases hz : maxRebootEntries c ≠ 0
  · rw [if_pos hz, if_pos hz]
    intro s hs
    rw [latest_append, Option.any_some]
    rcases createRebootSection_stamped _ _ _ _ s hs with ⟨hname, hstamp⟩ | ⟨hname, hold⟩
    · have hown : (r.name == s.name) = true := beq_iff_eq.mpr hname.symm
      rw [if_pos hown]
      exact ⟨r, rfl, hstamp⟩
    · have hother : ¬(r.name == s.name) = true := fun hb => hname (beq_iff_eq.mp hb).symm
      rw [if_neg hother]
      exact h s (deleteExcess_subset r.env c.reboot _ hold)
  · rw [if_neg hz, if_neg hz]
    exact h.subset (by rw [hcount]; exact List.Subset.refl _)

theorem recordStep_dated (c : Config) (e : RecordEvent) (log : List (Option Registration))
    (h : Dated c log) : Dated (recordStep c e).1 (log ++ [(recordStep c e).2]) := by
  cases e with
  | boot r => exact registerBoot_dated c log r h
  | remoteReboot rebooted =>
    refine h.subset ?_
    cases rebooted <;> exact List.Subset.refl _
  | setMax value =>
    refine h.subset ?_
    simp only [recordStep, setDeviceInfoRebootsMaxRebootEntries]
    split
    · exact List.nil_subset _
    · split
      · exact deleteEarliest_subset _ _ _
      · exact List.Subset.refl _
  | remove name => exact h.subset (deleteSection_sublist c.reboot name).subset
  | removeAll => exact h.subset (List.nil_subset _)

theorem calculateBootTime_read (r : Registration) :
    readIso (calculateBootTime r.clock) = some r.second ↔ fourDigitYears r.second := by
  have hsecond : r.clock.bootNow.toInt - r.clock.uptime = r.second := by
    rw [Registration.clock, Registration.second, sysmngrGetUptime_text]
  rw [calculateBootTime, hsecond]
  exact readIso_strftimeIso 21 (by decide) r.second

/-- Every record that is kept carries the stamp of the last boot recorded under its name, and
tells its second exactly when this is in a year of four digits. -/
theorem records_tell_boot_seconds (named : Named) (es : List RecordEvent) :
    ∀ s ∈ (run recordStep ⟨named, []⟩ es).1.reboot,
      ∃ r, latest (run recordStep ⟨named, []⟩ es).2 s.name = some r ∧
        s.get "time_stamp" = calculateBootTime r.clock ∧
        (readIso (s.get "time_stamp") = some r.second ↔ fourDigitYears r.second) := by
  intro s hs
  obtain ⟨r, hlatest, hstamp⟩ := run_history recordStep Dated recordStep_dated ⟨named, []⟩ es []
    (fun s hs => absurd hs List.not_mem_nil) s hs
  refine ⟨r, hlatest, hstamp, ?_⟩
  rw [hstamp]
  exact calculateBootTime_read r

def bootedAt (seconds : Int64) (uptime : UptimeFile)
    (year : toInt ((gmtime (seconds.toInt - uptime.seconds)).year - 1900) =
      (gmtime (seconds.toInt - uptime.seconds)).year - 1900) : RecordEvent :=
  .boot ⟨Env.ok, seconds, seconds, uptime, [], "POR_RESET".toList, year⟩

def halfMinute : UptimeFile := ⟨30, "12 55.00\n".toList, by decide⟩

/-- The second boot is registered in the same second with a shorter uptime. -/
def sameSecond : List RecordEvent :=
  [bootedAt 1727037315 halfMinute (by decide), bootedAt 1727037315 ⟨20, [], by decide⟩ (by decide)]

def keptRecord : Section :=
  ⟨"reboot_1727037315".toList, [("time_stamp", "2024-09-22T20:34:55Z".toList),
    ("firmware_updated", "0".toList), ("cause", "LocalReboot".toList),
    ("reason", "POWER ON RESET".toList)]⟩

theorem records_tell_boot_seconds_sample :
    ∃ r, latest (run recordStep ⟨fun _ _ => none, []⟩ sameSecond).2 keptRecord.name = some r ∧
      keptRecord.get "time_stamp" = calculateBootTime r.clock ∧
      (readIso (keptRecord.get "time_stamp") = some r.second ↔ fourDigitYears r.second) :=
  records_tell_boot_seconds _ sameSecond keptRecord (by decide)

end Sysmngr.Reboots
