import Sysmngr.Fifo
import Sysmngr.Machine
import Sysmngr.Reboots.Model

/-!
# The reboot records are a bounded FIFO

The boot path makes room before it inserts, the setter trims afterwards, with two
loops of their own. Both are shown to trim one FIFO whose bound is the value of
MaxRebootEntries in force.
-/

namespace Sysmngr.Reboots
open Text Uci Machine

/-! ### What the model's operations do to the sections -/

def Env.ok : Env := ⟨fun _ => true, true, true, .clearing⟩

theorem deletePass_ok (n k : ℤ) (l : List Section) :
    deletePass Env.ok n k l = some (l.drop (n + 1 - k).toNat) := by
  induction l generalizing k with
  | nil => simp [deletePass]
  | cons s rest ih =>
    by_cases h : k ≤ n
    · have hd : (n + 1 - k).toNat = (n + 1 - (k + 1)).toNat + 1 := by omega
      have hdel : Env.ok.delete s.name = true := rfl
      simp only [deletePass, if_pos h, hdel, if_true]
      rw [hd, List.drop_succ_cons]
      exact ih (k + 1)
    · have hd : (n + 1 - k).toNat = 0 := by omega
      simp only [deletePass, if_neg h]
      rw [ih k, hd]
      rfl

theorem entryLimit_pos (v : ℤ) : 0 < entryLimit v := by
  unfold entryLimit REBOOT_MAX_ENTRIES
  split <;> omega

/-- The boot path leaves room for exactly one more record. -/
theorem deleteExcess_ok (l : List Section) (v : ℤ) :
    deleteExcessRebootSections Env.ok l v = l.drop (l.length + 1 - (entryLimit v).toNat) := by
  have hp := entryLimit_pos v
  unfold deleteExcessRebootSections
  by_cases h : (l.length : ℤ) - entryLimit v < 0
  · have hd : l.length + 1 - (entryLimit v).toNat = 0 := by omega
    simp only [if_pos h]
    rw [hd, List.drop_zero]
  · have hd : ((l.length : ℤ) - entryLimit v + 1 - 0).toNat =
        l.length + 1 - (entryLimit v).toNat := by omega
    simp only [if_neg h]
    rw [deletePass_ok, hd]
    rfl

theorem deleteEarliest_eq (n k : ℤ) (l : List Section) :
    deleteEarliest n k l = l.drop (n - k).toNat := by
  induction l generalizing k with
  | nil => simp [deleteEarliest]
  | cons s rest ih =>
    by_cases h : k < n
    · have hd : (n - k).toNat = (n - (k + 1)).toNat + 1 := by omega
      simp only [deleteEarliest, if_pos h]
      rw [hd, List.drop_succ_cons]
      exact ih (k + 1)
    · have hd : (n - k).toNat = 0 := by omega
      have hd' : (n - (k + 1)).toNat = 0 := by omega
      simp only [deleteEarliest, if_neg h]
      rw [ih (k + 1), hd, hd']
      rfl

def rebootRecord (cause : Option Str) (clk : Clock) (trigger reason : Str) : Section :=
  let s : Section := ⟨sectionName clk, []⟩
  let s := s.set "time_stamp" (calculateBootTime clk)
  let s := s.set "firmware_updated"
    (if trigger = "upgrade".toList then "1".toList else "0".toList)
  let s := s.set "cause"
    (if trigger = "defaultreset".toList then "FactoryReset".toList
      else snprintf 32 (cause.getD "LocalReboot".toList))
  s.set "reason" (bootReasonMessage trigger reason)

@[simp] theorem rebootRecord_name (cause : Option Str) (clk : Clock) (trigger reason : Str) :
    (rebootRecord cause clk trigger reason).name = sectionName clk := by
  simp only [rebootRecord, Section.set_name]

theorem createRebootSection_reboot (c : Config) (clk : Clock) (trigger reason : Str)
    (h : sectionName clk ∉ c.reboot.map Section.name) :
    (createRebootSection c clk trigger reason).reboot =
      c.reboot ++ [rebootRecord (c.named "reboots" "last_reboot_cause") clk trigger reason] := by
  have hset : ∀ (s : Section) (o : String) (v : Str), s.name = sectionName clk →
      setOption (c.reboot ++ [s]) (sectionName clk) o v = c.reboot ++ [s.set o v] := by
    intro s o v hs
    rw [← hs]
    exact setOption_append_last c.reboot s o v (by rw [hs]; exact h)
  have hadd := addSection_fresh _ _ h
  unfold createRebootSection rebootRecord
  by_cases ht : trigger = "defaultreset".toList
  · simp only [if_pos ht, hadd, hset, Section.set_name]
  · simp only [if_neg ht, Named.get, hadd, hset, Section.set_name]

theorem createRebootSection_named (c : Config) (clk : Clock) (trigger reason : Str) :
    (createRebootSection c clk trigger reason).named =
      if trigger = "defaultreset".toList then c.named
      else c.named.set "reboots" "last_reboot_cause" [] := by
  unfold createRebootSection
  by_cases ht : trigger = "defaultreset".toList
  · simp only [if_pos ht]
  · simp only [if_neg ht]

/-! ### Counting leaves the records alone -/

theorem incrementOptionCounter_named (c : Config) (o o' : String) (h : o' ≠ o) :
    (incrementOptionCounter c o).named "reboots" o' = c.named "reboots" o' := by
  simp [incrementOptionCounter, h]

theorem countBoot_named (c : Config) (trigger reason : Str) (o : String)
    (h : o ∉ ["boot_count", "curr_version_boot_count", "watchdog_boot_count",
      "cold_boot_count", "warm_boot_count"]) :
    (countBoot c trigger reason).named "reboots" o = c.named "reboots" o := by
  simp only [List.mem_cons, List.not_mem_nil, or_false, not_or] at h
  obtain ⟨h1, h2, h3, h4, h5⟩ := h
  unfold countBoot countReason countWatchdog countTrigger
  split <;> split <;> split <;>
    simp [incrementOptionCounter_named, resetOptionCounter, h1, h2, h3, h4, h5]

theorem countBoot_reboot (c : Config) (trigger reason : Str) :
    (countBoot c trigger reason).reboot = c.reboot := by
  unfold countBoot countReason countWatchdog countTrigger
  split <;> split <;> split <;> rfl

/-! ### The store the records implement -/

inductive Op where
  | boot (clk : Clock) (trigger reason : Str)
  | setMax (value : ℤ)
  | remove (name : Str)
  | removeAll
  deriving DecidableEq

def Op.bootSecond : Op → Option Int64
  | .boot clk _ _ => some clk.now
  | _ => none

def step (c : Config) (op : Op) : Config × List Section :=
  let c := match op with
    | .boot clk trigger reason => registerBoot Env.ok c clk trigger reason
    | .setMax value => setDeviceInfoRebootsMaxRebootEntries c value
    | .remove name => operateDeviceInfoRebootsRebootRemove c name
    | .removeAll => operateDeviceInfoRebootsRemoveAllReboots c
  (c, c.reboot)

/-- What the component is for: a FIFO of records with a bound that can be set,
and the cause pending for the next record. -/
structure Store where
  setting : Option ℤ
  cause : Option Str
  records : List Section

def bound : Option ℤ → ℕ
  | none => 3
  | some v => if v = 0 then 0 else if v > 0 then v.toNat else 32

def Store.step (s : Store) (op : Op) : Store × List Section :=
  let s := match op with
    | .boot clk trigger reason =>
      if bound s.setting = 0 then s
      else
        { s with
          cause := if trigger = "defaultreset".toList then s.cause else none
          records := Fifo.push (bound s.setting) s.records
            (rebootRecord s.cause clk trigger reason) }
    | .setMax value =>
      { s with setting := some value, records := Fifo.trim (bound (some value)) s.records }
    | .remove name => { s with records := deleteSection s.records name }
    | .removeAll => { s with records := [] }
  (s, s.records)

def settingOf (c : Config) : Option ℤ :=
  (c.named "reboots" "max_reboot_entries").map fun t => toInt (strtol (snprintf 16 t))

def storeOf (c : Config) : Store :=
  ⟨settingOf c, c.named "reboots" "last_reboot_cause", c.reboot⟩

theorem maxRebootEntries_eq (c : Config) : maxRebootEntries c = (settingOf c).getD 3 := by
  unfold maxRebootEntries settingOf Named.get
  cases c.named "reboots" "max_reboot_entries" with
  | none => decide
  | some t => rfl

theorem bound_getD (v : Option ℤ) (h : v.getD 3 ≠ 0) :
    bound v = (entryLimit (v.getD 3)).toNat ∧ bound v ≠ 0 := by
  cases v with
  | none => decide
  | some v =>
    have hv : v ≠ 0 := h
    simp only [bound, if_neg hv, entryLimit, REBOOT_MAX_ENTRIES, Option.getD_some]
    split <;> omega

theorem bound_eq_zero (v : Option ℤ) : bound v = 0 ↔ v.getD 3 = 0 := by
  constructor
  · intro hb
    by_contra h
    exact (bound_getD v h).2 hb
  · intro h
    cases v with
    | none => exact absurd h (by decide)
    | some v =>
      have hv : v = 0 := h
      simp only [bound, if_pos hv]

theorem settingOf_congr (c d : Config)
    (h : c.named "reboots" "max_reboot_entries" = d.named "reboots" "max_reboot_entries") :
    settingOf c = settingOf d := by
  simp only [settingOf, h]

theorem createRebootSection_store (c : Config) (clk : Clock) (trigger reason : Str)
    (h : sectionName clk ∉ c.reboot.map Section.name) :
    storeOf (createRebootSection c clk trigger reason) =
      ⟨settingOf c,
        if trigger = "defaultreset".toList then c.named "reboots" "last_reboot_cause" else none,
        c.reboot ++ [rebootRecord (c.named "reboots" "last_reboot_cause") clk trigger reason]⟩ := by
  have hnamed := createRebootSection_named c clk trigger reason
  have hset : settingOf (createRebootSection c clk trigger reason) = settingOf c := by
    apply settingOf_congr
    rw [hnamed]
    split <;> simp
  have hcause : (createRebootSection c clk trigger reason).named "reboots" "last_reboot_cause" =
      if trigger = "defaultreset".toList then c.named "reboots" "last_reboot_cause" else none := by
    rw [hnamed]
    split
    · rfl
    · simp [Named.set]
  rw [storeOf, hset, hcause, createRebootSection_reboot c clk trigger reason h]

theorem registerBoot_store (c : Config) (clk : Clock) (trigger reason : Str)
    (h : sectionName clk ∉ c.reboot.map Section.name) :
    storeOf (registerBoot Env.ok c clk trigger reason) =
      ((storeOf c).step (.boot clk trigger reason)).1 := by
  have hmax := countBoot_named c trigger reason "max_reboot_entries" (by decide)
  have hcause := countBoot_named c trigger reason "last_reboot_cause" (by decide)
  have hset : settingOf (countBoot c trigger reason) = settingOf c := settingOf_congr _ _ hmax
  unfold registerBoot recordBoot
  rw [maxRebootEntries_eq, hset]
  by_cases hz : (settingOf c).getD 3 = 0
  · have hb : bound (storeOf c).setting = 0 := (bound_eq_zero _).mpr hz
    rw [if_neg (not_not.mpr hz)]
    simp only [Store.step, if_pos hb]
    rw [storeOf, storeOf, hset, hcause, countBoot_reboot]
  · have hb := bound_getD (settingOf c) hz
    have hb' : bound (storeOf c).setting ≠ 0 := hb.2
    rw [if_pos hz, countBoot_reboot, deleteExcess_ok]
    have hfresh : sectionName clk ∉ ((c.reboot.drop (c.reboot.length + 1 -
        (entryLimit ((settingOf c).getD 3)).toNat)).map Section.name) := by
      intro hm
      obtain ⟨s, hs, hn⟩ := List.mem_map.mp hm
      exact h (List.mem_map.mpr ⟨s, List.mem_of_mem_drop hs, hn⟩)
    have hpush := Fifo.push_eq_drop_append (bound (settingOf c)) c.reboot
      (rebootRecord (c.named "reboots" "last_reboot_cause") clk trigger reason) (by omega)
    rw [hb.1] at hpush
    rw [createRebootSection_store _ clk trigger reason hfresh]
    simp only [Store.step, if_neg hb']
    simp only [storeOf, hcause, hb.1, hpush]
    congr 1

theorem setMax_store (c : Config) (v : ℤ)
    (h : checkDeviceInfoRebootsMaxRebootEntries v = true) :
    storeOf (setDeviceInfoRebootsMaxRebootEntries c v) = ((storeOf c).step (.setMax v)).1 := by
  obtain ⟨hlo, hhi⟩ := of_decide_eq_true h
  have hread : toInt (strtol (printInt v)) = v := by
    rw [strtol_printInt v (by omega) (by omega)]
    exact toInt_of_mem v (by omega) hhi
  have hback := strtol_snprintf_int v (by omega) hhi
  have hne : printInt v ≠ [] := by
    intro he
    rw [he] at hread
    have h0 : v = 0 := by rw [← hread]; decide
    rw [h0] at he
    exact absurd he (by decide)
  have hkept : (if v = 0 then [] else
      if (c.reboot.length : ℤ) - entryLimit v > 0 then
        deleteEarliest ((c.reboot.length : ℤ) - entryLimit v) 0 c.reboot else c.reboot) =
      Fifo.trim (bound (some v)) c.reboot := by
    by_cases hv : v = 0
    · simp only [if_pos hv, bound, Fifo.trim_zero]
    · have hb := (bound_getD (some v) hv).1
      have hp := entryLimit_pos v
      rw [if_neg hv, hb, deleteEarliest_eq]
      simp only [Option.getD_some, Fifo.trim]
      split
      · congr 1
        omega
      · have hz : c.reboot.length - (entryLimit v).toNat = 0 := by omega
        rw [hz, List.drop_zero]
  simp only [setDeviceInfoRebootsMaxRebootEntries, Store.step, storeOf, settingOf, hread, hkept,
    Named.set_self _ _ _ _ hne, Option.map_some, hback]
  simp

/-! ### Whole histories -/

/-- What an operation needs of the state it meets: a new section name for a boot,
a value that passes its check for a write. -/
def Op.Fits (c : Config) : Op → Prop
  | .boot clk _ _ => sectionName clk ∉ c.reboot.map Section.name
  | .setMax value => checkDeviceInfoRebootsMaxRebootEntries value = true
  | _ => True

theorem step_store (c : Config) (op : Op) (h : op.Fits c) :
    storeOf (step c op).1 = ((storeOf c).step op).1 := by
  cases op with
  | boot clk trigger reason => exact registerBoot_store c clk trigger reason h
  | setMax value => exact setMax_store c value h
  | remove name => rfl
  | removeAll => rfl

theorem sectionName_injective (a b : Clock) (h : sectionName a = sectionName b) :
    a.now = b.now := by
  have hcut : ∀ k : Clock, sectionName k = "reboot_".toList ++ printInt k.now.toInt := by
    intro k
    have hlo := Int64.le_toInt k.now
    have hhi := Int64.toInt_lt k.now
    have hlen : (printInt k.now.toInt).length ≤ 20 := printInt_length_le _ 19 (by decide) (by omega)
    apply snprintf_of_le
    simp only [List.length_append]
    have h7 : "reboot_".toList.length = 7 := rfl
    omega
  rw [hcut a, hcut b] at h
  exact Int64.toInt_inj.mp (printInt_injective (List.append_cancel_left h))

/-- A record found after an operation was there before, or is the boot's own. -/
theorem step_names (c : Config) (op : Op) (h : op.Fits c) :
    ∀ n ∈ (step c op).1.reboot.map Section.name,
      n ∈ c.reboot.map Section.name ∨ ∃ clk, op.bootSecond = some clk.now ∧ n = sectionName clk := by
  have hs : (step c op).1.reboot = ((storeOf c).step op).1.records :=
    congrArg Store.records (step_store c op h)
  rw [hs]
  intro n hn
  obtain ⟨s, hm, rfl⟩ := List.mem_map.mp hn
  have old : s ∈ c.reboot → s.name ∈ c.reboot.map Section.name :=
    fun hc => List.mem_map.mpr ⟨s, hc, rfl⟩
  cases op with
  | boot clk trigger reason =>
    simp only [Store.step] at hm
    split at hm
    · exact Or.inl (old hm)
    · have hsub := (Fifo.push_suffix _ _ _).subset hm
      simp only [List.mem_append, List.mem_singleton] at hsub
      rcases hsub with hsub | hsub
      · exact Or.inl (old hsub)
      · exact Or.inr ⟨clk, rfl, by rw [hsub, rebootRecord_name]⟩
  | setMax value => exact Or.inl (old ((Fifo.trim_suffix _ _).subset hm))
  | remove name => exact Or.inl (old ((deleteSection_sublist _ _).subset hm))
  | removeAll => simp [Store.step] at hm

theorem along_fits (c : Config) (ops : List Op)
    (hnames : ∀ clk, sectionName clk ∈ c.reboot.map Section.name →
      clk.now ∉ ops.filterMap Op.bootSecond)
    (hclk : (ops.filterMap Op.bootSecond).Nodup)
    (hval : ∀ v, Op.setMax v ∈ ops → checkDeviceInfoRebootsMaxRebootEntries v = true) :
    Along step (fun c op => op.Fits c) c ops := by
  induction ops generalizing c with
  | nil => trivial
  | cons op ops ih =>
    have hfit : op.Fits c := by
      cases op with
      | boot clk trigger reason =>
        intro hm
        exact hnames clk hm (by simp [Op.bootSecond])
      | setMax value => exact hval value (List.mem_cons_self ..)
      | remove name => trivial
      | removeAll => trivial
    refine ⟨hfit, ih (step c op).1 ?_ ?_ fun v hv => hval v (List.mem_cons_of_mem _ hv)⟩
    · intro clk hm hlater
      have hin : ∀ t ∈ ops.filterMap Op.bootSecond, t ∈ (op :: ops).filterMap Op.bootSecond := by
        intro t ht
        rw [List.filterMap_cons]
        split
        · exact ht
        · exact List.mem_cons_of_mem _ ht
      rcases step_names c op hfit _ hm with hold | ⟨clk', hop, hn⟩
      · exact hnames clk hold (hin _ hlater)
      · have hsame := sectionName_injective clk clk' hn
        rw [List.filterMap_cons, hop] at hclk
        exact (List.nodup_cons.mp hclk).1 (hsame ▸ hlater)
    · rw [List.filterMap_cons] at hclk
      split at hclk
      · exact hclk
      · exact (List.nodup_cons.mp hclk).2

/-- The number of records never exceeds the bound in force. -/
def Bounded (c : Config) : Prop := c.reboot.length ≤ bound (settingOf c)

theorem step_bounded (c : Config) (op : Op) (hb : Bounded c) (h : op.Fits c) :
    Bounded (step c op).1 := by
  have hs := step_store c op h
  have hlen : (step c op).1.reboot = ((storeOf c).step op).1.records := congrArg Store.records hs
  have hset : settingOf (step c op).1 = ((storeOf c).step op).1.setting :=
    congrArg Store.setting hs
  unfold Bounded
  rw [hlen, hset]
  cases op with
  | boot clk trigger reason =>
    simp only [Store.step]
    split
    · exact hb
    · exact Fifo.push_length_le _ _ _
  | setMax value => exact Fifo.trim_length_le _ _
  | remove name => exact (deleteSection_sublist _ _).length_le.trans hb
  | removeAll => exact Nat.zero_le _

/-- After a boot or a write the newest records are left, in their order. -/
def Survivors (c : Config) (op : Op) : Prop :=
  match op with
  | .boot clk trigger reason => (step c op).1.reboot <:+
      c.reboot ++ [rebootRecord (c.named "reboots" "last_reboot_cause") clk trigger reason]
  | .setMax _ => (step c op).1.reboot <:+ c.reboot
  | _ => True

theorem step_survivors (c : Config) (op : Op) (hb : Bounded c) (h : op.Fits c) :
    Survivors c op := by
  have hs : (step c op).1.reboot = ((storeOf c).step op).1.records :=
    congrArg Store.records (step_store c op h)
  cases op with
  | boot clk trigger reason =>
    simp only [Survivors, hs, Store.step]
    split
    · rename_i hz
      have hnil : c.reboot = [] := List.eq_nil_of_length_eq_zero (by
        unfold Bounded at hb
        have hz' : bound (settingOf c) = 0 := hz
        omega)
      simp only [storeOf, hnil]
      exact List.nil_suffix
    · exact Fifo.push_suffix _ _ _
  | setMax value =>
    simp only [Survivors, hs, Store.step]
    exact Fifo.trim_suffix _ _
  | remove name => trivial
  | removeAll => trivial

/-- The sections of type `reboot` are, after every operation of every history, the
records of the bounded FIFO. -/
theorem reboot_sections_fifo (c : Config) (ops : List Op) (h0 : c.reboot = [])
    (hclk : (ops.filterMap Op.bootSecond).Nodup)
    (hval : ∀ v, Op.setMax v ∈ ops → checkDeviceInfoRebootsMaxRebootEntries v = true) :
    (run step c ops).2 = (run Store.step (storeOf c) ops).2 ∧
      storeOf (run step c ops).1 = (run Store.step (storeOf c) ops).1 ∧
      Bounded (run step c ops).1 ∧ Along step Survivors c ops := by
  have hfits := along_fits c ops (by simp [h0]) hclk hval
  have hb0 : Bounded c := by simp [Bounded, h0]
  have hsim := run_simulates step Store.step (fun c s => storeOf c = s) id id
    (fun c op => op.Fits c)
    (by
      rintro c s op rfl hop
      have hs := step_store c op hop
      exact ⟨hs, congrArg Store.records hs⟩)
    c (storeOf c) ops rfl hfits
  rw [List.map_id, List.map_id] at hsim
  exact ⟨hsim.2, hsim.1,
    run_invariant step (fun c op => op.Fits c) Bounded step_bounded c ops hb0 hfits,
    along_of_invariant step (fun c op => op.Fits c) Survivors Bounded step_bounded step_survivors
      c ops hb0 hfits⟩

def sampleOps : List Op :=
  [.boot ⟨100, 100, 7⟩ "upgrade".toList [], .boot ⟨200, 200, 7⟩ [] "POR_RESET".toList,
    .setMax 1, .boot ⟨50, 50, 7⟩ "defaultreset".toList [], .setMax (-1),
    .boot ⟨60, 60, 7⟩ [] [], .remove "reboot_50".toList, .setMax 0,
    .boot ⟨70, 70, 7⟩ [] []]

theorem reboot_sections_fifo_sample :
    (run step Config.empty sampleOps).2 =
        (run Store.step (storeOf Config.empty) sampleOps).2 ∧
      storeOf (run step Config.empty sampleOps).1 =
        (run Store.step (storeOf Config.empty) sampleOps).1 ∧
      Bounded (run step Config.empty sampleOps).1 ∧
      Along step Survivors Config.empty sampleOps :=
  reboot_sections_fifo Config.empty sampleOps rfl (by decide) (by
    intro v hv
    simp only [sampleOps, List.mem_cons, Op.setMax.injEq, reduceCtorEq, List.not_mem_nil,
      false_or, or_false] at hv
    rcases hv with rfl | rfl | rfl <;> decide)

end Sysmngr.Reboots
