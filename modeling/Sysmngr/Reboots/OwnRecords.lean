import Sysmngr.Reboots.Cause
import Sysmngr.Reboots.Counters

/-!
# A record for each boot

A record is named by the second in which its boot is registered. Without a clock that
keeps the time over a boot the name may be that of a record that is still there, and
the boot then writes over it.
-/

namespace Sysmngr.Reboots
open Text Uci Machine

/-- A registered boot, with the records it leaves. -/
def bootStep (c : Config) (b : Boot) : Config × List Section :=
  let next := registerBoot b.env c b.clk b.trigger b.reason
  (next, next.reboot)

/-- The records that are left when the boot writes its own. -/
def retained (c : Config) (b : Boot) : List Section :=
  deleteExcessRebootSections b.env c.reboot (maxRebootEntries c)

/-- The boot adds a record of its own and leaves the others as they are. -/
def AddsRecord (c : Config) (b : Boot) : Prop :=
  ∃ record, (bootStep c b).1.reboot = retained c b ++ [record] ∧
    record.name ∉ (retained c b).map Section.name

/-- No record that is left was made in the second of this boot. -/
def OwnSecond (c : Config) (b : Boot) : Prop :=
  sectionName b.clk ∉ (retained c b).map Section.name

instance (c : Config) (b : Boot) : Decidable (OwnSecond c b) :=
  inferInstanceAs (Decidable (_ ∉ _))

theorem bootStep_reboot (c : Config) (b : Boot) (hmax : maxRebootEntries c ≠ 0) :
    (bootStep c b).1.reboot =
      (createRebootSection { countBoot c b.trigger b.reason with reboot := retained c b }
        b.clk b.trigger b.reason).reboot := by
  have hcount := maxRebootEntries_countBoot c b.trigger b.reason
  have hreboot := countBoot_reboot c b.trigger b.reason
  simp only [bootStep, registerBoot, recordBoot, hcount, if_pos hmax, hreboot, retained]

theorem setOption_length (l : List Section) (name : Str) (option : String) (value : Str) :
    (setOption l name option value).length = l.length := List.length_map _

theorem createRebootSection_taken (c : Config) (clk : Clock) (trigger reason : Str)
    (h : sectionName clk ∈ c.reboot.map Section.name) :
    (createRebootSection c clk trigger reason).reboot.length = c.reboot.length := by
  have hany : (c.reboot.any fun s => s.name == sectionName clk) = true := by
    obtain ⟨s, hs, hname⟩ := List.mem_map.mp h
    exact List.any_eq_true.mpr ⟨s, hs, beq_iff_eq.mpr hname⟩
  have hadd : addSection c.reboot (sectionName clk) = c.reboot := if_pos hany
  unfold createRebootSection
  by_cases ht : trigger = "defaultreset".toList
  · simp only [if_pos ht, hadd, setOption_length]
  · simp only [if_neg ht, hadd, setOption_length]

theorem addsRecord_iff (c : Config) (b : Boot) (hmax : maxRebootEntries c ≠ 0) :
    AddsRecord c b ↔ OwnSecond c b := by
  have hreboot := bootStep_reboot c b hmax
  constructor
  · rintro ⟨record, hadded, -⟩ htaken
    have hsame := createRebootSection_taken
      { countBoot c b.trigger b.reason with reboot := retained c b } b.clk b.trigger b.reason htaken
    rw [← hreboot, hadded, List.length_append, List.length_singleton] at hsame
    exact absurd hsame (Nat.succ_ne_self _)
  · intro hown
    refine ⟨_, hreboot.trans (createRebootSection_reboot _ b.clk b.trigger b.reason hown), ?_⟩
    rw [rebootRecord_name]
    exact hown

theorem bootStep_maxRebootEntries (c : Config) (b : Boot) :
    maxRebootEntries (bootStep c b).1 = maxRebootEntries c := by
  have hcount := maxRebootEntries_countBoot c b.trigger b.reason
  simp only [bootStep, registerBoot, recordBoot]
  split
  · rw [← hcount]
    simp only [maxRebootEntries, Named.get, createRebootSection_named]
    split
    · rfl
    · rw [Named.set_other _ _ _ _ _ _ (by decide)]
  · exact hcount

/-- In a run of boots each has its own record exactly when at each no record that is left
was made in the same second. -/
theorem boots_own_records_iff (c : Config) (boots : List Boot) (hmax : maxRebootEntries c ≠ 0) :
    Along bootStep AddsRecord c boots ↔ Along bootStep OwnSecond c boots :=
  along_iff_of_invariant bootStep AddsRecord OwnSecond (fun c => maxRebootEntries c ≠ 0)
    (fun c b h => by rwa [bootStep_maxRebootEntries]) addsRecord_iff c boots hmax

def bootAt (second : Int64) : Boot := ⟨Env.ok, ⟨second, second, 0⟩, [], "POR_RESET".toList⟩

theorem boots_own_records_sample :
    Along bootStep AddsRecord Config.empty
      [bootAt 50, bootAt 20, bootAt 30, bootAt 40, bootAt 50] :=
  (boots_own_records_iff Config.empty [bootAt 50, bootAt 20, bootAt 30, bootAt 40, bootAt 50]
    (by decide)).mpr (by decide)

theorem boots_share_record :
    ¬∀ (c : Config) (boots : List Boot), maxRebootEntries c ≠ 0 →
      Along bootStep AddsRecord c boots := by
  intro hall
  obtain ⟨-, ⟨record, hadded, -⟩, -⟩ := hall Config.empty [bootAt 50, bootAt 50] (by decide)
  have hone : (bootStep (bootStep Config.empty (bootAt 50)).1 (bootAt 50)).1.reboot.length = 1 ∧
      (retained (bootStep Config.empty (bootAt 50)).1 (bootAt 50)).length = 1 := by decide
  rw [hadded, List.length_append, List.length_singleton, hone.2] at hone
  exact absurd hone.1 (by decide)

end Sysmngr.Reboots
