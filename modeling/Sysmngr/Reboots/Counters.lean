import Sysmngr.Reboots.Registration

/-!
# What the boot counters count

The cold, warm and watchdog counters run over the life of the configuration, the
two others restart at a factory reset. An upgrade restarts none of them.
-/

namespace Sysmngr.Reboots
open Text Uci Machine

/-- One registered boot: what registering depends on and the markers it reads. -/
structure Boot where
  env : Env
  clk : Clock
  trigger : Str
  reason : Str

def Boot.markers (b : Boot) : Str × Str := (b.trigger, b.reason)

def registerBoots (c : Config) (boots : List Boot) : Config :=
  boots.foldl (fun c b => registerBoot b.env c b.clk b.trigger b.reason) c

theorem registerBoots_tallied (c : Config) (boots : List Boot) (l : List (Str × Str))
    (h : Tallied c l) : Tallied (registerBoots c boots) (l ++ boots.map Boot.markers) := by
  induction boots generalizing c l with
  | nil =>
    rw [List.map_nil, List.append_nil]
    exact h
  | cons b boots ih =>
    have := ih _ _ (registerBoot_tallied b.env c b.clk l b.markers h)
    rwa [List.append_assoc] at this

theorem registerBoots_counts (c : Config) (boots : List Boot) (hc : WithoutCounters c) :
    Tallied (registerBoots c boots) (boots.map Boot.markers) :=
  registerBoots_tallied c boots [] (tallied_nil c hc)

/-! ### Boots since the last factory reset -/

theorem bootsFromReset_le_length (l : List (Str × Str)) : bootsFromReset l ≤ l.length := by
  induction l using List.reverseRecOn with
  | nil => exact Nat.le_refl 0
  | append_singleton l p ih =>
    rw [bootsFromReset_append, List.length_append, List.length_singleton]
    split <;> omega

/-- The first boot counts as one since the reset whether it is a reset or not. -/
theorem bootsFromReset_eq_length (p : Str × Str) (l : List (Str × Str))
    (h : ∀ q ∈ l, isReset q = false) : bootsFromReset (p :: l) = (p :: l).length := by
  induction l using List.reverseRecOn with
  | nil =>
    have hone := bootsFromReset_append [] p
    rw [List.nil_append] at hone
    rw [hone]
    split <;> rfl
  | append_singleton l q ih =>
    have hq := h q (by simp)
    rw [← List.cons_append, bootsFromReset_append, if_neg (by simp [hq]),
      ih fun r hr => h r (List.mem_append_left _ hr), List.length_append, List.length_singleton]

theorem bootsAfterReset_append_list (l m : List (Str × Str)) (h : ∀ p ∈ m, isReset p = false) :
    bootsAfterReset (l ++ m) = bootsAfterReset l + m.length := by
  induction m using List.reverseRecOn with
  | nil => simp
  | append_singleton m p ih =>
    have hp := h p (by simp)
    rw [← List.append_assoc, bootsAfterReset_append, if_neg (by simp [hp]),
      ih fun q hq => h q (List.mem_append_left _ hq), List.length_append, List.length_singleton]
    omega

theorem coldBoots_add_warmBoots (l : List (Str × Str)) : coldBoots l + warmBoots l = l.length := by
  induction l using List.reverseRecOn with
  | nil => rfl
  | append_singleton l p ih =>
    rw [coldBoots_append, warmBoots_append, List.length_append, List.length_singleton]
    split <;> omega

/-! ### The counters against each other -/

/-- Cold and warm boots make up the boots, and watchdog boots are among them. -/
def InStep (c : Config) : Prop :=
  counterValue c "cold_boot_count" + counterValue c "warm_boot_count" =
      counterValue c "boot_count" ∧
    counterValue c "watchdog_boot_count" ≤ counterValue c "boot_count"

instance (c : Config) : Decidable (InStep c) := inferInstanceAs (Decidable (_ ∧ _))

/-- The counters over the life of the configuration, and the one since the reset. -/
structure Totals (c : Config) (boots : List Boot) : Prop where
  all : counterValue c "cold_boot_count" + counterValue c "warm_boot_count" = boots.length
  watchdog : counterValue c "watchdog_boot_count" ≤ boots.length
  boot : counterValue c "boot_count" = bootsFromReset (boots.map Boot.markers)

theorem registerBoots_totals (c : Config) (boots : List Boot) (hc : WithoutCounters c)
    (hlen : boots.length < 2 ^ 31) : Totals (registerBoots c boots) boots := by
  have htally := registerBoots_counts c boots hc
  have hall := coldBoots_add_warmBoots (boots.map Boot.markers)
  have hwatch : watchdogBoots (boots.map Boot.markers) ≤ (boots.map Boot.markers).length :=
    List.countP_le_length
  have hreset := bootsFromReset_le_length (boots.map Boot.markers)
  rw [List.length_map] at hall hwatch hreset
  have hcut : ∀ n : ℕ, n ≤ boots.length → toInt n = n := fun n hn =>
    toInt_of_mem n (by omega) (by omega)
  exact {
    all := by
      rw [htally.cold, htally.warm, hcut _ (by omega), hcut _ (by omega)]
      omega
    watchdog := by
      rw [htally.watchdog, hcut _ hwatch]
      omega
    boot := htally.boot.trans (hcut _ hreset) }

theorem inStep_iff (c : Config) (boots : List Boot) (h : Totals c boots) :
    InStep c ↔ bootsFromReset (boots.map Boot.markers) = boots.length := by
  obtain ⟨hall, hwatch, hboot⟩ := h
  unfold InStep
  rw [hall, hboot]
  omega

/-- Counted over the whole life, the cold, warm and watchdog counters stay in step
with the boot counter as long as no boot but the first is a factory reset. -/
theorem counters_in_step_iff (c : Config) (boots : List Boot) (hc : WithoutCounters c)
    (hlen : boots.length < 2 ^ 31) :
    Totals (registerBoots c boots) boots ∧
      ((∀ seen, seen <+: boots → InStep (registerBoots c seen)) ↔
        ∀ b ∈ boots.tail, b.trigger ≠ "defaultreset".toList) := by
  have hiff : ∀ seen, seen <+: boots →
      (InStep (registerBoots c seen) ↔
        bootsFromReset (seen.map Boot.markers) = seen.length) := fun seen hseen =>
    inStep_iff _ seen (registerBoots_totals c seen hc (hseen.length_le.trans_lt hlen))
  refine ⟨registerBoots_totals c boots hc hlen, ?_, ?_⟩
  · intro hstep b hb htrig
    obtain ⟨first, rest, rfl⟩ := List.exists_cons_of_ne_nil (List.ne_nil_of_mem
      (List.mem_of_mem_tail hb))
    obtain ⟨as, bs, rfl⟩ := List.append_of_mem hb
    -- right after the reset the boot counter is 1, and there were at least two boots
    have hseen : first :: as ++ [b] <+: first :: (as ++ b :: bs) := ⟨bs, by simp⟩
    have heq := (hiff _ hseen).mp (hstep _ hseen)
    have hreset : isReset b.markers = true := decide_eq_true htrig
    rw [List.map_append, List.map_singleton, bootsFromReset_append, if_pos hreset,
      List.length_append, List.length_cons] at heq
    simp at heq
  · intro hnone seen hseen
    rw [hiff seen hseen]
    cases seen with
    | nil => rfl
    | cons first xs =>
      obtain ⟨rest, rfl⟩ := hseen
      have hxs : ∀ q ∈ xs.map Boot.markers, isReset q = false := by
        intro q hq
        obtain ⟨b, hb, rfl⟩ := List.mem_map.mp hq
        exact decide_eq_false (hnone b (List.mem_append_left _ hb))
      have := bootsFromReset_eq_length first.markers _ hxs
      rwa [List.length_cons, List.length_map] at this

def powerOn : Boot := ⟨Env.ok, ⟨100, 100, 20⟩, [], "POR_RESET".toList⟩

def factoryReset : Boot := ⟨Env.ok, ⟨200, 200, 20⟩, "defaultreset".toList, []⟩

def upgraded : Boot := ⟨Env.ok, ⟨300, 300, 20⟩, "upgrade".toList, []⟩

theorem counters_in_step_sample :
    Totals (registerBoots Config.empty [factoryReset, powerOn, upgraded])
        [factoryReset, powerOn, upgraded] ∧
      ((∀ seen, seen <+: [factoryReset, powerOn, upgraded] →
          InStep (registerBoots Config.empty seen)) ↔
        ∀ b ∈ [factoryReset, powerOn, upgraded].tail, b.trigger ≠ "defaultreset".toList) :=
  counters_in_step_iff Config.empty _ withoutCounters_empty (by decide)

/-- A power-on boot and then a factory reset: two boots cold or warm, one counted. -/
theorem reset_leaves_cold_count :
    ¬InStep (registerBoots Config.empty [powerOn, factoryReset]) := by decide

/-! ### Boots since the last upgrade -/

/-- Markers from an upgrade on, with no upgrade or factory reset after it. -/
def FromUpgrade : List (Str × Str) → Prop
  | [] => False
  | p :: l => p.1 = "upgrade".toList ∧
      ∀ q ∈ l, q.1 ≠ "upgrade".toList ∧ q.1 ≠ "defaultreset".toList

instance (l : List (Str × Str)) : Decidable (FromUpgrade l) :=
  match l with
  | [] => isFalse id
  | _ :: _ => inferInstanceAs (Decidable (_ ∧ _))

theorem fromUpgrade_noReset (l : List (Str × Str)) (h : FromUpgrade l) :
    ∀ p ∈ l, isReset p = false := by
  cases l with
  | nil => exact h.elim
  | cons p l =>
    intro q hq
    rcases List.mem_cons.mp hq with rfl | hq
    · rw [isReset, h.1]
      decide
    · exact decide_eq_false (h.2 q hq).2

/-- After the same boots from an upgrade on, the counter tells the boots before it
apart by how many there were since the last factory reset. -/
theorem currVersionBootCount_eq_iff (c d : Config) (before before' since since' : List Boot)
    (hc : WithoutCounters c) (hd : WithoutCounters d)
    (hsame : since.map Boot.markers = since'.map Boot.markers)
    (hup : FromUpgrade (since.map Boot.markers)) :
    counterValue (registerBoots c (before ++ since)) "curr_version_boot_count" =
        counterValue (registerBoots d (before' ++ since')) "curr_version_boot_count" ↔
      bootsAfterReset (before.map Boot.markers) % 2 ^ 32 =
        bootsAfterReset (before'.map Boot.markers) % 2 ^ 32 := by
  have hnone := fromUpgrade_noReset _ hup
  rw [(registerBoots_counts c _ hc).curr, (registerBoots_counts d _ hd).curr, toInt_eq_iff,
    List.map_append, List.map_append, ← hsame, bootsAfterReset_append_list _ _ hnone,
    bootsAfterReset_append_list _ _ hnone]
  omega

theorem currVersionBootCount_sample :
    counterValue (registerBoots Config.empty ([powerOn, factoryReset, powerOn] ++
        [upgraded, powerOn])) "curr_version_boot_count" =
      counterValue (registerBoots Config.empty ([upgraded] ++ [upgraded, powerOn]))
        "curr_version_boot_count" :=
  (currVersionBootCount_eq_iff Config.empty Config.empty [powerOn, factoryReset, powerOn]
    [upgraded] [upgraded, powerOn] [upgraded, powerOn] withoutCounters_empty
    withoutCounters_empty rfl (by decide)).mpr (by decide)

theorem upgrade_keeps_count :
    FromUpgrade ([upgraded].map Boot.markers) ∧
    counterValue (registerBoots Config.empty ([powerOn] ++ [upgraded])) "curr_version_boot_count" ≠
      counterValue (registerBoots Config.empty ([] ++ [upgraded])) "curr_version_boot_count" := by
  decide

end Sysmngr.Reboots
