import Sysmngr.Processes.Instances

/-!
# Refreshes that fail

The old list is freed before `/proc` is opened, and only a scan that is completed sets
the count and announces its change. A refresh that ends before leaves the list it has
come to next to the count, and the announced instances, of the list before.
-/

namespace Sysmngr.Processes
open Text Uci Machine Changes

/-! ### In step -/

/-- The count is the length of the list, and the changes announced since the list of
`start` entries lead to the instances it has. -/
structure InStep (start : ℕ) (c : ProcessCtx) (outputs : List (List Effect)) : Prop where
  count : c.processNum = c.list.length
  announced : replay (instances start) (announcements outputs.flatten) =
    some (instances c.list.length)

/-- The refresh reaches the end of `/proc` and does not find entries where none were
counted, or it ends before with as many as were. -/
def KeepsInStep (c : ProcessCtx) (proc : Option Proc) : Prop :=
  match proc with
  | none => c.processNum = 0
  | some p =>
    if (scanProcesses p.dirents).2 then
      c.processNum ≠ 0 ∨ (scanProcesses p.dirents).1.length = 0
    else c.processNum = (scanProcesses p.dirents).1.length

/-- The same for the first refresh, whose list is not announced. -/
def StartsInStep (proc : Option Proc) : Prop :=
  match proc with
  | none => True
  | some p => (scanProcesses p.dirents).2 = true ∨ (scanProcesses p.dirents).1.length = 0

def Bounded (c : ProcessCtx) : Prop := c.list.length < 2 ^ 31

theorem instances_succ_ne (n : ℕ) : instances (n + 1) ≠ instances 0 := by
  intro heq
  have hmem : processPath (1 : ℕ) ∈ instances (n + 1) :=
    Finset.mem_image.mpr ⟨1, Finset.mem_Icc.mpr ⟨Nat.le_refl 1, by omega⟩, rfl⟩
  rw [heq] at hmem
  simp [instances, firsts] at hmem

/-! ### One refresh -/

theorem refresh_bounded (c : ProcessCtx) (proc : Option Proc) :
    Bounded (runRefreshProcessList c proc).1 := by
  unfold Bounded
  rw [refresh_list]
  cases proc with
  | none => decide
  | some p => exact scan_length_lt p

theorem refresh_early (c : ProcessCtx) (proc : Option Proc)
    (h : ∀ p, proc = some p → (scanProcesses p.dirents).2 = false) :
    (runRefreshProcessList c proc).1.processNum = c.processNum ∧
      announcements (runRefreshProcessList c proc).2 = [] := by
  cases proc with
  | none =>
    unfold runRefreshProcessList
    rw [announcements_append, announcements_timeout]
    exact ⟨rfl, rfl⟩
  | some p =>
    simp only [runRefreshProcessList, initProcessList, h p rfl, Bool.not_false, if_true]
    rw [announcements_append, announcements_timeout]
    exact ⟨rfl, rfl⟩

/-! ### Runs -/

theorem inStep_append_iff (start : ℕ) (c c' : ProcessCtx) (outputs : List (List Effect))
    (out : List Effect) (h : InStep start c outputs) :
    InStep start c' (outputs ++ [out]) ↔ c'.processNum = c'.list.length ∧
      replay (instances c.list.length) (announcements out) = some (instances c'.list.length) := by
  have hreplay : replay (instances start) (announcements (outputs ++ [out]).flatten) =
      replay (instances c.list.length) (announcements out) := by
    rw [List.flatten_append, List.flatten_singleton, announcements_append, replay_append,
      h.announced, Option.bind_some]
  constructor
  · intro hstep
    exact ⟨hstep.count, hreplay.symm.trans hstep.announced⟩
  · rintro ⟨hcount, hannounced⟩
    exact ⟨hcount, hreplay.trans hannounced⟩

theorem step_inStep_iff (start : ℕ) (c : ProcessCtx) (proc : Option Proc)
    (outputs : List (List Effect)) (hb : Bounded c) (h : InStep start c outputs) :
    InStep start (runRefreshProcessList c proc).1 (outputs ++ [(runRefreshProcessList c proc).2]) ↔
      KeepsInStep c proc := by
  rw [inStep_append_iff start c _ outputs _ h, refresh_list]
  have hcount := h.count
  have hzero : c.processNum = 0 ↔ c.list.length = 0 := by omega
  cases proc with
  | none =>
    obtain ⟨hnum, hnothing⟩ := refresh_early c none fun p hp => absurd hp (by simp)
    rw [hnum, hnothing]
    constructor
    · exact fun hkeeps => hkeeps.1
    · intro hnone
      rw [hzero.mp hnone]
      exact ⟨hnone, rfl⟩
  | some p =>
    simp only [KeepsInStep, Option.map_some, Option.getD_some]
    cases hdone : (scanProcesses p.dirents).2 with
    | false =>
      obtain ⟨hnum, hnothing⟩ := refresh_early c (some p) fun q hq => by
        rw [← Option.some.inj hq]
        exact hdone
      rw [hnum, hnothing, if_neg (by decide)]
      constructor
      · exact fun hkeeps => hkeeps.1
      · intro hsame
        refine ⟨hsame, ?_⟩
        have heq : c.list.length = (scanProcesses p.dirents).1.length := by omega
        rw [heq]
        rfl
    | true =>
      rw [if_pos rfl]
      by_cases hnone : c.processNum = 0
      · -- nothing is announced, so only an empty list is in step
        obtain ⟨hnum, hnothing⟩ := refresh_first c p hdone hnone
        rw [hnum, hnothing, hzero.mp hnone]
        constructor
        · rintro ⟨-, hempty⟩
          right
          cases hlen : (scanProcesses p.dirents).1.length with
          | zero => rfl
          | succ n =>
            rw [hlen] at hempty
            exact absurd (Option.some.inj hempty).symm (instances_succ_ne n)
        · rintro (hno | hempty)
          · exact absurd hnone hno
          · rw [hempty]
            exact ⟨rfl, rfl⟩
      · obtain ⟨hnum, hreplay⟩ :=
          refresh_complete c p hdone c.list.length (by omega) hb hcount
        exact iff_of_true ⟨hnum, hreplay⟩ (Or.inl hnone)

theorem init_inStep_iff (uci : Named) (first : Option Proc) :
    InStep (sysmngrProcessInit uci first).1.list.length (sysmngrProcessInit uci first).1 [] ↔
      StartsInStep first := by
  have hreplay : ∀ n, replay (instances n) (announcements ([] : List (List Effect)).flatten) =
    some (instances n) := fun _ => rfl
  have hinit : InStep (sysmngrProcessInit uci first).1.list.length
      (sysmngrProcessInit uci first).1 [] ↔
        (sysmngrProcessInit uci first).1.processNum =
          (sysmngrProcessInit uci first).1.list.length :=
    ⟨InStep.count, fun h => ⟨h, hreplay _⟩⟩
  rw [hinit, sysmngrProcessInit, refresh_list]
  cases first with
  | none => exact iff_of_true rfl trivial
  | some p =>
    simp only [StartsInStep, Option.map_some, Option.getD_some]
    cases hdone : (scanProcesses p.dirents).2 with
    | false =>
      obtain ⟨hnum, -⟩ := refresh_early ⟨[], getInstanceRefreshInterval uci, 0⟩ (some p)
        fun q hq => by
          rw [← Option.some.inj hq]
          exact hdone
      have hfalse : ¬false = true := by decide
      rw [hnum, or_iff_right hfalse]
      change (0 : ℤ) = (scanProcesses p.dirents).1.length ↔ _
      omega
    | true =>
      obtain ⟨hnum, -⟩ := refresh_first ⟨[], getInstanceRefreshInterval uci, 0⟩ p hdone rfl
      exact iff_of_true hnum (Or.inl rfl)

/-- The count and the announced instances are those of the list after the first refresh
and every later one exactly when the first starts in step and each later one, on what
it finds, stays so. -/
theorem runs_inStep_iff (uci : Named) (first : Option Proc) (scans : List (Option Proc)) :
    (∀ pre, pre <+: scans →
        InStep (sysmngrProcessInit uci first).1.list.length
          (run runRefreshProcessList (sysmngrProcessInit uci first).1 pre).1
          (run runRefreshProcessList (sysmngrProcessInit uci first).1 pre).2) ↔
      StartsInStep first ∧
        Along runRefreshProcessList KeepsInStep (sysmngrProcessInit uci first).1 scans := by
  rw [← init_inStep_iff uci first]
  exact kept_iff runRefreshProcessList Bounded
    (InStep (sysmngrProcessInit uci first).1.list.length) KeepsInStep
    (fun c proc _ => refresh_bounded c proc)
    (fun c proc outputs hb h => step_inStep_iff _ c proc outputs hb h) _ scans []
    (refresh_bounded _ first)

/-- `/proc` does not open in a refresh after a list of two. -/
theorem unopened_directory_out_of_step :
    ¬∀ (uci : Named) (first : Option Proc) (scans : List (Option Proc)),
      InStep (sysmngrProcessInit uci first).1.list.length
        (run runRefreshProcessList (sysmngrProcessInit uci first).1 scans).1
        (run runRefreshProcessList (sysmngrProcessInit uci first).1 scans).2 := by
  intro hall
  have h := hall (fun _ _ => none) (some (sampleProc 2 (by decide))) [none]
  exact absurd h.count (by decide)

end Sysmngr.Processes
