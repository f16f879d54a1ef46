import Sysmngr.FwImages.Model

/-!
# Immediate activation against the switch it forks

`Activate()` without time windows forks `set_bootbank` and goes on; the script's
report reaches the daemon at some later point of the operation or after it. The
activate handler of the crontab waits for that report.
-/

namespace Sysmngr.FwImages
open Text Uci Blobmsg Fwbank

/-- What happens during and after an operation: its own effects, and the report of
the script it forked. -/
inductive Moment where
  | effect (e : Effect)
  | report (success : Bool)
  deriving DecidableEq

def reportOf (parse : Str → Option (List Attr)) (r : Reads) : Bool :=
  (fwbankSetBootbankFinishCallback parse r).next

/-- The operation's effects with the report at place `k`; without a fork there is no
report. -/
def interleave (effects : List Effect) (success : Bool) (k : ℕ) : List Moment :=
  if effects.any fun e => e matches .setBootbank _ then
    (effects.take k).map .effect ++ [.report success] ++ (effects.drop k).map .effect
  else effects.map .effect

/-- Copy and reboot come after a report of success, and without one the operation
returns a fault and starts no reboot. -/
structure WaitsForSwitch (fault : Option Fault) (moments : List Moment) : Prop where
  after : ∀ pre post e, moments = pre ++ .effect e :: post → e = .copyConfig ∨ e = .reboot →
    .report true ∈ pre
  otherwise : .report true ∉ moments → fault.isSome ∧ .effect .reboot ∉ moments

theorem parseWindows_none (api : Bbfdm) (value : Args)
    (h : (windowArgs value 0).start.length = 0) :
    parseWindows api value MAX_TIME_WINDOW 0 none = some [] := by
  simp only [MAX_TIME_WINDOW, parseWindows, if_pos h]

theorem activate_now (api : Bbfdm) (env : Env) (s : State) (entry : Attr) (value : Args)
    (h : (windowArgs value 0).start.length = 0) :
    operateDeviceInfoFirmwareImageActivate api env s entry value =
      if getFwbankOptionValue entry "id" = [] ∨ env.forkOk = false then
        (some .USP_FAULT_COMMAND_FAILURE, [])
      else
        (none, .setBootbank (bankNumber (getFwbankOptionValue entry "id")) ::
          ((if keepConfig s = "1".toList then [.copyConfig] else []) ++ [.reboot])) := by
  simp only [operateDeviceInfoFirmwareImageActivate, parseWindows_none api value h,
    List.length_nil, ne_eq, not_true_eq_false, if_false, List.length_eq_zero_iff]
  by_cases hid : getFwbankOptionValue entry "id" = []
  · rw [if_pos hid, if_pos (Or.inl hid)]
  · rw [if_neg hid]
    cases hf : env.forkOk with
    | false => simp only [fwbankSetBootbank, hf, Bool.false_eq_true, if_false, or_true, if_true]
    | true =>
      simp only [fwbankSetBootbank, hf, if_true, hid, Bool.true_eq_false, or_self, if_false,
        List.cons_append, List.nil_append]

theorem waits_of_refused : WaitsForSwitch (some .USP_FAULT_COMMAND_FAILURE) [] where
  after := fun pre post e heq => absurd heq.symm (by simp)
  otherwise := fun _ => ⟨rfl, List.not_mem_nil⟩

theorem report_not_mem (effects : List Effect) (b : Bool) :
    Moment.report b ∉ effects.map .effect := by
  intro h
  obtain ⟨_, _, heq⟩ := List.mem_map.mp h
  exact Moment.noConfusion heq

/-- A fork followed by the switch's further effects, reboot last: only a success
reported right after the fork comes before all of them. -/
theorem waits_of_forked (n : ℕ) (rest : List Effect) (success : Bool) (k : ℕ) (hk : 1 ≤ k)
    (hreboot : .reboot ∈ rest) (hrest : ∀ e ∈ rest, e = .copyConfig ∨ e = .reboot) :
    WaitsForSwitch none (interleave (.setBootbank n :: rest) success k) ↔
      success = true ∧ k = 1 := by
  obtain ⟨j, rfl⟩ : ∃ j, k = j + 1 := ⟨k - 1, by omega⟩
  have htrace : interleave (.setBootbank n :: rest) success (j + 1) =
      .effect (.setBootbank n) ::
        ((rest.take j).map .effect ++ .report success :: (rest.drop j).map .effect) := by
    simp [interleave]
  rw [htrace]
  constructor
  · intro h
    have hsuccess : success = true := by
      by_contra hne
      have hfalse : success = false := by simpa using hne
      have hnone : Moment.report true ∉ .effect (.setBootbank n) ::
          ((rest.take j).map .effect ++ .report success :: (rest.drop j).map .effect) := by
        simp only [List.mem_cons, reduceCtorEq, List.mem_append, Moment.report.injEq, hfalse,
          Bool.true_eq_false, false_or, not_or]
        exact ⟨report_not_mem _ _, report_not_mem _ _⟩
      have hno := (h.otherwise hnone).1
      simp at hno
    refine ⟨hsuccess, ?_⟩
    -- an effect before the report would come before every report
    cases j with
    | zero => rfl
    | succ j =>
      obtain ⟨e, tail, rfl⟩ := List.exists_cons_of_ne_nil (List.ne_nil_of_mem hreboot)
      have hpre := h.after [.effect (.setBootbank n)] _ e rfl (hrest e (List.mem_cons_self ..))
      simp at hpre
  · rintro ⟨rfl, hj⟩
    obtain rfl : j = 0 := by omega
    simp only [List.take_zero, List.map_nil, List.nil_append, List.drop_zero]
    refine ⟨?_, fun hno => absurd (by simp) hno⟩
    intro pre post e heq he
    rcases pre with _ | ⟨a, _ | ⟨b, pre⟩⟩
    · simp only [List.nil_append, List.cons.injEq, Moment.effect.injEq] at heq
      rcases he with rfl | rfl <;> simp at heq
    · simp at heq
    · simp only [List.cons_append, List.cons.injEq] at heq
      rw [← heq.2.1]
      exact List.mem_cons_of_mem _ (List.mem_cons_self ..)

/-- Immediate activation waits for the switch exactly when there is none, or when
success is reported before it goes on. -/
theorem activate_waits_iff (api : Bbfdm) (env : Env) (s : State) (entry : Attr) (value : Args)
    (parse : Str → Option (List Attr)) (r : Reads) (k : ℕ)
    (hnow : (windowArgs value 0).start.length = 0) (hk : 1 ≤ k) :
    WaitsForSwitch (operateDeviceInfoFirmwareImageActivate api env s entry value).1
        (interleave (operateDeviceInfoFirmwareImageActivate api env s entry value).2
          (reportOf parse r) k) ↔
      getFwbankOptionValue entry "id" = [] ∨ env.forkOk = false ∨
        (reportOf parse r = true ∧ k = 1) := by
  rw [activate_now api env s entry value hnow]
  by_cases hrefused : getFwbankOptionValue entry "id" = [] ∨ env.forkOk = false
  · rw [if_pos hrefused, ← or_assoc]
    exact ⟨fun _ => Or.inl hrefused, fun _ => waits_of_refused⟩
  · rw [if_neg hrefused, ← or_assoc, or_iff_right hrefused]
    refine waits_of_forked _ _ _ k hk (List.mem_append_right _ (List.mem_singleton_self _)) ?_
    intro e he
    rcases List.mem_append.mp he with he | he
    · split at he
      · exact Or.inl (List.mem_singleton.mp he)
      · exact absurd he (List.not_mem_nil)
    · exact Or.inr (List.mem_singleton.mp he)

/-! ### A switch that fails -/

def switchText (success : Bool) : Str :=
  "\x7b\"success\":".toList ++ (if success then "true".toList else "false".toList) ++ "\x7d".toList

def switchParse (text : Str) : Option (List Attr) :=
  if text = switchText true then some [.bool "success" true]
  else if text = switchText false then some [.bool "success" false]
  else none

theorem reportOf_switchText (success : Bool) :
    reportOf switchParse ⟨[switchText success], false⟩ = success := by
  have hread : setBootbankText ⟨[switchText success], false⟩ = some (switchText success) :=
    readOutput_eq [switchText success] (by
      intro c hc
      rw [List.mem_singleton.mp hc]
      cases success <;> decide)
  simp only [reportOf, fwbankSetBootbankFinishCallback, hread, Option.bind_some]
  cases success <;> rfl

def noArgs : Args := fun _ => []

theorem activate_waits_sample :
    WaitsForSwitch
      (operateDeviceInfoFirmwareImageActivate .plain .fine .fresh bankTwo noArgs).1
      (interleave (operateDeviceInfoFirmwareImageActivate .plain .fine .fresh bankTwo noArgs).2
        (reportOf switchParse ⟨[switchText true], false⟩) 1) :=
  (activate_waits_iff .plain .fine .fresh bankTwo noArgs switchParse ⟨[switchText true], false⟩ 1
    rfl (Nat.le_refl 1)).mpr (Or.inr (Or.inr ⟨reportOf_switchText true, rfl⟩))

theorem activate_reboots_after_failure :
    ¬∀ (api : Bbfdm) (env : Env) (s : State) (entry : Attr) (value : Args)
      (parse : Str → Option (List Attr)) (r : Reads) (k : ℕ),
      (windowArgs value 0).start.length = 0 → 1 ≤ k →
      WaitsForSwitch (operateDeviceInfoFirmwareImageActivate api env s entry value).1
        (interleave (operateDeviceInfoFirmwareImageActivate api env s entry value).2
          (reportOf parse r) k) := by
  intro hall
  have h := hall .plain .fine .fresh bankTwo noArgs switchParse ⟨[switchText false], false⟩ 1 rfl
    (Nat.le_refl 1)
  rw [reportOf_switchText] at h
  exact absurd (h.otherwise (by decide)).1 (by decide)

end Sysmngr.FwImages
