import Sysmngr.Reboots.Records

/-!
# The cause of a reboot record

A remote reboot leaves `last_reboot_cause` in the configuration for the boot that
follows. The boot takes it over when it writes a record, and a boot that writes
none, or one for a factory reset, leaves it to a later one.
-/

namespace Sysmngr.Reboots
open Text Uci Machine

/-- `_exec_reboot`: the cause is set before the reboot and emptied again when the
device is still running after both reboot calls. -/
def execReboot (c : Config) (rebooted : Bool) : Config :=
  let c := { c with named := c.named.set "reboots" "last_reboot_cause" "RemoteReboot".toList }
  if rebooted then c
  else { c with named := c.named.set "reboots" "last_reboot_cause" "".toList }

/-- The cause in the record a boot creates, if it creates one. -/
def createdCause (env : Env) (c : Config) (clk : Clock) (trigger reason : Str) : Option Str :=
  if maxRebootEntries (countBoot c trigger reason) ≠ 0 then
    (findSection (registerBoot env c clk trigger reason).reboot (sectionName clk)).map
      (Section.get · "cause")
  else none

/-! ### What a boot takes over -/

def lastRebootCause (c : Config) : Str :=
  c.named.get "reboots" "last_reboot_cause" "LocalReboot".toList 32

def Pending (c : Config) : Prop := lastRebootCause c = "RemoteReboot".toList

instance (c : Config) : Decidable (Pending c) :=
  inferInstanceAs (Decidable (lastRebootCause c = "RemoteReboot".toList))

theorem lastRebootCause_congr (c d : Config)
    (h : c.named "reboots" "last_reboot_cause" = d.named "reboots" "last_reboot_cause") :
    lastRebootCause c = lastRebootCause d := by
  simp only [lastRebootCause, Named.get, h]

theorem createRebootSection_cause (c : Config) (clk : Clock) (trigger reason : Str) :
    (findSection (createRebootSection c clk trigger reason).reboot (sectionName clk)).map
        (Section.get · "cause") =
      some (if trigger = "defaultreset".toList then "FactoryReset".toList
        else lastRebootCause c) := by
  obtain ⟨s, hs⟩ := findSection_addSection c.reboot (sectionName clk)
  unfold createRebootSection lastRebootCause
  by_cases ht : trigger = "defaultreset".toList
  · simp only [if_pos ht, findSection_setOption, hs, Option.map_some]
    rw [Section.get_set_other _ _ _ _ (by decide), Section.get_set_self]
  · simp only [if_neg ht, findSection_setOption, hs, Option.map_some]
    rw [Section.get_set_other _ _ _ _ (by decide), Section.get_set_self]

theorem maxRebootEntries_countBoot (c : Config) (trigger reason : Str) :
    maxRebootEntries (countBoot c trigger reason) = maxRebootEntries c := by
  have h := countBoot_named c trigger reason "max_reboot_entries" (by decide)
  simp only [maxRebootEntries, Named.get, h]

theorem lastRebootCause_countBoot (c : Config) (trigger reason : Str) :
    lastRebootCause (countBoot c trigger reason) = lastRebootCause c :=
  lastRebootCause_congr _ _ (countBoot_named c trigger reason "last_reboot_cause" (by decide))

/-- What a boot writes as the cause, over both of its branches. -/
theorem createdCause_eq (env : Env) (c : Config) (clk : Clock) (trigger reason : Str) :
    createdCause env c clk trigger reason =
      if maxRebootEntries c = 0 then none
      else some (if trigger = "defaultreset".toList then "FactoryReset".toList
        else lastRebootCause c) := by
  unfold createdCause registerBoot recordBoot
  rw [maxRebootEntries_countBoot]
  by_cases hm : maxRebootEntries c = 0
  · rw [if_neg (not_not.mpr hm), if_pos hm]
  · rw [if_pos hm, if_pos hm, if_neg hm, createRebootSection_cause,
      ← lastRebootCause_countBoot c trigger reason]
    rfl

/-- A boot takes the pending cause: it writes a record, and not for a factory reset. -/
def Takes (c : Config) (trigger : Str) : Prop :=
  maxRebootEntries c ≠ 0 ∧ trigger ≠ "defaultreset".toList

instance (c : Config) (trigger : Str) : Decidable (Takes c trigger) :=
  inferInstanceAs (Decidable (_ ∧ _))

theorem registerBoot_cause (env : Env) (c : Config) (clk : Clock) (trigger reason : Str) :
    lastRebootCause (registerBoot env c clk trigger reason) =
      if Takes c trigger then "LocalReboot".toList else lastRebootCause c := by
  have hcount := lastRebootCause_countBoot c trigger reason
  unfold registerBoot recordBoot
  rw [maxRebootEntries_countBoot]
  by_cases hm : maxRebootEntries c = 0
  · have ht : ¬Takes c trigger := fun h => h.1 hm
    rw [if_neg (not_not.mpr hm), if_neg ht]
    exact hcount
  · rw [if_pos hm]
    by_cases htrig : trigger = "defaultreset".toList
    · have ht : ¬Takes c trigger := fun h => h.2 htrig
      rw [if_neg ht, ← hcount]
      exact lastRebootCause_congr _ _ (by rw [createRebootSection_named, if_pos htrig])
    · have ht : Takes c trigger := ⟨hm, htrig⟩
      rw [if_pos ht]
      unfold lastRebootCause
      rw [createRebootSection_named, if_neg htrig]
      simp only [Named.get, Named.set, and_self, if_true]
      decide

theorem setMax_cause (c : Config) (value : ℤ) :
    lastRebootCause (setDeviceInfoRebootsMaxRebootEntries c value) = lastRebootCause c :=
  lastRebootCause_congr _ _ (by simp [setDeviceInfoRebootsMaxRebootEntries])

theorem not_pending_local : "LocalReboot".toList ≠ "RemoteReboot".toList := by decide

theorem not_pending_factory : "FactoryReset".toList ≠ "RemoteReboot".toList := by decide

/-! ### Requests, boots and writes -/

namespace Cause

inductive Op where
  | remoteReboot (rebooted : Bool)
  | boot (env : Env) (clk : Clock) (trigger reason : Str)
  | setMax (value : ℤ)

def Op.isRequest : Op → Bool
  | .remoteReboot _ => true
  | _ => false

def Op.isBoot : Op → Bool
  | .boot .. => true
  | _ => false

abbrev Entry := Op × Option Str

def step (c : Config) (op : Op) : Config × Entry :=
  match op with
  | .remoteReboot rebooted => (execReboot c rebooted, op, none)
  | .boot env clk trigger reason =>
    (registerBoot env c clk trigger reason, op, createdCause env c clk trigger reason)
  | .setMax value => (setDeviceInfoRebootsMaxRebootEntries c value, op, none)

def requestedSinceBoot (ops : List Op) : Bool :=
  (ops.reverse.takeWhile fun op => !op.isBoot).any Op.isRequest

/-- A record says `RemoteReboot` only where one was requested since the boot before. -/
def Honest (log : List Entry) : Prop :=
  ∀ pre e, pre ++ [e] <+: log → e.2 = some "RemoteReboot".toList →
    requestedSinceBoot (pre.map Prod.fst) = true

/-- A boot that meets a pending remote reboot takes it. -/
def Consumes (c : Config) (op : Op) : Prop :=
  ∀ env clk trigger reason, op = .boot env clk trigger reason → Pending c → Takes c trigger

theorem requestedSinceBoot_append (ops : List Op) (op : Op) :
    requestedSinceBoot (ops ++ [op]) =
      (!op.isBoot && (op.isRequest || requestedSinceBoot ops)) := by
  unfold requestedSinceBoot
  rw [List.reverse_append, List.reverse_singleton, List.singleton_append, List.takeWhile_cons]
  cases op.isBoot <;> simp

/-- A pending cause after an operation was requested since the last boot. -/
theorem step_pending (c : Config) (op : Op) (before : List Op)
    (hI : Pending c → requestedSinceBoot before = true) (hop : Consumes c op)
    (h : Pending (step c op).1) : requestedSinceBoot (before ++ [op]) = true := by
  rw [requestedSinceBoot_append]
  cases op with
  | remoteReboot rebooted => rfl
  | boot env clk trigger reason =>
    exfalso
    have hnext := registerBoot_cause env c clk trigger reason
    simp only [step, Pending] at h
    rw [hnext] at h
    by_cases ht : Takes c trigger
    · rw [if_pos ht] at h
      exact not_pending_local h
    · rw [if_neg ht] at h
      exact ht (hop env clk trigger reason rfl h)
  | setMax value =>
    simp only [step, Pending, setMax_cause] at h
    exact hI h

theorem step_output (c : Config) (op : Op) (h : (step c op).2.2 = some "RemoteReboot".toList) :
    Pending c := by
  cases op with
  | remoteReboot rebooted => simp [step] at h
  | setMax value => simp [step] at h
  | boot env clk trigger reason =>
    simp only [step, createdCause_eq] at h
    split at h
    · simp at h
    · split at h
      · exact absurd (Option.some.inj h) not_pending_factory
      · exact Option.some.inj h

theorem run_honest (c : Config) (ops before : List Op)
    (hI : Pending c → requestedSinceBoot before = true) (hP : Along step Consumes c ops) :
    ∀ pre e, pre ++ [e] <+: (run step c ops).2 → e.2 = some "RemoteReboot".toList →
      requestedSinceBoot (before ++ pre.map Prod.fst) = true := by
  induction ops generalizing c before with
  | nil =>
    intro pre e hpre
    simp at hpre
  | cons op ops ih =>
    intro pre e hpre he
    rw [run_cons_outputs] at hpre
    cases pre with
    | nil =>
      have hhead : e = (step c op).2 := by simpa using hpre
      rw [hhead] at he
      rw [List.map_nil, List.append_nil]
      exact hI (step_output c op he)
    | cons x pre =>
      obtain ⟨hx, hrest⟩ := List.cons_prefix_cons.mp hpre
      have hop : x.1 = op := by
        rw [hx]
        cases op <;> rfl
      have := ih (step c op).1 (before ++ [op]) (step_pending c op before hI hP.1) hP.2
        pre e hrest he
      simpa [hop] using this

theorem run_ops (c : Config) (ops : List Op) : (run step c ops).2.map Prod.fst = ops := by
  induction ops generalizing c with
  | nil => rfl
  | cons op ops ih =>
    rw [run_cons_outputs, List.map_cons, ih]
    cases op <;> rfl

def plainBoot : Op := .boot Env.ok ⟨0, 0, 0⟩ [] []

theorem plainBoot_output (c : Config) :
    (step (setDeviceInfoRebootsMaxRebootEntries c 3) plainBoot).2.2 = some (lastRebootCause c) := by
  have hmax : maxRebootEntries (setDeviceInfoRebootsMaxRebootEntries c 3) ≠ 0 := by
    unfold maxRebootEntries setDeviceInfoRebootsMaxRebootEntries
    simp only [Named.get]
    rw [Named.set_self _ _ _ _ (by decide)]
    decide
  simp only [plainBoot, step, createdCause_eq]
  rw [if_neg hmax, if_neg (by decide), setMax_cause]

/-- A boot that leaves the cause pending: with records kept again, a later boot
writes it. -/
theorem left_pending_written (c : Config) (ops : List Op) (op : Op)
    (h : ¬Consumes (run step c ops).1 op) :
    ¬Honest (run step c (ops ++ op :: [.setMax 3, plainBoot])).2 := by
  simp only [Consumes, not_forall] at h
  obtain ⟨env, clk, trigger, reason, rfl, hpending, ht⟩ := h
  have hboot := registerBoot_cause env (run step c ops).1 clk trigger reason
  rw [if_neg ht, hpending] at hboot
  intro hhonest
  have hlog : (run step c (ops ++ .boot env clk trigger reason :: [.setMax 3, plainBoot])).2 =
      (run step c (ops ++ [.boot env clk trigger reason, .setMax 3])).2 ++
        [(step (run step c (ops ++ [.boot env clk trigger reason, .setMax 3])).1 plainBoot).2] := by
    have := run_append step c (ops ++ [.boot env clk trigger reason, .setMax 3]) [plainBoot]
    rw [List.append_assoc] at this
    exact congrArg Prod.snd this
  have hlast : (step (run step c (ops ++ [.boot env clk trigger reason, .setMax 3])).1
      plainBoot).2.2 = some "RemoteReboot".toList := by
    rw [run_append]
    exact (plainBoot_output _).trans (congrArg some hboot)
  have hfalse := hhonest _ _ (by rw [hlog]) hlast
  rw [run_ops, List.append_cons, requestedSinceBoot_append, requestedSinceBoot_append] at hfalse
  simp [Op.isBoot, Op.isRequest] at hfalse

/-- Records are attributed honestly in a run whose boots take what they find
pending, and any other boot can be followed by a false attribution. -/
theorem remote_reboot_attributed (c : Config) (ops : List Op) (hc : ¬Pending c) :
    (Along step Consumes c ops → Honest (run step c ops).2) ∧
    ∀ op, ¬Consumes (run step c ops).1 op →
      ∃ rest, ¬Honest (run step c (ops ++ op :: rest)).2 := by
  refine ⟨fun hP pre e hpre he => ?_, fun op hop => ⟨_, left_pending_written c ops op hop⟩⟩
  have hrun := run_honest c ops [] (fun h => absurd h hc) hP pre e hpre he
  rwa [List.nil_append] at hrun

def sampleOps : List Op :=
  [.boot Env.ok ⟨100, 100, 7⟩ "upgrade".toList [], .remoteReboot true,
    .boot Env.ok ⟨200, 200, 7⟩ [] "POR_RESET".toList, .setMax 0, .remoteReboot false,
    .boot Env.ok ⟨300, 300, 7⟩ "defaultreset".toList []]

instance (c : Config) (op : Op) : Decidable (Consumes c op) :=
  match op with
  | .boot env clk trigger reason =>
    decidable_of_iff (Pending c → Takes c trigger)
      ⟨fun h _ _ _ _ heq => by cases heq; exact h, fun h => h env clk trigger reason rfl⟩
  | .remoteReboot _ => isTrue (by rintro _ _ _ _ ⟨⟩)
  | .setMax _ => isTrue (by rintro _ _ _ _ ⟨⟩)

theorem remote_reboot_attributed_sample : Honest (run step Config.empty sampleOps).2 :=
  (remote_reboot_attributed Config.empty sampleOps (by decide)).1 (by decide)

/-- A requested reboot that ends in a factory reset: the boot after that one is
recorded as a remote reboot. -/
theorem stale_cause_attributed :
    ¬Honest (run step Config.empty
      [.remoteReboot true, .boot Env.ok ⟨100, 100, 7⟩ "defaultreset".toList [],
        .boot Env.ok ⟨200, 200, 7⟩ [] []]).2 := by
  intro h
  have hpre := h (run step Config.empty
      [.remoteReboot true, .boot Env.ok ⟨100, 100, 7⟩ "defaultreset".toList []]).2
    (.boot Env.ok ⟨200, 200, 7⟩ [] [], some "RemoteReboot".toList) ⟨[], rfl⟩ rfl
  exact absurd hpre (by decide)

end Cause
end Sysmngr.Reboots
