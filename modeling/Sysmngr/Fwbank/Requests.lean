import Sysmngr.Fwbank.Dump
import Sysmngr.Fwbank.Upgrade

/-!
# Serving `set_bootbank` and `upgrade` (`fwbank.c`)

A request is deferred while a forked task runs the script, for ten seconds at most. The
task's finish callback sends the reply, if it has one, and the request is completed
after it in any case.
-/

namespace Sysmngr.Fwbank
open Text Blobmsg Uci Machine

def FWBANK_SET_BOOTBANK_CMD : Str := FWBANK_FILE_PATH ++ " call set_bootbank".toList

def UBUS_STATUS_UNKNOWN_ERROR : ℕ := 9

/-! ### Tasks -/

/-- What serving a request does: messages to the requester, the activity that follows
a success, and the completion of the request. -/
inductive Action where
  | reply (msg : List Attr)
  | goOn
  | complete (status : ℕ)

def Action.isReply : Action → Bool
  | .reply _ => true
  | _ => false

/-- `sysmngr_task_data_t` of a deferred request, with whether its timer is pending and
whether its process was killed. -/
structure TaskData where
  command : Str
  finishcb : Reads → Finish
  pending : Bool
  killed : Bool

def sysmngrTaskFork (finishcb : Reads → Finish) (command : Str) (timeout : ℕ) (forkOk : Bool) :
    Option TaskData :=
  if forkOk then some ⟨command, finishcb, decide (timeout > 0), false⟩ else none

def timeoutCallback (task : TaskData) : TaskData := { task with pending := false, killed := true }

def sysmngrTaskFinishCallback (task : TaskData) (r : Reads) : List Action :=
  let f := task.finishcb r
  (f.reply.map Action.reply).toList ++ (if f.next then [.goOn] else []) ++ [.complete 0]

inductive TaskEvent where
  | timer
  | exit (r : Reads)

/-- The finish callback runs once and frees the task. -/
def taskStep : Option TaskData → TaskEvent → Option TaskData × List Action
  | none, _ => (none, [])
  | some task, .timer => (some (if task.pending then timeoutCallback task else task), [])
  | some task, .exit r => (none, sysmngrTaskFinishCallback task r)

/-! ### Handlers -/

/-- A request that gets no command is refused; one whose task cannot be started is
answered at once. -/
def handle (finishcb : Reads → Finish) (failure : Attr) (forkOk : Bool) :
    Option Str → Option TaskData × List Action
  | none => (none, [.complete UBUS_STATUS_UNKNOWN_ERROR])
  | some command =>
    match sysmngrTaskFork finishcb command 10 forkOk with
    | none => (none, [.reply [failure], .complete 0])
    | some task => (some task, [])

def setBootbankPolicy : List Policy := [⟨"bank", .int32⟩]

def sysmngrFwbankSetBootbank (bankId : UInt32) : Str :=
  snprintf 128 ("echo '\x7b\"bank\":".toList ++ printNat bankId.toNat ++ "\x7d' | ".toList ++
    FWBANK_SET_BOOTBANK_CMD ++ " 2>/dev/null".toList)

def setBootbankCommand (msg : List Attr) : Option Str :=
  match blobmsgParse setBootbankPolicy msg with
  | some [bank] => some (sysmngrFwbankSetBootbank ((bank.map blobmsgGetU32).getD 0))
  | _ => none

inductive Method where
  | setBootbank
  | upgrade
  deriving DecidableEq

section Serving
variable (parse : Str → Option (List Attr)) (config : Named)

def setBootbankHandler (forkOk : Bool) (msg : List Attr) : Option TaskData × List Action :=
  handle (fwbankSetBootbankFinishCallback parse) (.bool "status" false) forkOk
    (setBootbankCommand msg)

def upgradeRequestHandler (forkOk : Bool) (msg : List Attr) : Option TaskData × List Action :=
  handle (fwbankUpgradeFinishCallback parse) (.string "result" "failure".toList) forkOk
    (upgradeHandler config msg)

def Method.handler : Method → Bool → List Attr → Option TaskData × List Action
  | .setBootbank => setBootbankHandler parse
  | .upgrade => upgradeRequestHandler parse config

def serve (m : Method) (forkOk : Bool) (msg : List Attr) (es : List TaskEvent) : List Action :=
  let h := m.handler parse config forkOk msg
  h.2 ++ (run taskStep h.1 es).2.flatten

def AnsweredOnce (actions : List Action) : Prop :=
  ∀ pre status post, actions = pre ++ .complete status :: post → pre.countP Action.isReply = 1

/-- What the task's process leaves in the pipe when it exits. -/
def firstExit (es : List TaskEvent) : Option Reads :=
  es.findSome? fun
    | .exit r => some r
    | .timer => none

/-! ### Replies -/

theorem run_taskStep_none (es : List TaskEvent) : (run taskStep none es).2.flatten = [] := by
  induction es with
  | nil => rfl
  | cons e es ih => exact ih

/-- Whatever its timer does, a task acts once, when its process exits. -/
theorem run_taskStep (task : TaskData) (es : List TaskEvent) :
    (run taskStep (some task) es).2.flatten =
      match firstExit es with
      | none => []
      | some r => sysmngrTaskFinishCallback task r := by
  induction es generalizing task with
  | nil => rfl
  | cons e es ih =>
    cases e with
    | timer =>
      have hsame : ∀ r, sysmngrTaskFinishCallback
          (if task.pending then timeoutCallback task else task) r =
            sysmngrTaskFinishCallback task r := by
        intro r
        split <;> rfl
      have hrest := ih (if task.pending then timeoutCallback task else task)
      simp only [hsame] at hrest
      exact hrest
    | exit r =>
      rw [run_cons_outputs, List.flatten_cons]
      change sysmngrTaskFinishCallback task r ++ (run taskStep none es).2.flatten = _
      rw [run_taskStep_none, List.append_nil]
      rfl

theorem answeredOnce_nil : AnsweredOnce [] := fun pre status post h => by simp at h

theorem answeredOnce_iff (before : List Action) (status : ℕ)
    (h : ∀ s, .complete s ∉ before) :
    AnsweredOnce (before ++ [.complete status]) ↔ before.countP Action.isReply = 1 := by
  constructor
  · exact fun ha => ha before status [] rfl
  · intro hcount pre s post heq
    -- the completion is the last action, so nothing else comes after `pre`
    rcases List.eq_nil_or_concat post with rfl | ⟨post, last, rfl⟩
    · obtain ⟨rfl, -⟩ := List.append_inj' heq rfl
      exact hcount
    · rw [List.concat_eq_append, ← List.cons_append, ← List.append_assoc] at heq
      obtain ⟨rfl, -⟩ := List.append_inj' heq rfl
      exact absurd (List.mem_append_right _ (List.mem_cons_self ..)) (h s)

def RepliesWith (finishcb : Reads → Finish) : Prop :=
  ∀ r, (finishcb r).reply = (readOutput r).bind parse

theorem setBootbank_replies : RepliesWith parse (fwbankSetBootbankFinishCallback parse) := by
  intro r
  unfold fwbankSetBootbankFinishCallback setBootbankText
  cases (readOutput r).bind parse <;> rfl

theorem upgrade_replies : RepliesWith parse (fwbankUpgradeFinishCallback parse) := by
  intro r
  unfold fwbankUpgradeFinishCallback upgradeText
  cases (readOutput r).bind parse <;> rfl

theorem finish_answeredOnce_iff (task : TaskData) (h : RepliesWith parse task.finishcb)
    (r : Reads) : AnsweredOnce (sysmngrTaskFinishCallback task r) ↔
      ((readOutput r).bind parse).isSome := by
  rw [sysmngrTaskFinishCallback, answeredOnce_iff]
  · rw [h r]
    cases (readOutput r).bind parse <;> cases (task.finishcb r).next <;>
      simp [List.countP_cons, Action.isReply]
  · intro s hs
    rw [h r] at hs
    revert hs
    cases (readOutput r).bind parse <;> cases (task.finishcb r).next <;> simp

theorem handle_answeredOnce_iff (finishcb : Reads → Finish) (h : RepliesWith parse finishcb)
    (failure : Attr) (forkOk : Bool) (command : Option Str) (es : List TaskEvent) :
    AnsweredOnce ((handle finishcb failure forkOk command).2 ++
        (run taskStep (handle finishcb failure forkOk command).1 es).2.flatten) ↔
      command ≠ none ∧ (forkOk = false ∨
        ∀ r ∈ firstExit es, ((readOutput r).bind parse).isSome) := by
  cases command with
  | none =>
    rw [handle, run_taskStep_none, List.append_nil]
    refine iff_of_false (fun ha => ?_) (fun hc => hc.1 rfl)
    have hcount := ha [] _ [] rfl
    exact absurd hcount (by decide)
  | some command =>
    cases forkOk with
    | false =>
      refine iff_of_true ?_ ⟨by simp, Or.inl rfl⟩
      change AnsweredOnce (([.reply [failure]] ++ [.complete 0]) ++
        (run taskStep none es).2.flatten)
      rw [run_taskStep_none, List.append_nil, answeredOnce_iff]
      · rfl
      · simp
    | true =>
      change AnsweredOnce ([] ++ (run taskStep (some ⟨command, finishcb, true, false⟩) es).2.flatten) ↔ _
      rw [List.nil_append, run_taskStep]
      simp only [ne_eq, reduceCtorEq, not_false_eq_true, true_and, Bool.true_eq_false, false_or]
      cases firstExit es with
      | none => exact iff_of_true answeredOnce_nil (fun r hr => absurd hr (by simp))
      | some r =>
        simp only [Option.mem_def, Option.some.injEq, forall_eq']
        exact finish_answeredOnce_iff parse ⟨command, finishcb, true, false⟩ h r

theorem setBootbankCommand_ne_none (msg : List Attr) :
    setBootbankCommand msg ≠ none ↔ msg ≠ [] := by
  cases msg with
  | nil => simp [setBootbankCommand, blobmsgParse]
  | cons a msg => simp [setBootbankCommand, blobmsgParse, setBootbankPolicy]

theorem upgradeHandler_ne_none (msg : List Attr) : upgradeHandler config msg ≠ none ↔ msg ≠ [] := by
  cases msg with
  | nil => simp [upgradeHandler, blobmsgParse]
  | cons a msg => simp [upgradeHandler, blobmsgParse, upgradePolicy]

/-- A request gets exactly one reply before it is completed exactly when its message is
not empty and the task cannot be started, or its output is read and parses. -/
theorem served_answeredOnce_iff (m : Method) (forkOk : Bool) (msg : List Attr)
    (es : List TaskEvent) :
    AnsweredOnce (serve parse config m forkOk msg es) ↔
      msg ≠ [] ∧ (forkOk = false ∨
        ∀ r ∈ firstExit es, ((readOutput r).bind parse).isSome) := by
  cases m with
  | setBootbank =>
    rw [← setBootbankCommand_ne_none]
    exact handle_answeredOnce_iff parse _ (setBootbank_replies parse) _ _ _ _
  | upgrade =>
    rw [← upgradeHandler_ne_none config]
    exact handle_answeredOnce_iff parse _ (upgrade_replies parse) _ _ _ _

end Serving

def resultParse (s : Str) : Option (List Attr) :=
  if s = "\x7b\"success\":true\x7d".toList then some [.bool "success" true] else none

def killedTask : List TaskEvent := [.timer, .exit ⟨[], false⟩]

/-- A task killed by its timer leaves no output: the request is completed unanswered. -/
theorem killed_request_unanswered :
    ¬∀ parse config m forkOk msg es, AnsweredOnce (serve parse config m forkOk msg es) := by
  intro hall
  have h := hall resultParse (fun _ _ => none) .setBootbank true [.int32 "bank" 2] killedTask
  have hactions : serve resultParse (fun _ _ => none) .setBootbank true [.int32 "bank" 2]
      killedTask = [.complete 0] := rfl
  rw [hactions] at h
  exact absurd (h [] 0 [] rfl) (by decide)

end Sysmngr.Fwbank
