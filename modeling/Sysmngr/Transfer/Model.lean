import Sysmngr.Text
import Sysmngr.Calendar
import Sysmngr.Routine

/-!
# Transfers (`utils.c`)

The checks of a transferred file, the `TransferComplete!` event, and the end that the
transfers of images and of configurations share: the event tells what the transfer has
come to, then the temporary file is removed.
-/

namespace Sysmngr.Transfer
open Text Calendar Routine

/-- What the code takes from `libbbfdm` and OpenSSL: the URL schemes, the digests by name
and the reading of a boolean. -/
structure Lib where
  httpUri : Str
  ftpUri : Str
  fileUri : Str
  getDigestByName : Str → Option (List UInt8 → List UInt8)
  stringToBool : Str → Bool

/-- The library without digests. -/
def Lib.plain : Lib where
  httpUri := "http".toList
  ftpUri := "ftp".toList
  fileUri := "file://".toList
  getDigestByName _ := none
  stringToBool v := decide (v = "1".toList ∨ v = "true".toList)

/-! ### The checks -/

/-- `%02x` -/
def printByte (b : UInt8) : Str :=
  if b < 16 then '0' :: Nat.toDigits 16 b.toNat else Nat.toDigits 16 b.toNat

/-- `contents` are the bytes of the file, if it can be opened. -/
def validateHashValue (lib : Lib) (algo : Str) (contents : Option (List UInt8))
    (checksum : Str) : Bool :=
  match contents, lib.getDigestByName algo with
  | some bytes, some digest => decide ((digest bytes).flatMap printByte = checksum)
  | _, _ => false

def validateChecksumValue (lib : Lib) (contents : Option (List UInt8))
    (checksumAlgorithm checksum : Str) : Bool :=
  if checksum ≠ [] then
    if checksumAlgorithm = "SHA-1".toList then
      validateHashValue lib "SHA1".toList contents checksum
    else if checksumAlgorithm = "SHA-224".toList then
      validateHashValue lib "SHA224".toList contents checksum
    else if checksumAlgorithm = "SHA-256".toList then
      validateHashValue lib "SHA256".toList contents checksum
    else if checksumAlgorithm = "SHA-384".toList then
      validateHashValue lib "SHA384".toList contents checksum
    else if checksumAlgorithm = "SHA-512".toList then
      validateHashValue lib "SHA512".toList contents checksum
    else false
  else true

def validateServerResponseCode (lib : Lib) (url : Str) (responseCode : ℤ) : Bool :=
  let http := lib.httpUri.isPrefixOf url
  let ftp := lib.ftpUri.isPrefixOf url
  let file := lib.fileUri.isPrefixOf url
  !((http && decide (responseCode ≠ 200)) || (ftp && decide (responseCode ≠ 226)) ||
    (file && decide (responseCode ≠ 0)) || (!http && !ftp && !file))

def validateFileSystemSize (fsAvailableSize : ℕ) (fileSize : Str) : Bool :=
  if fileSize ≠ [] then !decide (fsAvailableSize < strtoul fileSize) else true

/-! ### Effects -/

/-- An event with the paths and values of its input, which are all strings. -/
structure Message where
  name : Str
  input : List (String × Str)
  deriving DecidableEq

def Message.value (m : Message) (path : String) : Option Str := m.input.lookup path

/-- The calls that move the file, put it to use, tell of it or remove it. -/
inductive Effect where
  | exportPackage (package path : Str)
  | uploadFile (path url username password : Str)
  | downloadFile (path url username password : Str)
  | importPackage (path : Str)
  | upgrade (path autoActivate bank keepSettings : Str)
  | reboot
  | sendEvent (event : Str) (message : Message)
  | remove (path : Str)
  deriving DecidableEq

def Effect.message : Effect → Option Message
  | .sendEvent _ message => some message
  | _ => none

/-- The effects that put the transferred file to use. -/
def Effect.applies : Effect → Bool
  | .importPackage _ => true
  | .upgrade _ _ _ _ => true
  | .reboot => true
  | _ => false

def sendTransferCompleteEvent (command objPath transferUrl faultString : Str)
    (startT completeT : ℤ) (commandKey : Option Str) (transferType : Str) : Effect :=
  .sendEvent "bbfdm.event".toList ⟨"Device.LocalAgent.TransferComplete!".toList,
    [("Command", command),
      ("CommandKey", commandKey.getD []),
      ("Requestor", []),
      ("TransferType", transferType),
      ("Affected", objPath),
      ("TransferURL", transferUrl),
      ("StartTime", strftimeIso 32 (gmtime startT)),
      ("CompleteTime", strftimeIso 32 (gmtime completeT)),
      ("FaultCode", if faultString = [] then "0".toList else "7000".toList),
      ("FaultString", faultString)]⟩

/-! ### The end of a transfer -/

/-- The arguments that all transfers have. -/
structure Request where
  url : Str
  username : Str
  password : Str
  command : Str
  objPath : Str

/-- What all transfers meet: the clock at the start and after the transfer, the code of
the server, whether the temporary file is there at the end and what its removal returns. -/
structure Outcomes where
  startTime : ℤ
  completeTime : ℤ
  resCode : ℤ
  fileExists : Bool
  remove : ℤ

/-- The arguments of the transfers that download a file. -/
structure FileRequest extends Request where
  fileSize : Str
  checksumAlgorithm : Str
  checksum : Str

/-- The space `/tmp` has left, and the bytes of the file when it is opened again. -/
structure FileOutcomes extends Outcomes where
  fsAvailableSize : ℕ
  contents : Option (List UInt8)

/-- The checks of a downloaded file. -/
def FileChecked (lib : Lib) (r : FileRequest) (o : FileOutcomes) : Prop :=
  validateFileSystemSize o.fsAvailableSize r.fileSize = true ∧
    validateServerResponseCode lib r.url (toInt o.resCode) = true ∧
    validateChecksumValue lib o.contents r.checksumAlgorithm r.checksum = true

/-- The locals at the label `end`. -/
structure Locals where
  path : Str
  completeTime : ℤ
  res : ℤ
  faultMsg : Str

/-- A jump to `end` with a result and a message. -/
def Locals.failed (path : Str) (completeTime res : ℤ) (faultMsg : Str) : Locals :=
  ⟨path, completeTime, res, snprintf 128 faultMsg⟩

abbrev Body := Routine Effect Locals Locals

structure Finished where
  effects : List Effect
  res : ℤ
  deriving DecidableEq

def Finished.messages (f : Finished) : List Message := f.effects.filterMap Effect.message

/-- From the label `end` on: the event, then the removal of the temporary file where it is
`attempted`; `strict` transfers fail with it. -/
def finish (r : Request) (o : Outcomes) (commandKey : Option Str) (transferType : Str)
    (attempted strict : Bool) (body : Body) : Finished where
  effects := body.effects ++
    sendTransferCompleteEvent r.command r.objPath r.url body.last.faultMsg o.startTime
        body.last.completeTime commandKey transferType ::
      if attempted then [.remove body.last.path] else []
  res := if attempted && strict && decide (o.remove ≠ 0) then -1 else body.last.res

def Failed (passed : Prop) (l : Locals) : Prop := ¬passed ∧ l.res ≠ 0 ∧ l.faultMsg ≠ []

def Succeeded (passed : Prop) (l : Locals) : Prop := passed ∧ l.res = 0 ∧ l.faultMsg = []

/-- A body that sends nothing, puts the file to use only once it is `checked`, and jumps to
`end` with a failure and its message unless all has `passed`. -/
def Delivers (checked passed : Prop) : Body → Prop :=
  Meets (fun e => e.message = none ∧ (e.applies = true → checked)) (Failed passed)
    (Succeeded passed)

/-- One event, and it tells of a success exactly when that is what is returned. -/
def ToldOnce (f : Finished) : Prop :=
  ∃ message, f.messages = [message] ∧
    (message.value "FaultCode" = some "0".toList ↔ f.res = 0)

theorem faultCode_message_ne_nil (text : Str) (resCode : ℤ) :
    text ++ printInt resCode ++ ")".toList ≠ [] :=
  List.append_ne_nil_of_right_ne_nil _ (toList_ne_nil _ (by decide))

theorem failed_of_not {passed : Prop} {path faultMsg : Str} {completeTime res : ℤ}
    (hno : ¬passed) (hres : res ≠ 0) (hmsg : faultMsg ≠ []) :
    Failed passed (.failed path completeTime res faultMsg) := by
  obtain ⟨c, rest, rfl⟩ := List.exists_cons_of_ne_nil hmsg
  exact ⟨hno, hres, List.cons_ne_nil _ _⟩

theorem meets_check {E : Effect → Prop} {passed : Prop} {ok : Bool} {path faultMsg : Str}
    {completeTime res : ℤ} (hok : passed → ok = true) (hres : res ≠ 0) (hmsg : faultMsg ≠ []) :
    Meets E (Failed passed) (fun _ => ok = true)
      (require ok (.failed path completeTime res faultMsg)) := by
  refine meets_require fun hno => failed_of_not (fun hpassed => ?_) hres hmsg
  exact Bool.eq_false_iff.mp hno (hok hpassed)

theorem meets_answer {E : Effect → Prop} {passed : Prop} {α : Type} {o : Option α}
    {path faultMsg : Str} {completeTime res : ℤ} (hok : passed → o ≠ none) (hres : res ≠ 0)
    (hmsg : faultMsg ≠ []) :
    Meets E (Failed passed) (fun a => o = some a)
      (fetch o (.failed path completeTime res faultMsg)) :=
  meets_fetch fun hno => failed_of_not (fun hpassed => hok hpassed hno) hres hmsg

theorem transferComplete_faultCode (command objPath transferUrl faultString : Str)
    (startT completeT : ℤ) (commandKey : Option Str) (transferType : Str) :
    ∃ message, (sendTransferCompleteEvent command objPath transferUrl faultString startT
        completeT commandKey transferType).message = some message ∧
      (message.value "FaultCode" = some "0".toList ↔ faultString = []) := by
  refine ⟨_, rfl, ?_⟩
  by_cases hfault : faultString = []
  · simp [Message.value, List.lookup_cons, hfault]
  · simp [Message.value, List.lookup_cons, hfault]

section

variable (r : Request) (o : Outcomes) (commandKey : Option Str) (transferType : Str)
  (attempted strict : Bool)

theorem finish_messages (body : Body) (h : ∀ e ∈ body.effects, e.message = none) :
    ∃ message, (finish r o commandKey transferType attempted strict body).messages = [message] ∧
      (message.value "FaultCode" = some "0".toList ↔ body.last.faultMsg = []) := by
  obtain ⟨message, hevent, hcode⟩ := transferComplete_faultCode r.command r.objPath r.url
    body.last.faultMsg o.startTime body.last.completeTime commandKey transferType
  refine ⟨message, ?_, hcode⟩
  have hbefore : body.effects.filterMap Effect.message = [] := List.filterMap_eq_nil_iff.mpr h
  simp only [Finished.messages, finish, List.filterMap_append, hbefore, List.nil_append,
    List.filterMap_cons, hevent]
  cases attempted with
  | true => rfl
  | false => rfl

theorem finish_res_eq_zero_iff (body : Body) :
    (finish r o commandKey transferType attempted strict body).res = 0 ↔
      body.last.res = 0 ∧ ¬(attempted = true ∧ strict = true ∧ o.remove ≠ 0) := by
  by_cases hremoval : attempted = true ∧ strict = true ∧ o.remove ≠ 0
  · obtain ⟨hattempted, hstrict, hremove⟩ := hremoval
    simp [finish, hattempted, hstrict, hremove]
  · have hno : (attempted && strict && decide (o.remove ≠ 0)) = false := by
      rw [Bool.eq_false_iff]
      intro hyes
      simp only [Bool.and_eq_true, decide_eq_true_eq] at hyes
      exact hremoval ⟨hyes.1.1, hyes.1.2, hyes.2⟩
    simp only [finish, hno, Bool.false_eq_true, if_false, hremoval, not_false_eq_true, and_true]

/-- What the removal returns is not in the event: a strict transfer that has passed tells
of a success and fails if the removal fails. -/
theorem finish_toldOnce_iff {checked passed : Prop} {body : Body}
    (h : Delivers checked passed body) :
    ToldOnce (finish r o commandKey transferType attempted strict body) ↔
      ¬(passed ∧ attempted = true ∧ strict = true ∧ o.remove ≠ 0) := by
  obtain ⟨message, hone, hcode⟩ := finish_messages r o commandKey transferType attempted strict
    body fun e he => (h.effects e he).1
  have hres := finish_res_eq_zero_iff r o commandKey transferType attempted strict body
  have htold : ToldOnce (finish r o commandKey transferType attempted strict body) ↔
      (body.last.faultMsg = [] ↔
        (finish r o commandKey transferType attempted strict body).res = 0) := by
    rw [← hcode]
    constructor
    · rintro ⟨other, hother, hiff⟩
      obtain rfl : message = other := List.singleton_inj.mp (hone.symm.trans hother)
      exact hiff
    · exact fun hiff => ⟨message, hone, hiff⟩
  rw [htold, hres]
  rcases h.last_spec with ⟨hfailed, hne, hmsg⟩ | ⟨hpassed, hzero, hmsg⟩
  · exact iff_of_true (iff_of_false hmsg fun hboth => hne hboth.1) fun hall => hfailed hall.1
  · simp only [hmsg, hzero, hpassed, true_and, true_iff]

theorem finish_applies {checked passed : Prop} {body : Body} (h : Delivers checked passed body) :
    ∀ e ∈ (finish r o commandKey transferType attempted strict body).effects,
      e.applies = true → checked := by
  intro e he happlies
  rcases List.mem_append.mp he with hbody | hend
  · exact (h.effects e hbody).2 happlies
  · rcases List.mem_cons.mp hend with rfl | hremoval
    · exact absurd happlies Bool.false_ne_true
    · cases attempted with
      | true =>
        obtain rfl := List.mem_singleton.mp hremoval
        exact absurd happlies Bool.false_ne_true
      | false => exact absurd hremoval List.not_mem_nil

end

end Sysmngr.Transfer
