import Sysmngr.Fwbank.EventOrder
import Sysmngr.FwImages.Download
import Sysmngr.FwImages.Available

/-!
# One event, two listeners

An accepted upgrade is waited for twice: `Download()` waits to report the transfer, the
daemon to dump the banks again. Each has its own loop over the attributes of an event.
They part when an event goes on behind the status `Available`: the daemon's loop ends
there, the other one reads on.
-/

namespace Sysmngr.FwImages
open Text Fwbank Machine Attributes

/-- The daemon's listener and whether it has started a dump; whether `Download()` waits,
and the status it keeps. -/
structure Waiters where
  data : FwbankEventData
  dumped : Bool
  waiting : Bool
  status : Bool

/-- Both waits begin: the daemon's with the number it was called with, the other with the
text of the id. -/
def Waiters.start (bank : UInt32) (now : ℕ) : Waiters :=
  ⟨fwbankWaitForSysupgradeEvent bank now, false, true, false⟩

/-- An event reaches both; seen of it is whether the daemon starts a dump. -/
def Waiters.step (bankId : Str) (w : Waiters) (e : List Field) : Waiters × Bool :=
  let daemon := if w.data.registered then fwbankReceiveSysupgrade w.data e else (w.data, false)
  let client := if w.waiting then dmubusReceiveSysupgrade bankId w.status e else (w.status, true)
  (⟨daemon.1, w.dumped || daemon.2, w.waiting && !client.2, client.1⟩, daemon.2)

def Waiters.Agree (w : Waiters) : Prop :=
  w.waiting = w.data.registered ∧ w.status = w.dumped

instance (w : Waiters) : Decidable w.Agree := inferInstanceAs (Decidable (_ ∧ _))

/-! ### What stands behind `Available` -/

def available : Field := ("status".toList, "Available".toList)

/-- The rest of an event changes nothing for who reads it: it names no other bank, does
not call the image `Downloading`, and the last status in it, if any, is `Available`. -/
structure Idle (bankId : Str) (rest : List Field) : Prop where
  own : ¬Foreign bankId rest
  done : ¬Reports "Downloading".toList rest
  last : ∀ f, (rest.filter fun f => f.1 = "status".toList).getLast? = some f → f = available

/-- Where the daemon's loop would meet the status `Available`, nothing behind it
matters. -/
def Settles (bankId : Str) (e : List Field) : Prop :=
  ∀ pre rest, e = pre ++ available :: rest → scanFields bankId pre = .finished →
    Idle bankId rest

theorem scanFields_cons (bankId : Str) (f : Field) (rest : List Field) :
    scanFields bankId (f :: rest) =
      if scanFields bankId [f] = .finished then scanFields bankId rest
      else scanFields bankId [f] := by
  obtain ⟨name, v⟩ := f
  rw [scanFields, scanFields]
  split
  · rfl
  split
  · rfl
  split
  · rfl
  · rfl

theorem scanFields_available (bankId : Str) : scanFields bankId [available] = .refreshed := by
  have hne : "status".toList ≠ "bank_id".toList := by decide
  have hda : "Available".toList ≠ "Downloading".toList := by decide
  rw [available, scanFields, if_neg fun h => hne h.1, if_neg fun h => hda h.2, if_pos ⟨rfl, rfl⟩]

theorem settles_nil (bankId : Str) : Settles bankId [] := fun pre rest heq => by
  simp at heq

theorem settles_available (bankId : Str) (rest : List Field) :
    Settles bankId (available :: rest) ↔ Idle bankId rest := by
  constructor
  · intro h
    exact h [] rest rfl rfl
  · intro h pre tail heq hscan
    cases pre with
    | nil =>
      obtain ⟨-, rfl⟩ := List.cons.inj heq
      exact h
    | cons f pre =>
      obtain ⟨rfl, -⟩ := List.cons.inj heq
      rw [scanFields_cons, scanFields_available] at hscan
      cases hscan

/-- Behind an attribute the daemon's loop passes over, and only there, the rest of the
event counts. -/
theorem settles_cons (bankId : Str) (f : Field) (rest : List Field) (hf : f ≠ available) :
    Settles bankId (f :: rest) ↔
      (scanFields bankId [f] = .finished → Settles bankId rest) := by
  have hpass : ∀ tail, scanFields bankId (f :: tail) = .finished ↔
      scanFields bankId [f] = .finished ∧ scanFields bankId tail = .finished := by
    intro tail
    rw [scanFields_cons]
    by_cases h : scanFields bankId [f] = .finished
    · rw [if_pos h, and_iff_right h]
    · rw [if_neg h]
      exact iff_of_false h fun hc => h hc.1
  constructor
  · intro hs hone pre tail heq hscan
    exact hs (f :: pre) tail (congrArg (f :: ·) heq) ((hpass pre).mpr ⟨hone, hscan⟩)
  · intro hs pre tail heq hscan
    cases pre with
    | nil => exact absurd (List.cons.inj heq).1 hf
    | cons g pre =>
      obtain ⟨rfl, rfl⟩ := List.cons.inj heq
      obtain ⟨hone, hrest⟩ := (hpass pre).mp hscan
      exact hs hone pre tail rfl hrest

/-! ### One event -/

def lastStatus (rest : List Field) : Option Field :=
  (rest.filter fun f => f.1 = "status".toList).getLast?

theorem lastStatus_cons (f : Field) (rest : List Field) :
    lastStatus (f :: rest) =
      if f.1 = "status".toList then some ((lastStatus rest).getD f) else lastStatus rest := by
  unfold lastStatus
  rw [List.filter_cons]
  by_cases h : f.1 = "status".toList
  · rw [if_pos (decide_eq_true h), if_pos h, List.getLast?_cons]
  · rw [if_neg fun hc => h (of_decide_eq_true hc), if_neg h]

/-- `Download()` reads an event to its end and keeps a good status exactly when nothing
in the event stops it and the last status in it is `Available`. -/
theorem receive_done_iff (bankId : Str) (s : Bool) (rest : List Field) :
    dmubusReceiveSysupgrade bankId s rest = (true, true) ↔
      ¬Foreign bankId rest ∧ ¬Reports "Downloading".toList rest ∧
        (lastStatus rest).elim s (fun f => decide (f = available)) = true := by
  induction rest generalizing s with
  | nil =>
    have hforeign : ¬Foreign bankId [] := by simp [Foreign]
    have hreports : ¬Reports "Downloading".toList [] := List.not_mem_nil
    rw [and_iff_right hforeign, and_iff_right hreports]
    show (s, true) = (true, true) ↔ s = true
    simp
  | cons f rest ih =>
    obtain ⟨name, v⟩ := f
    rw [dmubusReceiveSysupgrade, foreign_cons, reports_cons, lastStatus_cons]
    by_cases hforeign : name = "bank_id".toList ∧ v ≠ bankId
    · rw [if_pos hforeign]
      exact iff_of_false (by simp) fun h => h.1 (Or.inl hforeign)
    rw [if_neg hforeign, or_iff_right hforeign]
    by_cases hname : name = "status".toList
    · rw [if_pos hname, if_pos hname, and_iff_right hname]
      by_cases hdown : v = "Downloading".toList
      · rw [if_pos hdown]
        exact iff_of_false (by simp) fun h => h.2.1 (Or.inl hdown)
      · have hfield : ((name, v) = available) ↔ v = "Available".toList := by
          rw [available, Prod.mk.injEq, and_iff_right hname]
        rw [if_neg hdown, or_iff_right hdown, ih]
        refine and_congr_right fun _ => and_congr_right fun _ => ?_
        cases lastStatus rest with
        | none =>
          show decide (v = "Available".toList) = true ↔ decide ((name, v) = available) = true
          rw [decide_eq_true_iff, decide_eq_true_iff, hfield]
        | some g => rfl
    · rw [if_neg hname, if_neg hname, or_iff_right fun h => hname h.1]
      exact ih s

theorem idle_iff (bankId : Str) (rest : List Field) :
    Idle bankId rest ↔ dmubusReceiveSysupgrade bankId true rest = (true, true) := by
  rw [receive_done_iff]
  have hlast : (lastStatus rest).elim true (fun f => decide (f = available)) = true ↔
      ∀ f, lastStatus rest = some f → f = available := by
    cases lastStatus rest <;> simp
  constructor
  · intro h
    exact ⟨h.own, h.done, hlast.mpr h.last⟩
  · rintro ⟨hown, hdone, hend⟩
    exact ⟨hown, hdone, hlast.mp hend⟩

/-- The status `Download()` keeps and whether its wait ends, as the daemon's loop over
the event asks for. -/
def clientOf : Scan → Bool × Bool
  | .returned => (false, false)
  | .refreshed => (true, true)
  | .finished => (false, true)

/-- A field that is not the status `Available`: both loops stop at it, or both pass. -/
theorem receive_cons (bankId : Str) (f : Field) (rest : List Field) (hf : f ≠ available) :
    (scanFields bankId [f] = .finished ∧ dmubusReceiveSysupgrade bankId false (f :: rest) =
        dmubusReceiveSysupgrade bankId false rest) ∨
      (scanFields bankId [f] = .returned ∧
        dmubusReceiveSysupgrade bankId false (f :: rest) = (false, false)) := by
  obtain ⟨name, v⟩ := f
  rw [scanFields, dmubusReceiveSysupgrade]
  by_cases hforeign : name = "bank_id".toList ∧ v ≠ bankId
  · rw [if_pos hforeign, if_pos hforeign]
    exact Or.inr ⟨rfl, rfl⟩
  rw [if_neg hforeign, if_neg hforeign]
  by_cases hname : name = "status".toList
  · by_cases hdown : v = "Downloading".toList
    · rw [if_pos ⟨hname, hdown⟩, if_pos hname, if_pos hdown]
      exact Or.inr ⟨rfl, rfl⟩
    · have havail : v ≠ "Available".toList := fun h => hf (Prod.ext hname h)
      rw [if_neg fun h => hdown h.2, if_neg fun h => havail h.2, if_pos hname, if_neg hdown,
        decide_eq_false havail]
      exact Or.inl ⟨rfl, rfl⟩
  · rw [if_neg fun h => hname h.1, if_neg fun h => hname h.1, if_neg hname]
    exact Or.inl ⟨rfl, rfl⟩

theorem receive_eq_clientOf_iff (bankId : Str) (e : List Field) :
    dmubusReceiveSysupgrade bankId false e = clientOf (scanFields bankId e) ↔
      Settles bankId e := by
  induction e with
  | nil => exact iff_of_true rfl (settles_nil bankId)
  | cons f rest ih =>
    by_cases hf : f = available
    · subst hf
      have hne : "status".toList ≠ "bank_id".toList := by decide
      have hda : "Available".toList ≠ "Downloading".toList := by decide
      have hread : dmubusReceiveSysupgrade bankId false (available :: rest) =
          dmubusReceiveSysupgrade bankId true rest := by
        rw [available, dmubusReceiveSysupgrade, if_neg fun h => hne h.1, if_pos rfl, if_neg hda]
        rfl
      rw [settles_available, idle_iff, scanFields_cons, scanFields_available, hread]
      rfl
    · rw [settles_cons bankId f rest hf, scanFields_cons]
      rcases receive_cons bankId f rest hf with ⟨hpass, hread⟩ | ⟨hstop, hread⟩
      · rw [if_pos hpass, hread, ih, hpass]
        exact ⟨fun h _ => h, fun h => h rfl⟩
      · rw [hstop, hread]
        exact iff_of_true rfl fun h => by cases h

/-- Of the events with one bank id and one status at most, those settle that the daemon
handles right. -/
theorem settles_iff_handledRight (data : FwbankEventData) (e : List Field)
    (hbank : AtMostOne "bank_id".toList e) (hstatus : AtMostOne "status".toList e) :
    Settles (printNat data.bandId.toNat) e ↔ HandledRight data e := by
  rw [handledRight_iff data e hbank hstatus]
  induction e with
  | nil => exact iff_of_true (settles_nil _) fun h => List.not_mem_nil h.2.1
  | cons f rest ih =>
    obtain ⟨name, v⟩ := f
    have hne : "status".toList ≠ "bank_id".toList := by decide
    rw [foreign_cons, statusFirst]
    by_cases hname : name = "status".toList
    · subst hname
      have hno := fun s => reports_of_absent s rest hstatus.absent
      rw [reports_cons, or_iff_right fun h => hne h.1, or_iff_left (hno _), if_pos rfl, and_iff_right rfl]
      by_cases havail : v = "Available".toList
      · subst havail
        refine (settles_available _ rest).trans ?_
        constructor
        · exact fun h hc => h.own hc.1
        · intro h
          refine ⟨fun hf => h ⟨hf, rfl, rfl⟩, hno _, fun g hg => ?_⟩
          have hmem := List.mem_filter.mp (List.mem_of_getLast? hg)
          exact absurd (of_decide_eq_true hmem.2) (hstatus.absent g hmem.1)
      · have hf : ("status".toList, v) ≠ available := fun h => havail (Prod.mk.inj h).2
        rw [settles_cons _ _ _ hf, ih hbank.tail hstatus.tail]
        exact iff_of_true (fun _ hc => hno _ hc.2.1) fun hc => havail hc.2.1
    · have hf : (name, v) ≠ available := fun h => hname (Prod.mk.inj h).1
      have hreports : Reports "Available".toList ((name, v) :: rest) ↔
          Reports "Available".toList rest :=
        (reports_cons _ name v rest).trans (or_iff_right fun h => hname h.1)
      rw [settles_cons _ _ _ hf, ih hbank.tail hstatus.tail, hreports, if_neg hname]
      by_cases hid : name = "bank_id".toList
      · subst hid
        have hno := foreign_of_absent (printNat data.bandId.toNat) rest hbank.absent
        rw [if_pos rfl]
        exact iff_of_true (fun _ hc => hno hc.1) fun hc => Bool.false_ne_true hc.2.2
      · have hpass : scanFields (printNat data.bandId.toNat) [(name, v)] = .finished := by
          rw [scanFields, if_neg fun h => hid h.1, if_neg fun h => hname h.1,
            if_neg fun h => hname h.1]
          rfl
        rw [or_iff_right fun h => hid h.1, if_neg hid]
        exact ⟨fun h => h hpass, fun h _ => h⟩

/-! ### All events -/

/-- Both waits for an upgrade of `bank`, given the same events. -/
def joint (bank : UInt32) (now : ℕ) (es : List (List Field)) : Waiters × List Bool :=
  run (Waiters.step (idText bank.toNat)) (Waiters.start bank now) es

theorem receiveOf_data (data : FwbankEventData) (o : Scan) :
    (receiveOf data o).1.bandId = data.bandId ∧
      (receiveOf data o).1.registered = (data.registered && !(clientOf o).2) ∧
      (receiveOf data o).2 = (clientOf o).1 := by
  cases o with
  | returned => exact ⟨rfl, (Bool.and_true _).symm, rfl⟩
  | refreshed => exact ⟨rfl, (Bool.and_false _).symm, rfl⟩
  | finished => exact ⟨rfl, (Bool.and_false _).symm, rfl⟩

/-- While the daemon listens it listens for `bank` and has not started a dump. -/
structure Waiters.Listens (bank : UInt32) (w : Waiters) : Prop where
  bandId : w.data.bandId = bank
  undumped : w.data.registered = true → w.dumped = false

theorem step_closed (bankId : Str) (w : Waiters) (e : List Field) (hw : w.Agree)
    (h : w.data.registered = false) : w.step bankId e = (w, false) := by
  obtain ⟨data, dumped, waiting, status⟩ := w
  obtain rfl : waiting = false := hw.1.trans h
  change data.registered = false at h
  simp only [Waiters.step, h, Bool.false_eq_true, if_false, Bool.or_false, Bool.false_and]

theorem step_daemon (bankId : Str) (w : Waiters) (e : List Field)
    (h : w.data.registered = true) :
    (w.step bankId e).1.data =
        (receiveOf w.data (scanFields (printNat w.data.bandId.toNat) e)).1 ∧
      (w.step bankId e).1.dumped =
        (w.dumped || (clientOf (scanFields (printNat w.data.bandId.toNat) e)).1) := by
  have hstarts := (receiveOf_data w.data (scanFields (printNat w.data.bandId.toNat) e)).2.2
  simp only [Waiters.step, h, if_true, receive_eq, hstarts, and_self]

theorem step_client (bankId : Str) (w : Waiters) (e : List Field) (h : w.waiting = true) :
    ((w.step bankId e).1.status, !(w.step bankId e).1.waiting) =
      dmubusReceiveSysupgrade bankId w.status e := by
  simp only [Waiters.step, h, if_true, Bool.true_and, Bool.not_not]

theorem step_listens (bank : UInt32) (bankId : Str) (w : Waiters) (e : List Field)
    (hw : w.Listens bank) : (w.step bankId e).1.Listens bank := by
  by_cases h : w.data.registered = true
  · obtain ⟨hdata, hdumped⟩ := step_daemon bankId w e h
    obtain ⟨hid, hreg, -⟩ := receiveOf_data w.data (scanFields (printNat w.data.bandId.toNat) e)
    refine ⟨?_, ?_⟩
    · rw [hdata, hid]
      exact hw.bandId
    · rw [hdata, hreg, hdumped, hw.undumped h]
      cases scanFields (printNat w.data.bandId.toNat) e with
      | returned => exact fun _ => rfl
      | refreshed => exact fun hc => by simp [clientOf] at hc
      | finished => exact fun _ => rfl
  · have hsame : (w.step bankId e).1.data = w.data := by
      simp only [Waiters.step, if_neg h]
    refine ⟨?_, ?_⟩
    · rw [hsame]
      exact hw.bandId
    · rw [hsame]
      exact fun hc => absurd hc h

/-- An event met by both leaves them in agreement exactly when it settles. -/
theorem step_agree_iff (bank : UInt32) (w : Waiters) (e : List Field) (hw : w.Listens bank)
    (hagree : w.Agree) :
    (w.step (printNat bank.toNat) e).1.Agree ↔
      (w.data.registered = true → Settles (printNat bank.toNat) e) := by
  by_cases h : w.data.registered = true
  · have hwaiting : w.waiting = true := hagree.1.trans h
    have hstatus : w.status = false := hagree.2.trans (hw.undumped h)
    obtain ⟨hdata, hdumped⟩ := step_daemon (printNat bank.toNat) w e h
    have hclient := step_client (printNat bank.toNat) w e hwaiting
    rw [hw.bandId] at hdata hdumped
    rw [hw.undumped h, Bool.false_or] at hdumped
    obtain ⟨-, hreg, -⟩ := receiveOf_data w.data (scanFields (printNat bank.toNat) e)
    rw [h, Bool.true_and] at hreg
    rw [hstatus] at hclient
    rw [← receive_eq_clientOf_iff, ← hclient, Waiters.Agree, hdata, hreg, hdumped]
    rw [Prod.ext_iff]
    constructor
    · rintro ⟨hend, hkept⟩ -
      exact ⟨hkept, by rw [hend, Bool.not_not]⟩
    · intro hsame
      obtain ⟨hkept, hend⟩ := hsame h
      exact ⟨by rw [← hend, Bool.not_not], hkept⟩
  · rw [step_closed _ w e hagree ((Bool.not_eq_true _).mp h)]
    exact iff_of_true hagree fun hc => absurd hc h

theorem run_status (bankId : Str) (w : Waiters) (es : List (List Field)) :
    (run (Waiters.step bankId) w es).1.status =
      if w.waiting then dmubusWaitForEvent bankId w.status es else w.status := by
  induction es generalizing w with
  | nil =>
    rw [run_nil, dmubusWaitForEvent, ite_self]
  | cons e es ih =>
    rw [run_cons_state, ih]
    by_cases h : w.waiting = true
    · have hclient := step_client bankId w e h
      rw [if_pos h, dmubusWaitForEvent, ← hclient]
      cases (w.step bankId e).1.waiting <;> rfl
    · have hclosed : (w.step bankId e).1.waiting = false ∧
          (w.step bankId e).1.status = w.status := by
        simp only [Waiters.step, if_neg h, Bool.not_true, Bool.and_false, and_self]
      rw [if_neg h, hclosed.1, hclosed.2]
      rfl

theorem run_dumped (bankId : Str) (w : Waiters) (es : List (List Field)) :
    (run (Waiters.step bankId) w es).1.dumped = true ↔
      w.dumped = true ∨ true ∈ (run (Waiters.step bankId) w es).2 := by
  induction es generalizing w with
  | nil =>
    rw [run_nil]
    exact (or_iff_left List.not_mem_nil).symm
  | cons e es ih =>
    have hstep : (w.step bankId e).1.dumped = (w.dumped || (w.step bankId e).2) := rfl
    rw [run_cons_state, run_cons_outputs, ih, hstep, Bool.or_eq_true, List.mem_cons, or_assoc,
      @eq_comm Bool true]

def ownBankAvailable : List (List Field) :=
  [[("status".toList, "Downloading".toList), ("bank_id".toList, "2".toList)],
    [("bank_id".toList, "1".toList), ("status".toList, "Available".toList)],
    [("bank_id".toList, "2".toList), ("status".toList, "Available".toList)]]

end Sysmngr.FwImages
