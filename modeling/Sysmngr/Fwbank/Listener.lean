import Sysmngr.Fwbank.Dump

/-!
# Waiting for `sysupgrade` events (`fwbank.c`)

Every upgrade whose script answered ok waits for the event that its bank is
`Available`, to start a dump then. All of them wait in the one listener
`g_fwbank_event_data`: its bank id, its event handler and its timer.
-/

namespace Sysmngr.Fwbank
open Text Blobmsg Machine

/-- `struct fwbank_event_data` with the state of its handler and of its timer, armed
for a time in milliseconds. -/
structure FwbankEventData where
  bandId : UInt32
  registered : Bool
  deadline : Option ℕ
  deriving DecidableEq

/-- `g_fwbank_event_data.timeout`, in seconds. -/
def sysupgradeTimeout : ℕ := 120

def fwbankListenTimeout (data : FwbankEventData) : FwbankEventData :=
  { data with registered := false, deadline := none }

def fwbankWaitForSysupgradeEvent (bankId : UInt32) (now : ℕ) : FwbankEventData :=
  ⟨bankId, true, some (now + sysupgradeTimeout * 1000)⟩

/-- How the loop over the attributes of an event ends: by a `return`, by the `break`
after a dump is started, or behind the last attribute. -/
inductive Scan where
  | returned
  | refreshed
  | finished
  deriving DecidableEq

/-- The attributes of an event, by name and string value. -/
abbrev Field := Str × Str

def scanFields (bankIdStr : Str) : List Field → Scan
  | [] => .finished
  | (name, attrVal) :: rest =>
    if name = "bank_id".toList ∧ attrVal ≠ bankIdStr then .returned
    else if name = "status".toList ∧ attrVal = "Downloading".toList then .returned
    else if name = "status".toList ∧ attrVal = "Available".toList then .refreshed
    else scanFields bankIdStr rest

/-- The listener after an event, and whether the event started a dump. The bank id
is unsigned, so the check that it is not negative never fails. -/
def fwbankReceiveSysupgrade (data : FwbankEventData) (msg : List Field) :
    FwbankEventData × Bool :=
  match scanFields (snprintf 16 (printNat data.bandId.toNat)) msg with
  | .returned => (data, false)
  | .refreshed => (fwbankListenTimeout data, true)
  | .finished => (fwbankListenTimeout data, false)

def receiveOf (data : FwbankEventData) : Scan → FwbankEventData × Bool
  | .returned => (data, false)
  | .refreshed => (fwbankListenTimeout data, true)
  | .finished => (fwbankListenTimeout data, false)

theorem receive_eq (data : FwbankEventData) (msg : List Field) :
    fwbankReceiveSysupgrade data msg =
      receiveOf data (scanFields (printNat data.bandId.toNat) msg) := by
  have hcut : snprintf 16 (printNat data.bandId.toNat) = printNat data.bandId.toNat := by
    apply snprintf_of_le
    have hlt := data.bandId.toNat_lt
    have hlen := printNat_length_le data.bandId.toNat 10 (by decide) (by omega)
    omega
  unfold fwbankReceiveSysupgrade
  rw [hcut]
  rfl

/-! ### Events of the script -/

inductive Status where
  | downloading
  | available
  deriving DecidableEq

def Status.text : Status → Str
  | .downloading => "Downloading".toList
  | .available => "Available".toList

/-- A `sysupgrade` event of a bank: its id and one status, in either order and among
any other attributes. -/
structure Sysupgrade where
  bank : UInt32
  status : Status
  fields : List Field
  bankId : ∀ v, ("bank_id".toList, v) ∈ fields ↔ v = printNat bank.toNat
  statusText : ∀ v, ("status".toList, v) ∈ fields ↔ v = status.text

def statusFirst : List Field → Bool
  | [] => false
  | (name, _) :: rest =>
    if name = "status".toList then true
    else if name = "bank_id".toList then false
    else statusFirst rest

theorem scanFields_eq (id bank : Str) (status : Status) (fields : List Field)
    (hbank : ∀ v, ("bank_id".toList, v) ∈ fields → v = bank)
    (hstatus : ∀ v, ("status".toList, v) ∈ fields → v = status.text)
    (hsome : ∃ v, ("status".toList, v) ∈ fields) :
    scanFields id fields =
      if status = .downloading then .returned
      else if bank = id ∨ statusFirst fields = true then .refreshed
      else .returned := by
  induction fields with
  | nil =>
    obtain ⟨v, hv⟩ := hsome
    exact absurd hv (List.not_mem_nil)
  | cons f rest ih =>
    obtain ⟨name, attrVal⟩ := f
    have hbank' : ∀ v, ("bank_id".toList, v) ∈ rest → v = bank :=
      fun v hv => hbank v (List.mem_cons_of_mem _ hv)
    have hstatus' : ∀ v, ("status".toList, v) ∈ rest → v = status.text :=
      fun v hv => hstatus v (List.mem_cons_of_mem _ hv)
    by_cases hname : name = "status".toList
    · subst hname
      obtain rfl := hstatus attrVal (List.mem_cons_self ..)
      have hne : "status".toList ≠ "bank_id".toList := by decide
      rw [scanFields, if_neg (fun h => hne h.1), statusFirst, if_pos rfl]
      cases status with
      | downloading => rfl
      | available =>
        rw [if_neg (by decide), if_pos ⟨rfl, rfl⟩, if_neg (by decide), if_pos (Or.inr rfl)]
    · have hsome' : ∃ v, ("status".toList, v) ∈ rest := by
        obtain ⟨v, hv⟩ := hsome
        rcases List.mem_cons.mp hv with heq | hv
        · exact absurd (Prod.mk.inj heq).1.symm hname
        · exact ⟨v, hv⟩
      have hrest := ih hbank' hstatus' hsome'
      by_cases hid : name = "bank_id".toList
      · subst hid
        obtain rfl := hbank attrVal (List.mem_cons_self ..)
        rw [scanFields, statusFirst, if_neg hname, if_pos rfl]
        by_cases heq : attrVal = id
        · rw [if_neg (fun h => h.2 heq), if_neg (fun h => hname h.1), if_neg (fun h => hname h.1),
            hrest]
          simp only [heq, true_or, if_true]
        · rw [if_pos ⟨rfl, heq⟩]
          simp [heq]
      · rw [scanFields, if_neg (fun h => hid h.1), if_neg (fun h => hname h.1),
          if_neg (fun h => hname h.1), statusFirst, if_neg hname, if_neg hid]
        exact hrest

/-- An event of a bank starts a dump exactly when it is `Available` and of the bank
waited for, or names its status first. -/
theorem fwbankReceiveSysupgrade_eq (data : FwbankEventData) (m : Sysupgrade) :
    fwbankReceiveSysupgrade data m.fields =
      if m.status = .available ∧ (m.bank = data.bandId ∨ statusFirst m.fields = true) then
        (fwbankListenTimeout data, true)
      else (data, false) := by
  have hid : printNat m.bank.toNat = printNat data.bandId.toNat ↔ m.bank = data.bandId :=
    printNat_injective.eq_iff.trans UInt32.toNat_inj
  rw [receive_eq, scanFields_eq _ (printNat m.bank.toNat) m.status m.fields (fun v => (m.bankId v).mp)
    (fun v => (m.statusText v).mp) ⟨_, (m.statusText _).mpr rfl⟩]
  cases hs : m.status with
  | downloading => rfl
  | available =>
    by_cases h : m.bank = data.bandId ∨ statusFirst m.fields = true
    · simp [hid, h, receiveOf]
    · simp [hid, h, receiveOf]

/-! ### Upgrades in flight -/

/-- The listener, the time, and the upgrades whose bank has not been reported
`Available`, each with the time of its finish callback. -/
structure Listening where
  data : FwbankEventData
  now : ℕ
  awaiting : List (UInt32 × ℕ)

def Listening.initial : Listening := ⟨⟨0, false, none⟩, 0, []⟩

inductive ListenEvent where
  | elapse (ms : ℕ)
  | finish (r : Reads) (bankId : UInt32)
  | sysupgrade (m : Sysupgrade)
  | timer

/-- What is seen of an event: whether it is the report an upgrade waits for, no later
than 120 seconds after its finish callback, and whether it starts a dump. -/
structure Seen where
  due : Bool
  started : Bool
  deriving DecidableEq

def InTime (now : ℕ) (u : UInt32 × ℕ) : Prop := now ≤ u.2 + sysupgradeTimeout * 1000

instance (now : ℕ) (u : UInt32 × ℕ) : Decidable (InTime now u) :=
  inferInstanceAs (Decidable (_ ≤ _))

def Listening.heard (w : Listening) (m : Sysupgrade) : FwbankEventData × Bool :=
  if w.data.registered then fwbankReceiveSysupgrade w.data m.fields else (w.data, false)

section Listener
variable (parse : Str → Option (List Attr))

def Listening.step (w : Listening) (e : ListenEvent) : Listening × Seen :=
  match e with
  | .elapse ms => ({ w with now := w.now + ms }, ⟨false, false⟩)
  | .finish r bankId =>
    if (fwbankUpgradeFinishCallback parse r).next then
      ({ w with
          data := fwbankWaitForSysupgradeEvent bankId w.now
          awaiting := w.awaiting ++ [(bankId, w.now)] }, ⟨false, false⟩)
    else (w, ⟨false, false⟩)
  | .sysupgrade m =>
    if m.status = .available then
      ({ w with data := (w.heard m).1, awaiting := w.awaiting.filter fun u => u.1 ≠ m.bank },
        ⟨w.awaiting.any fun u => u.1 = m.bank ∧ InTime w.now u, (w.heard m).2⟩)
    else ({ w with data := (w.heard m).1 }, ⟨false, (w.heard m).2⟩)
  | .timer =>
    match w.data.deadline with
    | some t => if t ≤ w.now then ({ w with data := fwbankListenTimeout w.data }, ⟨false, false⟩)
      else (w, ⟨false, false⟩)
    | none => (w, ⟨false, false⟩)

def EachStarts (log : List Seen) : Prop := ∀ o ∈ log, o.due = true → o.started = true

/-- After every report waited for, by it or later, a dump is started. -/
def EachFollowed (log : List Seen) : Prop :=
  ∀ pre o post, log = pre ++ o :: post → o.due = true → ∃ o' ∈ o :: post, o'.started = true

theorem eachFollowed_of_eachStarts (log : List Seen) (h : EachStarts log) : EachFollowed log := by
  rintro pre o post rfl hdue
  exact ⟨o, List.mem_cons_self .., h o (by simp) hdue⟩

/-- No upgrade on another bank finishes while one is waited for in time, no report on
another bank that names its status first comes then, and the timer does not run in the
last millisecond of that time. -/
def Listening.Undisturbed (w : Listening) : ListenEvent → Prop
  | .elapse _ => True
  | .finish r bankId => (fwbankUpgradeFinishCallback parse r).next = true →
      ∀ u ∈ w.awaiting, InTime w.now u → u.1 = bankId
  | .sysupgrade m => m.status = .available → statusFirst m.fields = true →
      ∀ u ∈ w.awaiting, InTime w.now u → u.1 = m.bank
  | .timer => ∀ u ∈ w.awaiting, w.data.deadline = some w.now →
      w.now ≠ u.2 + sysupgradeTimeout * 1000

structure Listening.Serves (w : Listening) : Prop where
  past : ∀ u ∈ w.awaiting, u.2 ≤ w.now
  listens : ∀ u ∈ w.awaiting, InTime w.now u → w.data.registered = true ∧ w.data.bandId = u.1 ∧
    ∃ t, w.data.deadline = some t ∧ u.2 + sysupgradeTimeout * 1000 ≤ t

theorem heard_eq (w : Listening) (m : Sysupgrade) :
    w.heard m =
      if w.data.registered = true ∧ m.status = .available ∧
          (m.bank = w.data.bandId ∨ statusFirst m.fields = true) then
        (fwbankListenTimeout w.data, true)
      else (w.data, false) := by
  unfold Listening.heard
  rw [fwbankReceiveSysupgrade_eq]
  by_cases hreg : w.data.registered = true
  · simp only [hreg, if_true, true_and]
  · rw [if_neg hreg, if_neg (fun h => hreg h.1)]

theorem step_available (w : Listening) (m : Sysupgrade) (h : m.status = .available) :
    w.step parse (.sysupgrade m) =
      ({ w with data := (w.heard m).1, awaiting := w.awaiting.filter fun u => u.1 ≠ m.bank },
        ⟨w.awaiting.any fun u => u.1 = m.bank ∧ InTime w.now u, (w.heard m).2⟩) := by
  simp only [Listening.step, if_pos h]

theorem step_downloading (w : Listening) (m : Sysupgrade) (h : m.status ≠ .available) :
    w.step parse (.sysupgrade m) = (w, ⟨false, false⟩) := by
  simp only [Listening.step, if_neg h]
  rw [heard_eq, if_neg (fun hc => h hc.2.1)]

theorem step_due (w : Listening) (e : ListenEvent) (hw : w.Serves)
    (h : (w.step parse e).2.due = true) : (w.step parse e).2.started = true := by
  cases e with
  | elapse ms => simp [Listening.step] at h
  | finish r bankId =>
    simp only [Listening.step] at h
    split at h <;> simp at h
  | sysupgrade m =>
    by_cases havail : m.status = .available
    · rw [step_available parse w m havail] at h ⊢
      obtain ⟨u, hu, hdue⟩ := List.any_eq_true.mp h
      obtain ⟨hbank, htime⟩ := of_decide_eq_true hdue
      obtain ⟨hreg, hid, -⟩ := hw.listens u hu htime
      rw [heard_eq, if_pos ⟨hreg, havail, Or.inl (hbank.symm.trans hid.symm)⟩]
    · rw [step_downloading parse w m havail] at h
      simp at h
  | timer =>
    simp only [Listening.step] at h
    split at h
    · split at h <;> simp at h
    · simp at h

theorem step_past (w : Listening) (e : ListenEvent) (hw : ∀ u ∈ w.awaiting, u.2 ≤ w.now) :
    ∀ u ∈ (w.step parse e).1.awaiting, u.2 ≤ (w.step parse e).1.now := by
  cases e with
  | elapse ms => exact fun u hu => (hw u hu).trans (Nat.le_add_right _ _)
  | finish r bankId =>
    simp only [Listening.step]
    split
    · intro u hu
      rcases List.mem_append.mp hu with hu | hu
      · exact hw u hu
      · rw [List.mem_singleton.mp hu]
    · exact hw
  | sysupgrade m =>
    by_cases havail : m.status = .available
    · rw [step_available parse w m havail]
      exact fun u hu => hw u (List.mem_filter.mp hu).1
    · rw [step_downloading parse w m havail]
      exact hw
  | timer =>
    simp only [Listening.step]
    split
    · split <;> exact hw
    · exact hw

theorem step_serves (w : Listening) (e : ListenEvent) (hw : w.Serves)
    (he : w.Undisturbed parse e) : (w.step parse e).1.Serves := by
  refine ⟨step_past parse w e hw.past, ?_⟩
  cases e with
  | elapse ms =>
    intro u hu htime
    exact hw.listens u hu ((Nat.le_add_right _ _).trans htime)
  | finish r bankId =>
    simp only [Listening.step]
    split
    · rename_i hnext
      intro u hu htime
      refine ⟨rfl, ?_, _, rfl, ?_⟩
      · rcases List.mem_append.mp hu with hu | hu
        · exact (he hnext u hu htime).symm
        · rw [List.mem_singleton.mp hu]
          rfl
      · rcases List.mem_append.mp hu with hu | hu
        · exact Nat.add_le_add_right (hw.past u hu) _
        · rw [List.mem_singleton.mp hu]
    · exact hw.listens
  | sysupgrade m =>
    by_cases havail : m.status = .available
    · rw [step_available parse w m havail]
      intro u hu htime
      obtain ⟨hu, hne⟩ := List.mem_filter.mp hu
      have hother : u.1 ≠ m.bank := of_decide_eq_true hne
      obtain ⟨hreg, hid, hdeadline⟩ := hw.listens u hu htime
      -- a report on another bank is passed over, or it names its status first
      have hpassed : w.heard m = (w.data, false) := by
        rw [heard_eq, if_neg]
        rintro ⟨-, -, hbank | hfirst⟩
        · exact hother (hid.symm.trans hbank.symm)
        · exact hother (he havail hfirst u hu htime)
      rw [hpassed]
      exact ⟨hreg, hid, hdeadline⟩
    · rw [step_downloading parse w m havail]
      exact hw.listens
  | timer =>
    simp only [Listening.step]
    split
    · rename_i t ht
      split
      · rename_i hdue
        intro u hu htime
        -- the timer runs after the time of every upgrade it was armed for, or in its last
        -- millisecond
        obtain ⟨-, -, t', ht', hle⟩ := hw.listens u hu htime
        obtain rfl : t = t' := Option.some.inj (ht.symm.trans ht')
        have hlast : w.now = u.2 + sysupgradeTimeout * 1000 :=
          Nat.le_antisymm htime (hle.trans hdue)
        have hnow : t = w.now := Nat.le_antisymm hdue (hlast ▸ hle)
        exact absurd hlast (he u hu (ht.trans (congrArg some hnow)))
      · exact hw.listens
    · exact hw.listens

theorem run_eachStarts (w : Listening) (es : List ListenEvent) (hw : w.Serves)
    (hP : Along (Listening.step parse) (Listening.Undisturbed parse) w es) :
    EachStarts (run (Listening.step parse) w es).2 := by
  induction es generalizing w with
  | nil => exact fun o ho => absurd ho (List.not_mem_nil)
  | cons e es ih =>
    intro o ho
    rcases List.mem_cons.mp ho with rfl | ho
    · exact step_due parse w e hw
    · exact ih (w.step parse e).1 (step_serves parse w e hw hP.1) hP.2 o ho

/-! ### Reports that find no listener -/

def report (bank : UInt32) (status : Status) : Sysupgrade where
  bank := bank
  status := status
  fields := [("bank_id".toList, printNat bank.toNat), ("status".toList, status.text)]
  bankId v := by simp
  statusText v := by simp

/-- An upgrade is waited for in time with the handler gone. -/
def Listening.Lost (w : Listening) : Prop :=
  w.data.registered = false ∧ ∃ u ∈ w.awaiting, InTime w.now u

theorem lost_unheard (w : Listening) (h : w.Lost) :
    ∃ e, (w.step parse e).2 = ⟨true, false⟩ := by
  obtain ⟨hreg, u, hu, htime⟩ := h
  have hdue : (w.awaiting.any fun v => v.1 = (report u.1 .available).bank ∧ InTime w.now v) = true :=
    List.any_eq_true.mpr ⟨u, hu, decide_eq_true ⟨rfl, htime⟩⟩
  refine ⟨.sysupgrade (report u.1 .available), ?_⟩
  rw [step_available parse w _ rfl, heard_eq, if_neg (fun h => by simp [hreg] at h), hdue]

theorem not_followed_of_last (log : List Seen) : ¬EachFollowed (log ++ [⟨true, false⟩]) := by
  intro h
  obtain ⟨o', ho', hstarted⟩ := h log ⟨true, false⟩ [] rfl rfl
  rw [List.mem_singleton.mp ho'] at hstarted
  exact absurd hstarted (by decide)

/-- A step that disturbs the waiting takes the handler away from an upgrade waited
for in time, or gives it to another bank, whose report then takes it away. -/
theorem disturbed_lost (w : Listening) (e : ListenEvent) (he : ¬w.Undisturbed parse e) :
    ∃ rest, (run (Listening.step parse) w (e :: rest)).1.Lost := by
  cases e with
  | elapse ms => exact absurd trivial he
  | finish r bankId =>
    simp only [Listening.Undisturbed, not_forall] at he
    obtain ⟨hnext, u, hu, htime, hother⟩ := he
    refine ⟨[.sysupgrade (report bankId .available)], ?_⟩
    have hstep : (w.step parse (.finish r bankId)).1 =
        { w with
          data := fwbankWaitForSysupgradeEvent bankId w.now
          awaiting := w.awaiting ++ [(bankId, w.now)] } := by
      simp only [Listening.step, if_pos hnext]
    rw [run_cons_state, hstep, run_cons_state, run_nil, step_available parse _ _ rfl, heard_eq,
      if_pos ⟨rfl, rfl, Or.inl rfl⟩]
    exact ⟨rfl, u, List.mem_filter.mpr ⟨List.mem_append_left _ hu, decide_eq_true hother⟩, htime⟩
  | sysupgrade m =>
    simp only [Listening.Undisturbed, not_forall] at he
    obtain ⟨havail, hfirst, u, hu, htime, hother⟩ := he
    refine ⟨[], ?_⟩
    rw [run_cons_state, run_nil, step_available parse w m havail]
    refine ⟨?_, u, List.mem_filter.mpr ⟨hu, decide_eq_true hother⟩, htime⟩
    by_cases hreg : w.data.registered = true
    · rw [heard_eq, if_pos ⟨hreg, havail, Or.inr hfirst⟩]
      rfl
    · rw [heard_eq, if_neg (fun h => hreg h.1)]
      exact Bool.not_eq_true _ ▸ hreg
  | timer =>
    simp only [Listening.Undisturbed, not_forall, not_not] at he
    obtain ⟨u, hu, hdeadline, hlast⟩ := he
    refine ⟨[], ?_⟩
    simp only [run_cons_state, run_nil, Listening.step, hdeadline, if_pos (le_refl _)]
    exact ⟨rfl, u, hu, hlast.le⟩

/-- Undisturbed, every report waited for starts a dump; a disturbed run can be run on
to a report after which none is started. -/
theorem undisturbed_reports_heard (es : List ListenEvent) :
    (Along (Listening.step parse) (Listening.Undisturbed parse) .initial es →
      EachStarts (run (Listening.step parse) .initial es).2 ∧
        EachFollowed (run (Listening.step parse) .initial es).2) ∧
    ∀ e, ¬(run (Listening.step parse) .initial es).1.Undisturbed parse e →
      ∃ rest, ¬EachFollowed (run (Listening.step parse) .initial (es ++ e :: rest)).2 := by
  constructor
  · have hinit : Listening.initial.Serves :=
      ⟨fun u hu => absurd hu (List.not_mem_nil), fun u hu => absurd hu (List.not_mem_nil)⟩
    intro hP
    have hstarts := run_eachStarts parse .initial es hinit hP
    exact ⟨hstarts, eachFollowed_of_eachStarts _ hstarts⟩
  · intro e he
    obtain ⟨rest, hlost⟩ := disturbed_lost parse _ e he
    have hstate := congrArg Prod.fst (run_append (Listening.step parse) .initial es (e :: rest))
    rw [← hstate] at hlost
    obtain ⟨last, hlast⟩ := lost_unheard parse _ hlost
    refine ⟨rest ++ [last], ?_⟩
    rw [← List.cons_append, ← List.append_assoc, run_append, run_cons_outputs, hlast]
    exact not_followed_of_last _

end Listener

/-! ### Two upgrades at once -/

def okText : Str := "\x7b\"result\":\"ok\"\x7d".toList

def okParse (s : Str) : Option (List Attr) :=
  if s = okText then some [.string "result" "ok".toList] else none

def twoUpgrades : List ListenEvent :=
  [.finish ⟨[okText], false⟩ 1, .finish ⟨[okText], false⟩ 2, .elapse 30000,
    .sysupgrade (report 1 .downloading), .sysupgrade (report 2 .available), .elapse 10000,
    .sysupgrade (report 1 .available)]

set_option maxRecDepth 8000 in
/-- The second upgrade takes the listener over, and its report ends the listening. -/
theorem first_upgrade_unheard :
    ¬∀ parse es, EachFollowed (run (Listening.step parse) .initial es).2 := by
  intro hall
  have hlog : (run (Listening.step okParse) .initial twoUpgrades).2 =
      [⟨false, false⟩, ⟨false, false⟩, ⟨false, false⟩, ⟨false, false⟩, ⟨true, true⟩,
        ⟨false, false⟩] ++ [⟨true, false⟩] := by
    decide
  have h := hall okParse twoUpgrades
  rw [hlog] at h
  exact not_followed_of_last _ h

end Sysmngr.Fwbank
