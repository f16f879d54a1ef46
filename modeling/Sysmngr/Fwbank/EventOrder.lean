import Sysmngr.Attributes
import Sysmngr.Fwbank.Listener

/-!
# The order of an event's attributes (`fwbank.c`)

The handler of `sysupgrade` events acts on the attributes as they come. What it does
depends on their order only for another bank's event that is `Available`: its status is
acted on unless the bank id has been met before it.
-/

namespace Sysmngr.Fwbank
open Text Attributes

def Foreign (bankIdStr : Str) (fields : List Field) : Prop :=
  ∃ f ∈ fields, f.1 = "bank_id".toList ∧ f.2 ≠ bankIdStr

instance (bankIdStr : Str) (fields : List Field) : Decidable (Foreign bankIdStr fields) :=
  inferInstanceAs (Decidable (∃ f ∈ fields, _))

def Reports (status : Str) (fields : List Field) : Prop := ("status".toList, status) ∈ fields

instance (status : Str) (fields : List Field) : Decidable (Reports status fields) :=
  inferInstanceAs (Decidable (_ ∈ _))

/-! ### The scan -/

theorem foreign_cons (id name v : Str) (rest : List Field) :
    Foreign id ((name, v) :: rest) ↔ (name = "bank_id".toList ∧ v ≠ id) ∨ Foreign id rest := by
  simp [Foreign]

theorem reports_cons (status name v : Str) (rest : List Field) :
    Reports status ((name, v) :: rest) ↔
      (name = "status".toList ∧ v = status) ∨ Reports status rest := by
  simp [Reports, eq_comm]

theorem reports_of_absent (status : Str) (rest : List Field)
    (h : ∀ f ∈ rest, f.1 ≠ "status".toList) : ¬Reports status rest :=
  fun hr => h _ hr rfl

theorem foreign_of_absent (id : Str) (rest : List Field)
    (h : ∀ f ∈ rest, f.1 ≠ "bank_id".toList) : ¬Foreign id rest := by
  rintro ⟨f, hf, hname, -⟩
  exact h f hf hname

/-- How the scan of an event ends, by the values of its bank id and status and, for
another bank that is `Available`, by which of them comes first. -/
theorem scanFields_spec (id : Str) (fields : List Field)
    (hbank : AtMostOne "bank_id".toList fields) (hstatus : AtMostOne "status".toList fields) :
    scanFields id fields =
      if Foreign id fields then
        if Reports "Available".toList fields ∧ statusFirst fields = true then .refreshed
        else .returned
      else if Reports "Downloading".toList fields then .returned
      else if Reports "Available".toList fields then .refreshed
      else .finished := by
  induction fields with
  | nil => rfl
  | cons f rest ih =>
    obtain ⟨name, v⟩ := f
    have hrest := ih hbank.tail hstatus.tail
    have hne : "status".toList ≠ "bank_id".toList := by decide
    have hda : "Downloading".toList ≠ "Available".toList := by decide
    by_cases hname : name = "status".toList
    · subst hname
      -- the one status of the event comes first
      have hno := fun s => reports_of_absent s rest hstatus.absent
      have hfirst : statusFirst (("status".toList, v) :: rest) = true := by
        rw [statusFirst, if_pos rfl]
      have hforeign : Foreign id (("status".toList, v) :: rest) ↔ Foreign id rest := by
        rw [foreign_cons]
        exact or_iff_right fun h => hne h.1
      have hreports : ∀ s, Reports s (("status".toList, v) :: rest) ↔ v = s := by
        intro s
        rw [reports_cons, or_iff_left (hno s)]
        exact and_iff_right rfl
      simp only [hforeign, hreports, hfirst, and_true]
      rw [scanFields, if_neg fun h => hne h.1]
      by_cases hdown : v = "Downloading".toList
      · subst hdown
        rw [if_pos ⟨rfl, rfl⟩]
        simp only [hda, if_false, if_true, ite_self]
      · by_cases havail : v = "Available".toList
        · subst havail
          rw [if_neg fun h => hda h.2.symm, if_pos ⟨rfl, rfl⟩]
          simp only [hda.symm, if_false, if_true, ite_self]
        · rw [if_neg fun h => hdown h.2, if_neg fun h => havail h.2, hrest, if_neg havail,
            if_neg hdown, if_neg havail]
          simp only [hno, false_and, if_false]
    · by_cases hid : name = "bank_id".toList
      · subst hid
        have hno := foreign_of_absent id rest hbank.absent
        have hfirst : statusFirst (("bank_id".toList, v) :: rest) = false := by
          rw [statusFirst, if_neg hname, if_pos rfl]
        have hreports : ∀ s, Reports s (("bank_id".toList, v) :: rest) ↔ Reports s rest := by
          intro s
          rw [reports_cons]
          exact or_iff_right fun h => hname h.1
        simp only [foreign_cons, hno, or_false, true_and, hreports, hfirst, Bool.false_eq_true,
          and_false, if_false]
        by_cases heq : v = id
        · rw [scanFields, if_neg fun h => h.2 heq, if_neg fun h => hname h.1,
            if_neg fun h => hname h.1, hrest]
          simp only [hno, heq, ne_eq, not_true_eq_false, if_false]
        · rw [scanFields, if_pos ⟨rfl, heq⟩, if_pos heq]
      · have hfirst : statusFirst ((name, v) :: rest) = statusFirst rest := by
          rw [statusFirst, if_neg hname, if_neg hid]
        have hforeign : Foreign id ((name, v) :: rest) ↔ Foreign id rest := by
          rw [foreign_cons]
          exact or_iff_right fun h => hid h.1
        have hreports : ∀ s, Reports s ((name, v) :: rest) ↔ Reports s rest := by
          intro s
          rw [reports_cons]
          exact or_iff_right fun h => hname h.1
        rw [scanFields, if_neg fun h => hid h.1, if_neg fun h => hname h.1,
          if_neg fun h => hname h.1, hrest]
        simp only [hforeign, hreports, hfirst]

/-! ### Events handled right -/

/-- The event starts a dump exactly when it is `Available` and not of another bank, and
another bank's event does nothing. -/
structure HandledRight (data : FwbankEventData) (msg : List Field) : Prop where
  starts : (fwbankReceiveSysupgrade data msg).2 = true ↔
    Reports "Available".toList msg ∧ ¬Foreign (printNat data.bandId.toNat) msg
  foreign : Foreign (printNat data.bandId.toNat) msg →
    fwbankReceiveSysupgrade data msg = (data, false)

def OrderFree (data : FwbankEventData) (fields : List Field) : Prop :=
  ∀ msg, msg.Perm fields → HandledRight data msg ∧
    fwbankReceiveSysupgrade data msg = fwbankReceiveSysupgrade data fields

theorem foreign_perm (id : Str) (as bs : List Field) (h : as.Perm bs) :
    Foreign id as ↔ Foreign id bs := by
  simp only [Foreign, h.mem_iff]

theorem reports_perm (status : Str) (as bs : List Field) (h : as.Perm bs) :
    Reports status as ↔ Reports status bs := h.mem_iff

theorem reports_unique (s t : Str) (fields : List Field) (h : AtMostOne "status".toList fields)
    (hs : Reports s fields) (ht : Reports t fields) : s = t := by
  induction fields with
  | nil => exact absurd hs List.not_mem_nil
  | cons f rest ih =>
    obtain ⟨name, v⟩ := f
    rw [reports_cons] at hs ht
    by_cases hname : name = "status".toList
    · subst hname
      have hno := fun s => reports_of_absent s rest h.absent
      rw [or_iff_left (hno s)] at hs
      rw [or_iff_left (hno t)] at ht
      exact hs.2.symm.trans ht.2
    · rw [or_iff_right fun hc => hname hc.1] at hs ht
      exact ih h.tail hs ht

section Order
variable (data : FwbankEventData) (fields : List Field)
  (hbank : AtMostOne "bank_id".toList fields) (hstatus : AtMostOne "status".toList fields)
include hbank hstatus

/-- An event is handled right unless it is another bank's, is `Available` and says so
before it names its bank. -/
theorem handledRight_iff : HandledRight data fields ↔
    ¬(Foreign (printNat data.bandId.toNat) fields ∧ Reports "Available".toList fields ∧
      statusFirst fields = true) := by
  have hspec := scanFields_spec (printNat data.bandId.toNat) fields hbank hstatus
  have hreceive := receive_eq data fields
  by_cases hforeign : Foreign (printNat data.bandId.toNat) fields
  · by_cases hleak : Reports "Available".toList fields ∧ statusFirst fields = true
    · rw [if_pos hforeign, if_pos hleak] at hspec
      refine iff_of_false (fun h => ?_) fun h => h ⟨hforeign, hleak⟩
      have heq := h.foreign hforeign
      rw [hreceive, hspec] at heq
      simp [receiveOf] at heq
    · rw [if_pos hforeign, if_neg hleak] at hspec
      refine iff_of_true ⟨?_, fun _ => ?_⟩ fun h => hleak h.2
      · rw [hreceive, hspec]
        exact iff_of_false (by simp [receiveOf]) fun h => h.2 hforeign
      · rw [hreceive, hspec]
        rfl
  · rw [if_neg hforeign] at hspec
    refine iff_of_true ⟨?_, fun h => absurd h hforeign⟩ fun h => hforeign h.1
    rw [hreceive, hspec, and_iff_left hforeign]
    by_cases hdown : Reports "Downloading".toList fields
    · rw [if_pos hdown]
      refine iff_of_false (by simp [receiveOf]) fun havail => ?_
      exact absurd (reports_unique _ _ fields hstatus hdown havail) (by decide)
    · rw [if_neg hdown]
      by_cases havail : Reports "Available".toList fields
      · rw [if_pos havail]
        exact iff_of_true rfl havail
      · rw [if_neg havail]
        exact iff_of_false (by simp [receiveOf]) havail

/-- The order of an event's attributes plays no part, and it is handled right in every
order, exactly when it is not another bank's event that is `Available`. -/
theorem orderFree_iff : OrderFree data fields ↔
    ¬(Foreign (printNat data.bandId.toNat) fields ∧ Reports "Available".toList fields) := by
  constructor
  · rintro h ⟨hforeign, havail⟩
    -- the order with the status in front
    have hperm : (("status".toList, "Available".toList) ::
        fields.erase ("status".toList, "Available".toList)).Perm fields :=
      (List.perm_cons_erase havail).symm
    have hright := (handledRight_iff data _ (hbank.perm hperm) (hstatus.perm hperm)).mp
      (h _ hperm).1
    exact hright ⟨(foreign_perm _ _ _ hperm).mpr hforeign,
      (reports_perm _ _ _ hperm).mpr havail, rfl⟩
  · intro hno msg hperm
    have hforeign := foreign_perm (printNat data.bandId.toNat) msg fields hperm
    have hreports := fun s => reports_perm s msg fields hperm
    refine ⟨(handledRight_iff data msg (hbank.perm hperm) (hstatus.perm hperm)).mpr ?_, ?_⟩
    · rintro ⟨hf, ha, -⟩
      exact hno ⟨hforeign.mp hf, (hreports _).mp ha⟩
    · rw [receive_eq, receive_eq,
        scanFields_spec _ msg (hbank.perm hperm) (hstatus.perm hperm),
        scanFields_spec _ fields hbank hstatus]
      simp only [hforeign, hreports]
      by_cases hf : Foreign (printNat data.bandId.toNat) fields
      · have ha : ¬Reports "Available".toList fields := fun ha => hno ⟨hf, ha⟩
        simp only [ha, false_and]
      · simp only [hf, if_false]

end Order

def awaitingBankOne : FwbankEventData := ⟨1, true, some 120000⟩

def availableFirst (bank : Str) : List Field :=
  [("status".toList, "Available".toList), ("bank_id".toList, bank)]

theorem orderFree_own_bank : OrderFree awaitingBankOne (availableFirst "1".toList) :=
  (orderFree_iff awaitingBankOne (availableFirst "1".toList) (by decide) (by decide)).mpr
    (by decide)

/-- Bank 2 is reported, status first, while bank 1 is awaited. -/
theorem foreign_event_refreshes :
    ¬∀ data fields, AtMostOne "bank_id".toList fields → AtMostOne "status".toList fields →
      OrderFree data fields := by
  intro hall
  have h := (hall awaitingBankOne (availableFirst "2".toList) (by decide) (by decide) _
    (List.Perm.refl _)).1.foreign (by decide)
  exact absurd (congrArg Prod.snd h) (by decide)

end Sysmngr.Fwbank
