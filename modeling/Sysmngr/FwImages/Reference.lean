import Mathlib.Data.List.Nodup
import Sysmngr.FwImages.Available

/-!
# References to a bank

ActiveFirmwareImage and BootFirmwareImage name a bank by the alias of its instance,
`cpe-` and the id as `%d` prints it, and what is written to BootFirmwareImage comes back
as such an alias. The id is cut off behind the first `-` and read with `strtoul`, so ids
from 2^31 on pass through a second `-`.
-/

namespace Sysmngr.FwImages
open Text Uci Blobmsg Fwbank

/-! ### Getters -/

def getDeviceInfoFirmwareImageAlias (entry : Attr) : Str :=
  "cpe-".toList ++ getFwbankOptionValue entry "id"

/-- What `linker[16]` holds. -/
def linker (bankId : Str) : Str := snprintf 16 ("cpe-".toList ++ bankId)

/-- ActiveFirmwareImage and BootFirmwareImage differ in the option they look for;
`references` is the library's way from an alias to the path of its instance. -/
def getDeviceFwimage (references : Str → Str) (g : FwbankDump) (optionName : String) : Str :=
  let bankId := getFwbankBankId g optionName
  if bankId.length = 0 then [] else references (linker bankId)

def getDeviceActiveFwimage (references : Str → Str) (g : FwbankDump) : Str :=
  getDeviceFwimage references g "active"

def getDeviceBootFwimage (references : Str → Str) (g : FwbankDump) : Str :=
  getDeviceFwimage references g "boot"

/-! ### Ids -/

/-- The id of an entry as `blobmsg_get_u32` reads it. -/
def entryId (entry : Attr) : Option ℕ :=
  match entry.children.find? (Policy.accepts ⟨"id", .int32⟩) with
  | some (.int32 _ n) => some n.toNat
  | _ => none

/-- The banks carry all their fields, and no two of them the same id. -/
structure DistinctBanks (g : FwbankDump) : Prop where
  fields : ∀ entry ∈ browseDeviceInfoFirmwareImageInst g, validBank entry = true
  ids : ((browseDeviceInfoFirmwareImageInst g).map entryId).Nodup

def Chosen (g : FwbankDump) (optionName : String) (entry : Attr) : Prop :=
  ((browseDeviceInfoFirmwareImageInst g).find? fun e =>
    getFwbankOptionValue e optionName = "true".toList) = some entry

/-- Alias and reference of an instance name its bank, and writing `value`, which resolves
to the alias, requests it as long as it is available. -/
structure NamesBank (api : Bbfdm) (g : FwbankDump) (s : State) (entry : Attr) (n : ℕ)
    (value : Str) : Prop where
  fits : (getDeviceInfoFirmwareImageAlias entry).length < 16
  untruncated : linker (getFwbankOptionValue entry "id") = getDeviceInfoFirmwareImageAlias entry
  unique : ∀ other ∈ browseDeviceInfoFirmwareImageInst g,
    getDeviceInfoFirmwareImageAlias other = getDeviceInfoFirmwareImageAlias entry → other = entry
  active : ∀ references, Chosen g "active" entry →
    getDeviceActiveFwimage references g = references (getDeviceInfoFirmwareImageAlias entry)
  boot : ∀ references, Chosen g "boot" entry →
    getDeviceBootFwimage references g = references (getDeviceInfoFirmwareImageAlias entry)
  requested : ¬Unavailable s (idText n) → ∀ env,
    requests (setDeviceBootFwimage api env s value).2.2 = if env.forkOk then [n] else []

theorem entryId_lt (entry : Attr) (n : ℕ) (h : entryId entry = some n) : n < 2 ^ 32 := by
  unfold entryId at h
  split at h
  · rename_i id _
    rw [← Option.some.inj h]
    exact id.toNat_lt
  · exact absurd h (by simp)

theorem optionValue_entryId (entry : Attr) (n : ℕ) (h : entryId entry = some n) :
    getFwbankOptionValue entry "id" = idText n := by
  rw [getFwbankOptionValue_idField]
  unfold entryId at h
  split at h
  · rename_i hfind
    rw [hfind, ← Option.some.inj h, Option.map_some, Option.getD_some, attrText, idText]
  · exact absurd h (by simp)

theorem optionValue_of_entryId_none (entry : Attr) (h : entryId entry = none) :
    getFwbankOptionValue entry "id" = [] := by
  rw [getFwbankOptionValue_idField]
  rcases idField_cases entry with hfind | ⟨name, n, hfind⟩
  · rw [hfind]
    rfl
  · rw [entryId, hfind] at h
    exact absurd h (Option.some_ne_none _)

theorem entryId_of_valid (entry : Attr) (h : validBank entry = true) :
    ∃ n, entryId entry = some n := by
  unfold validBank blobmsgParse at h
  have hid : ⟨"id", .int32⟩ ∈ sysmngrBankPolicy := by decide
  by_cases hempty : entry.children.isEmpty = true
  · rw [if_pos hempty] at h
    exact Bool.noConfusion h
  · rw [if_neg hempty] at h
    have hfound := List.all_eq_true.mp h _ (List.mem_map_of_mem hid)
    rcases idField_cases entry with hfind | ⟨name, n, hfind⟩
    · rw [hfind] at hfound
      exact Bool.noConfusion hfound
    · exact ⟨n.toNat, by rw [entryId, hfind]⟩

theorem alias_eq (entry : Attr) (n : ℕ) (h : entryId entry = some n) :
    getDeviceInfoFirmwareImageAlias entry = "cpe-".toList ++ idText n := by
  rw [getDeviceInfoFirmwareImageAlias, optionValue_entryId entry n h]

theorem idText_length_le (n : ℕ) : (idText n).length ≤ 11 := by
  have hrange := toInt_range n
  exact printInt_length_le _ 10 (by decide) (by omega)

theorem idText_inj (m n : ℕ) (hm : m < 2 ^ 32) (hn : n < 2 ^ 32) (h : idText m = idText n) :
    m = n := by
  have hmod := (toInt_eq_iff m n).mp (printInt_injective h)
  omega

theorem alias_length (entry : Attr) (n : ℕ) (h : entryId entry = some n) :
    (getDeviceInfoFirmwareImageAlias entry).length < 16 := by
  have hlength := idText_length_le n
  have hpre : "cpe-".toList.length = 4 := rfl
  rw [alias_eq entry n h, List.length_append]
  omega

theorem linker_eq (entry : Attr) (n : ℕ) (h : entryId entry = some n) :
    linker (getFwbankOptionValue entry "id") = getDeviceInfoFirmwareImageAlias entry :=
  snprintf_of_le 16 _ (Nat.le_of_lt_succ (alias_length entry n h))

theorem getDeviceFwimage_chosen (references : Str → Str) (g : FwbankDump) (optionName : String)
    (entry : Attr) (n : ℕ) (hid : entryId entry = some n) (h : Chosen g optionName entry) :
    getDeviceFwimage references g optionName =
      references (getDeviceInfoFirmwareImageAlias entry) := by
  have hbank : getFwbankBankId g optionName = getFwbankOptionValue entry "id" := by
    unfold getFwbankBankId
    rw [h]
  have hne : ¬(getFwbankOptionValue entry "id").length = 0 := by
    rw [optionValue_entryId entry n hid, List.length_eq_zero_iff]
    exact printInt_ne_nil _
  simp only [getDeviceFwimage, hbank, if_neg hne, linker_eq entry n hid]

theorem alias_unique (g : FwbankDump) (hbanks : DistinctBanks g) (entry other : Attr)
    (hentry : entry ∈ browseDeviceInfoFirmwareImageInst g)
    (hother : other ∈ browseDeviceInfoFirmwareImageInst g)
    (h : getDeviceInfoFirmwareImageAlias other = getDeviceInfoFirmwareImageAlias entry) :
    other = entry := by
  obtain ⟨n, hn⟩ := entryId_of_valid entry (hbanks.fields entry hentry)
  obtain ⟨m, hm⟩ := entryId_of_valid other (hbanks.fields other hother)
  rw [alias_eq entry n hn, alias_eq other m hm, List.append_cancel_left_eq] at h
  have hmn := idText_inj m n (entryId_lt other m hm) (entryId_lt entry n hn) h
  exact List.inj_on_of_nodup_map hbanks.ids hother hentry (by rw [hm, hn, hmn])

/-! ### Writing a reference -/

theorem alias_dropWhile (entry : Attr) (n : ℕ) (h : entryId entry = some n) :
    (getDeviceInfoFirmwareImageAlias entry).dropWhile (· != '-') = '-' :: idText n := by
  have hskip : ∀ c ∈ "cpe".toList, (c != '-') = true := List.all_eq_true.mp rfl
  have hsplit : "cpe-".toList = "cpe".toList ++ ['-'] := rfl
  rw [alias_eq entry n h, hsplit, List.append_assoc, List.dropWhile_append_of_pos hskip]
  simp

theorem requests_alias (api : Bbfdm) (s : State) (entry : Attr) (n : ℕ) (value : Str)
    (hid : entryId entry = some n)
    (hresolves : api.getReferenceLinker value = getDeviceInfoFirmwareImageAlias entry)
    (hallowed : api.validateAllowedObjects value = true) (env : Env) :
    requests (setDeviceBootFwimage api env s value).2.2 =
      if env.forkOk = true ∧
          (api.getSectionCont s.dmmap (idText n)).map ImageSection.available ≠
            some "false".toList
      then [n] else [] := by
  have hlink := alias_dropWhile entry n hid
  rw [← hresolves] at hlink
  rcases setBoot_requests api env s value with ⟨hreq, hstop⟩ | ⟨c, bankId, hcut, hgo, hreq⟩
  · rw [hreq, if_neg]
    rintro ⟨hfork, havailable⟩
    rcases hstop '-' (idText n) hlink with h | h | h
    · exact havailable h
    · exact Bool.noConfusion (h.symm.trans hallowed)
    · exact Bool.noConfusion (h.symm.trans hfork)
  · obtain ⟨rfl, rfl⟩ := List.cons.inj (hlink.symm.trans hcut)
    have hback : bankNumber (idText n) = n := strtoul_printInt_toInt n (entryId_lt entry n hid)
    rw [hreq, hback, if_pos]
    refine ⟨?_, fun h => hgo (Or.inl h)⟩
    by_contra hfork
    exact hgo (Or.inr (Or.inr (by simpa using hfork)))

/-- Every reference names the bank of its instance, and writing it requests an available
bank exactly unless the section found by what its id contains is marked unavailable. -/
theorem reference_names_bank_iff (api : Bbfdm) (g : FwbankDump) (s : State)
    (hbanks : DistinctBanks g) (entry : Attr)
    (hentry : entry ∈ browseDeviceInfoFirmwareImageInst g) (n : ℕ) (hid : entryId entry = some n)
    (value : Str) (hresolves : api.getReferenceLinker value = getDeviceInfoFirmwareImageAlias entry)
    (hallowed : api.validateAllowedObjects value = true) :
    NamesBank api g s entry n value ↔ Unavailable s (idText n) ∨
      (api.getSectionCont s.dmmap (idText n)).map ImageSection.available ≠
        some "false".toList := by
  have hrequests := requests_alias api s entry n value hid hresolves hallowed
  constructor
  · intro h
    by_contra hrefused
    obtain ⟨havailable, hfound⟩ := not_or.mp hrefused
    have hrequested := h.requested havailable .fine
    rw [hrequests .fine, if_neg fun hgo => hfound hgo.2] at hrequested
    exact absurd hrequested.symm (List.cons_ne_nil _ _)
  · intro hfound
    exact
      { fits := alias_length entry n hid
        untruncated := linker_eq entry n hid
        unique := fun other hother => alias_unique g hbanks entry other hentry hother
        active := fun references => getDeviceFwimage_chosen references g "active" entry n hid
        boot := fun references => getDeviceFwimage_chosen references g "boot" entry n hid
        requested := fun havailable env => by
          rw [hrequests env]
          simp only [hfound.resolve_left havailable, ne_eq, not_false_eq_true, and_true] }

def wholeBank (id : UInt32) (inUse : Bool) : Attr :=
  .table "" [.string "name" "bank".toList, .int32 "id" id, .bool "active" inUse,
    .bool "boot" inUse, .bool "upgrade" (!inUse), .string "fwver" "7.1".toList,
    .string "swver" "7.1".toList, .string "status" "Available".toList]

def twoBanks (a b : UInt32) : FwbankDump :=
  ⟨some [.array "bank" [wholeBank a true, wholeBank b false]], 0, false⟩

theorem whole_of_mem_twoBanks (a b : UInt32) (entry : Attr)
    (h : entry ∈ browseDeviceInfoFirmwareImageInst (twoBanks a b)) :
    ∃ id inUse, entry = wholeBank id inUse := by
  have hbrowse : browseDeviceInfoFirmwareImageInst (twoBanks a b) =
      [wholeBank a true, wholeBank b false] := rfl
  rw [hbrowse] at h
  rcases List.mem_cons.mp h with rfl | h
  · exact ⟨a, true, rfl⟩
  · exact ⟨b, false, List.mem_singleton.mp h⟩

theorem distinct_twoBanks (a b : UInt32) (h : a ≠ b) : DistinctBanks (twoBanks a b) where
  fields := by
    intro entry hentry
    obtain ⟨id, inUse, rfl⟩ := whole_of_mem_twoBanks a b entry hentry
    rfl
  ids := by
    have hids : (browseDeviceInfoFirmwareImageInst (twoBanks a b)).map entryId =
        [some a.toNat, some b.toNat] := rfl
    rw [hids]
    have hne : a.toNat ≠ b.toNat := fun heq => h (UInt32.toNat_inj.mp heq)
    simp [hne]

theorem reference_names_bank_sample :
    NamesBank .plain (twoBanks 1 2147483648) .fresh (wholeBank 2147483648 false) 2147483648
      "cpe--2147483648".toList :=
  (reference_names_bank_iff .plain (twoBanks 1 2147483648) .fresh
    (distinct_twoBanks 1 2147483648 (by decide)) (wholeBank 2147483648 false)
    (List.mem_cons_of_mem _ (List.mem_cons_self ..)) 2147483648 rfl "cpe--2147483648".toList
    (by decide) rfl).mpr (Or.inr (by decide))

/-- Bank 10 is marked unavailable, bank 1 is not. -/
def tenUnavailable : State := { State.fresh with dmmap := [⟨"10".toList, "false".toList⟩] }

theorem available_bank_refused :
    ¬∀ (api : Bbfdm) (g : FwbankDump) (s : State), DistinctBanks g →
      ∀ entry ∈ browseDeviceInfoFirmwareImageInst g, ∀ n, entryId entry = some n →
      ∀ value, api.getReferenceLinker value = getDeviceInfoFirmwareImageAlias entry →
      api.validateAllowedObjects value = true → NamesBank api g s entry n value := by
  intro hall
  have hnames := hall .plain (twoBanks 1 10) tenUnavailable (distinct_twoBanks 1 10 (by decide))
    (wholeBank 1 true) (List.mem_cons_self ..) 1 rfl "cpe-1".toList (by decide) rfl
  have hnone : requests (setDeviceBootFwimage .plain .fine tenUnavailable "cpe-1".toList).2.2 =
    [] := by decide
  have hrequested := hnames.requested (by decide) .fine
  rw [hnone] at hrequested
  exact absurd hrequested.symm (List.cons_ne_nil _ _)

end Sysmngr.FwImages
