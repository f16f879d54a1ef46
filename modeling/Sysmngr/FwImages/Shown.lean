import Sysmngr.Fwbank.Pipeline
import Sysmngr.FwImages.Reference

/-!
# What the scripts print and what the data model shows

From the text that a script prints to the parameters of the instances: the task joins the
lines, the finish callback parses and checks them and keeps the first attribute, browsing
goes through its entries, and every getter looks its field up by name and type.
-/

namespace Sysmngr.FwImages
open Text Json Blobmsg Fwbank Machine

/-! ### Instances -/

def getDeviceInfoFirmwareImageName (entry : Attr) : Str :=
  let name := getFwbankOptionValue entry "fwver"
  if 64 < name.length then name.take 64 else name

def getDeviceInfoFirmwareImageVersion (entry : Attr) : Str := getFwbankOptionValue entry "swver"

def getDeviceInfoFirmwareImageStatus (entry : Attr) : Str := getFwbankOptionValue entry "status"

def getDeviceInfoFirmwareImageNumberOfEntries (g : FwbankDump) : Str :=
  printNat (browseDeviceInfoFirmwareImageInst g).length

structure Image where
  label : Str
  name : Str
  version : Str
  status : Str
  deriving DecidableEq

/-- What is shown of a dump; the instances are numbered from 1. -/
structure Shown where
  images : List Image
  entries : Str
  active : Str
  boot : Str
  deriving DecidableEq

def imageOf (entry : Attr) : Image where
  label := getDeviceInfoFirmwareImageAlias entry
  name := getDeviceInfoFirmwareImageName entry
  version := getDeviceInfoFirmwareImageVersion entry
  status := getDeviceInfoFirmwareImageStatus entry

def shown (references : Str → Str) (g : FwbankDump) : Shown where
  images := (browseDeviceInfoFirmwareImageInst g).map imageOf
  entries := getDeviceInfoFirmwareImageNumberOfEntries g
  active := getDeviceActiveFwimage references g
  boot := getDeviceBootFwimage references g

/-! ### What is printed -/

/-- A string up to its first NUL, a whole number of 32 bits, true or false. -/
def valueText : Value → Str
  | .scalar (.string s) => cstr s
  | .scalar (.number t) => printInt (strtol t)
  | .scalar (.bool b) => if b then "true".toList else "false".toList
  | _ => []

/-- The text of a field that is printed with the type it is declared with. -/
def printedOption (bank : Value) (optionName : String) : Str :=
  match sysmngrBankPolicy.find? fun p => p.name == optionName with
  | some p => ((fieldAt bank.fields p).map valueText).getD []
  | none => []

def printedImage (bank : Value) : Image where
  label := "cpe-".toList ++ printedOption bank "id"
  name := (printedOption bank "fwver").take 64
  version := printedOption bank "swver"
  status := printedOption bank "status"

/-- The banks of an object that is kept; only its first attribute is. -/
def printedBanks (fields : List (Str × Value)) : List Value :=
  if fields.head?.map keyName = some sysmngrDumpPolicy.name then
    ((fieldAt fields sysmngrDumpPolicy).map Value.items).getD []
  else []

def completeBank (bank : Value) : Bool :=
  sysmngrBankPolicy.all fun p => (fieldAt bank.fields p).isSome

def hasCompleteBank (fields : List (Str × Value)) : Bool :=
  (fieldAt fields sysmngrDumpPolicy).any fun bank => bank.items.any completeBank

/-- The last object that was printed with a complete bank in it. -/
def lastPrinted (outputs : List (Option (List (Str × Value)))) : Option (List (Str × Value)) :=
  (outputs.filterMap (Option.filter hasCompleteBank)).getLast?

/-- The reference to the first bank that has a flag set. -/
def printedReference (references : Str → Str) (banks : List Value) (flag : String) : Str :=
  let bankId := ((banks.find? fun bank => printedOption bank flag = "true".toList).map
    fun bank => printedOption bank "id").getD []
  if bankId.length = 0 then [] else references (linker bankId)

def printedShown (references : Str → Str) (printed : Option (List (Str × Value))) : Shown :=
  let banks := (printed.map printedBanks).getD []
  { images := banks.map printedImage
    entries := printNat banks.length
    active := printedReference references banks "active"
    boot := printedReference references banks "boot" }

/-! ### One entry -/

theorem int32_text (z : ℤ) (h : fits32 z = true) :
    toInt (UInt32.ofNat (z % 2 ^ 32).toNat).toNat = z := by
  obtain ⟨hlo, hhi⟩ := of_decide_eq_true h
  have hmod : ((UInt32.ofNat (z % 2 ^ 32).toNat).toNat : ℤ) = z % 2 ^ 32 := by
    have hlt : (z % 2 ^ 32).toNat < 2 ^ 32 := by omega
    rw [UInt32.toNat_ofNat_of_lt' hlt]
    omega
  rw [hmod, toInt]
  exact (Int.emod_bmod z (2 ^ 32)).trans (toInt_of_mem z hlo hhi)

/-- Under a declared type the attribute says what the value says. -/
theorem attrText_element (name : String) (v : Value) (p : Policy) (hp : p ∈ sysmngrBankPolicy)
    (hv : valueType v = p.type) : attrText (blobmsgAddJsonElement name v) = valueText v := by
  have htypes : ∀ q ∈ sysmngrBankPolicy,
      q.type = .string ∨ q.type = .int32 ∨ q.type = .bool := by decide
  have htype := htypes p hp
  rw [← hv] at htype
  cases v with
  | scalar s =>
    cases s with
    | number t =>
      rw [valueType] at htype
      by_cases hwhole : isWhole t = true
      · by_cases hfits : fits32 (strtol t) = true
        · rw [blobmsgAddJsonElement, addScalar, hwhole, hfits]
          exact congrArg printInt (int32_text _ hfits)
        · rw [hwhole, Bool.eq_false_iff.mpr hfits] at htype
          exact absurd htype (by decide)
      · rw [Bool.eq_false_iff.mpr hwhole] at htype
        exact absurd htype (by simp)
    | string s => rfl
    | bool b => rfl
    | null => rfl
  | array items => rfl
  | object fields => rfl

theorem sysmngrBankPolicy_typed : ∀ p ∈ sysmngrBankPolicy, p.type ≠ .unspec ∧ p.name ≠ "" := by
  decide

theorem getFwbankOptionValue_element (bank : Value) (optionName : String) :
    getFwbankOptionValue (blobmsgAddJsonElement "" bank) optionName =
      printedOption bank optionName := by
  rw [getFwbankOptionValue, printedOption]
  cases hpolicy : sysmngrBankPolicy.find? fun p => p.name == optionName with
  | none => rfl
  | some p =>
    have hmem := List.mem_of_find?_eq_some hpolicy
    obtain ⟨htype, hname⟩ := sysmngrBankPolicy_typed p hmem
    simp only [find_children "" bank p htype hname]
    cases hfield : fieldAt bank.fields p with
    | none => rfl
    | some v =>
      have hv := of_decide_eq_true (Option.filter_eq_some_iff.mp hfield).2
      exact attrText_element p.name v p hmem hv

theorem imageOf_element (bank : Value) :
    imageOf (blobmsgAddJsonElement "" bank) = printedImage bank := by
  have hname : getDeviceInfoFirmwareImageName (blobmsgAddJsonElement "" bank) =
      (printedOption bank "fwver").take 64 := by
    simp only [getDeviceInfoFirmwareImageName, getFwbankOptionValue_element]
    split
    · rfl
    · rename_i hshort
      exact (List.take_of_length_le (Nat.le_of_not_lt hshort)).symm
  rw [imageOf, printedImage, hname]
  simp only [getDeviceInfoFirmwareImageAlias, getDeviceInfoFirmwareImageVersion,
    getDeviceInfoFirmwareImageStatus, getFwbankOptionValue_element]

theorem validBank_element (bank : Value) :
    validBank (blobmsgAddJsonElement "" bank) = completeBank bank := by
  have hfind : ∀ p ∈ sysmngrBankPolicy,
      (blobmsgAddJsonElement "" bank).children.find? p.accepts =
        (fieldAt bank.fields p).map (blobmsgAddJsonElement p.name) := by
    intro p hp
    obtain ⟨htype, hname⟩ := sysmngrBankPolicy_typed p hp
    exact find_children "" bank p htype hname
  rw [validBank, blobmsgParse, completeBank]
  by_cases hempty : (blobmsgAddJsonElement "" bank).children.isEmpty = true
  · -- nothing to parse, and no field either
    have hname := hfind ⟨"name", .string⟩ (by decide)
    rw [List.isEmpty_iff.mp hempty, List.find?_nil, eq_comm, Option.map_eq_none_iff] at hname
    rw [if_pos hempty]
    refine (List.all_eq_false.mpr ⟨⟨"name", .string⟩, by decide, ?_⟩).symm
    rw [hname]
    decide
  · rw [if_neg hempty, List.map_congr_left hfind]
    simp only [List.all_map, Function.comp_def, Option.isSome_map]

theorem bank_items (fields : List (Str × Value)) (bank : Value)
    (h : fieldAt fields sysmngrDumpPolicy = some bank) :
    (blobmsgAddJsonElement "bank" bank).children = bank.items.map (blobmsgAddJsonElement "") := by
  have htype := beq_iff_eq.mp (Option.filter_eq_some_iff.mp h).2
  exact children_items "bank" bank (htype.trans_ne (by decide))

theorem validateGlobalFwbankDump_object (fields : List (Str × Value)) :
    validateGlobalFwbankDump (blobmsgAddObject fields) = hasCompleteBank fields := by
  have hfind := find_blobmsgAddObject fields sysmngrDumpPolicy (by decide)
  rw [validateGlobalFwbankDump, blobmsgParse, hasCompleteBank]
  by_cases hempty : (blobmsgAddObject fields).isEmpty = true
  · rw [List.isEmpty_iff.mp hempty, List.find?_nil, eq_comm, Option.map_eq_none_iff] at hfind
    rw [if_pos hempty, hfind]
    rfl
  · rw [if_neg hempty, List.map_singleton, hfind]
    cases hfield : fieldAt fields sysmngrDumpPolicy with
    | none => rfl
    | some bank =>
      have hitems := bank_items fields bank hfield
      simp only [sysmngrDumpPolicy, Option.map_some, Option.any_some, hitems, List.any_map,
        Function.comp_def, validBank_element]

/-! ### The kept dump -/

theorem browse_found (g : FwbankDump) :
    browseDeviceInfoFirmwareImageInst g =
      (((g.output.getD []).find? sysmngrDumpPolicy.accepts).map Attr.children).getD [] := by
  rw [browseDeviceInfoFirmwareImageInst, blobmsgParse]
  cases g.output.getD [] with
  | nil => rfl
  | cons a rest =>
    rw [if_neg (by simp), List.map_singleton]
    cases (a :: rest).find? sysmngrDumpPolicy.accepts <;> rfl

/-- What browsing goes through when the first attribute of an object is kept. -/
theorem browse_kept (g : FwbankDump) (printed : Option (List (Str × Value)))
    (h : g.output = printed.map fun fields => (blobmsgAddObject fields).take 1) :
    browseDeviceInfoFirmwareImageInst g =
      ((printed.map printedBanks).getD []).map (blobmsgAddJsonElement "") := by
  rw [browse_found, h]
  cases printed with
  | none => rfl
  | some fields =>
    rw [Option.map_some, Option.getD_some, Option.map_some, Option.getD_some,
      find_take_one fields sysmngrDumpPolicy (by decide), printedBanks]
    split
    · cases hfield : fieldAt fields sysmngrDumpPolicy with
      | none => rfl
      | some bank => exact bank_items fields bank hfield
    · rfl

theorem shown_kept (references : Str → Str) (g : FwbankDump)
    (printed : Option (List (Str × Value)))
    (h : g.output = printed.map fun fields => (blobmsgAddObject fields).take 1) :
    shown references g = printedShown references printed := by
  have hbrowse := browse_kept g printed h
  have hreference : ∀ flag, getDeviceFwimage references g flag =
      printedReference references ((printed.map printedBanks).getD []) flag := by
    intro flag
    rw [getDeviceFwimage, getFwbankBankId, hbrowse, List.find?_map, printedReference]
    simp only [Function.comp_def, getFwbankOptionValue_element]
    cases ((printed.map printedBanks).getD []).find? fun bank =>
        printedOption bank flag = "true".toList with
    | none => rfl
    | some bank => simp only [Option.map_some, Option.getD_some, getFwbankOptionValue_element]
  rw [shown, printedShown, getDeviceInfoFirmwareImageNumberOfEntries, getDeviceActiveFwimage,
    getDeviceBootFwimage, hreference, hreference, hbrowse, List.map_map, List.length_map]
  simp only [Function.comp_def, imageOf_element]

/-! ### Runs -/

theorem lastPrinted_cons (v : Option (List (Str × Value)))
    (vs : List (Option (List (Str × Value)))) :
    lastPrinted (v :: vs) = (lastPrinted vs).or (v.filter hasCompleteBank) := by
  rw [lastPrinted, lastPrinted, List.filterMap_cons]
  cases v.filter hasCompleteBank with
  | none => rw [Option.or_none]
  | some fields =>
    rw [List.getLast?_cons]
    cases (vs.filterMap (Option.filter hasCompleteBank)).getLast? <;> rfl

theorem retry_output (g : FwbankDump) : (retry g).output = g.output := by
  rw [retry]
  split <;> rfl

theorem attemptValue_output (g : FwbankDump) (v : Option (List (Str × Value))) :
    (attemptValue (fun fields => some (blobmsgAddObject fields)) g v).1.output =
      ((v.filter hasCompleteBank).map fun fields => (blobmsgAddObject fields).take 1).or
        g.output := by
  have hvalid : (v.bind fun fields => some (blobmsgAddObject fields)).filter
      validateGlobalFwbankDump = (v.filter hasCompleteBank).map blobmsgAddObject := by
    have hmap : (v.bind fun fields => some (blobmsgAddObject fields)) = v.map blobmsgAddObject :=
      Option.map_eq_bind.symm
    have hcheck : validateGlobalFwbankDump ∘ blobmsgAddObject = hasCompleteBank :=
      funext validateGlobalFwbankDump_object
    rw [hmap, Option.filter_map, hcheck]
  rw [attemptValue, hvalid]
  cases v.filter hasCompleteBank with
  | none => exact retry_output g
  | some fields => rfl

theorem run_output (g : FwbankDump) (vs : List (Option (List (Str × Value)))) :
    (run (attemptValue fun fields => some (blobmsgAddObject fields)) g vs).1.output =
      ((lastPrinted vs).map fun fields => (blobmsgAddObject fields).take 1).or g.output := by
  induction vs generalizing g with
  | nil => rfl
  | cons v vs ih =>
    rw [run_cons_state, ih, attemptValue_output, lastPrinted_cons, Option.map_or, Option.or_assoc]

/-- Over every run of dump attempts what the data model shows is what the script printed last
with a complete bank in it. -/
theorem shows_last_printed (references : Str → Str) (parse : Str → Option (List Attr))
    (hparse : ∀ s fields, readJson JSON_TOKENER_DEFAULT_DEPTH s = some fields →
      parse s = some (blobmsgAddObject fields))
    (os : List (Option ScriptOutput)) :
    shown references (run (attemptScript parse) .initial os).1 =
      printedShown references (lastPrinted (os.map (Option.map ScriptOutput.fields))) := by
  apply shown_kept
  rw [run_attemptScript hparse, run_output]
  exact Option.or_none

theorem shows_last_printed_sample :
    shown (fun label => label) (run (attemptScript blobmsgAddJsonFromString) .initial
      [none, some partialBank, some Fwbank.wholeBank, none]).1 =
        ⟨[⟨"cpe-1".toList, "f".toList, "s".toList, "A".toList⟩], "1".toList, "cpe-1".toList,
          "cpe-1".toList⟩ := by
  rw [shows_last_printed (fun label => label) _ blobmsgAddJsonFromString_reads]
  rfl

end Sysmngr.FwImages
