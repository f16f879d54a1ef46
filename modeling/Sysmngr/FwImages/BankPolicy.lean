import Sysmngr.FwImages.Model

/-!
# The bank policy by position

`fwbank.c` declares eight fields of a bank and goes by the length of its table; the
getters of `fw_images.c` go by positions and a count of their own, made for a table of
nine. `sysmngr_bank_policy[8]` is whatever stands behind the table.
-/

namespace Sysmngr.FwImages
open Text Blobmsg Fwbank

/-- The memory the positions run into: the table and, as the ninth entry, what follows
it; `none` if its name is NULL. -/
def policyMemory (beyond : Option Policy) : List Policy := sysmngrBankPolicy ++ beyond.toList

/-- `blobmsg_get_string`; `raw` is the text it makes of the data of another type. -/
def blobmsgGetString (raw : Attr → Str) : Attr → Str
  | .string _ s => s
  | a => raw a

def optionBranches (raw : Attr → Str) : List (ℕ × (Attr → Str)) :=
  [(0, blobmsgGetString raw), (1, attrText), (2, attrText), (3, attrText), (4, attrText),
    (5, blobmsgGetString raw), (6, blobmsgGetString raw), (7, blobmsgGetString raw),
    (8, blobmsgGetString raw)]

/-- The if-chain: the value, and the positions of the policy it has compared. -/
def optionChain (policy : List Policy) (tb : ℕ → Option Attr) (optionName : String) :
    List (ℕ × (Attr → Str)) → Option Str × List ℕ
  | [] => (none, [])
  | (i, render) :: rest =>
    if policy[i]?.map Policy.name = some optionName ∧ (tb i).isSome then
      ((tb i).map render, [i])
    else
      let r := optionChain policy tb optionName rest
      (r.1, i :: r.2)

/-- `tb[9]` after `blobmsg_parse(sysmngr_bank_policy, 9, ..)`. -/
def parsedEntry (beyond : Option Policy) (entry : Attr) (i : ℕ) : Option Attr :=
  (((blobmsgParse (policyMemory beyond) entry.children).getD [])[i]?).join

/-- `blobmsg_parse` goes through all policies unless there is nothing to parse. -/
def parsedPositions (entry : Attr) : List ℕ :=
  if entry.children.isEmpty then [] else List.range 9

def getBlobmsgOptionValue (beyond : Option Policy) (raw : Attr → Str) (entry : Attr)
    (optionName : String) : Str × List ℕ :=
  let r := optionChain (policyMemory beyond) (parsedEntry beyond entry) optionName
    (optionBranches raw)
  (r.1.getD [], parsedPositions entry ++ r.2)

/-- The value is the rendering of the declared field, and only entries of the table are
looked at. -/
structure ReadsByTable (beyond : Option Policy) (raw : Attr → Str) (entry : Attr)
    (optionName : String) : Prop where
  value : (getBlobmsgOptionValue beyond raw entry optionName).1 =
    getFwbankOptionValue entry optionName
  positions : ∀ i ∈ (getBlobmsgOptionValue beyond raw entry optionName).2,
    i < sysmngrBankPolicy.length

/-! ### Values -/

theorem parsedEntry_table (beyond : Option Policy) (entry : Attr) (i : ℕ) (p : Policy)
    (h : sysmngrBankPolicy[i]? = some p) :
    parsedEntry beyond entry i = entry.children.find? p.accepts := by
  have hlt : i < sysmngrBankPolicy.length := (List.getElem?_eq_some_iff.mp h).1
  have hmemory : (policyMemory beyond)[i]? = some p := by
    rw [policyMemory, List.getElem?_append_left hlt, h]
  unfold parsedEntry blobmsgParse
  by_cases hempty : entry.children.isEmpty = true
  · rw [if_pos hempty, List.isEmpty_iff.mp hempty]
    rfl
  · rw [if_neg hempty, Option.getD_some, List.getElem?_map, hmemory]
    rfl

/-- A chain ends at the first branch whose name is asked for and whose field is there. -/
theorem optionChain_value (policy : List Policy) (tb : ℕ → Option Attr) (optionName : String)
    (branches : List (ℕ × (Attr → Str))) :
    (optionChain policy tb optionName branches).1 =
      (branches.find? fun b =>
        decide (policy[b.1]?.map Policy.name = some optionName ∧ (tb b.1).isSome)).bind
          fun b => (tb b.1).map b.2 := by
  induction branches with
  | nil => rfl
  | cons b rest ih =>
    obtain ⟨i, render⟩ := b
    rw [optionChain, List.find?_cons]
    by_cases hb : policy[i]?.map Policy.name = some optionName ∧ (tb i).isSome
    · rw [if_pos hb, decide_eq_true hb]
      rfl
    · rw [if_neg hb, decide_eq_false hb]
      exact ih

theorem optionBranches_positions (raw : Attr → Str) :
    (optionBranches raw).map Prod.fst = List.range 9 := rfl

theorem policyMemory_name (beyond : Option Policy) (i : ℕ) (name : String)
    (hbeyond : beyond.map Policy.name ≠ some name) :
    (policyMemory beyond)[i]?.map Policy.name = some name ↔
      ∃ p, sysmngrBankPolicy[i]? = some p ∧ p.name = name := by
  rw [policyMemory, List.getElem?_append]
  split
  · exact Option.map_eq_some_iff
  · rename_i hi
    have hnone : sysmngrBankPolicy[i]? = none := List.getElem?_eq_none (Nat.le_of_not_lt hi)
    rw [hnone]
    refine iff_of_false ?_ (by simp)
    intro hname
    obtain ⟨p, hp, hpn⟩ := Option.map_eq_some_iff.mp hname
    have hmem := Option.mem_toList.mp (List.mem_of_getElem? hp)
    rw [hmem, Option.map_some, hpn] at hbeyond
    exact hbeyond rfl

theorem sysmngrBankPolicy_find (i : ℕ) (p : Policy) (h : sysmngrBankPolicy[i]? = some p) :
    (sysmngrBankPolicy.find? fun q => q.name == p.name) = some p := by
  have hall : ∀ q ∈ sysmngrBankPolicy,
      (sysmngrBankPolicy.find? fun r => r.name == q.name) = some q := by decide
  exact hall p (List.mem_of_getElem? h)

theorem branch_string (raw : Attr → Str) (b : ℕ × (Attr → Str)) (p : Policy)
    (hb : b ∈ optionBranches raw) (hp : sysmngrBankPolicy[b.1]? = some p) :
    b.2 = attrText ∨ b.2 = blobmsgGetString raw ∧ p.type = .string := by
  simp only [optionBranches, List.mem_cons, List.not_mem_nil, or_false] at hb
  rcases hb with rfl | rfl | rfl | rfl | rfl | rfl | rfl | rfl | rfl
  all_goals first
    | exact Or.inl rfl
    | exact Or.inr ⟨rfl, (congrArg Policy.type (Option.some.inj hp)).symm⟩
    | exact nomatch hp

theorem branch_renders (raw : Attr → Str) (b : ℕ × (Attr → Str)) (p : Policy) (a : Attr)
    (hb : b ∈ optionBranches raw) (hp : sysmngrBankPolicy[b.1]? = some p)
    (ha : p.accepts a = true) : b.2 a = attrText a := by
  have hunspec : ∀ q ∈ sysmngrBankPolicy, q.type ≠ .unspec := by decide
  have htype := Policy.accepts_type p a (hunspec p (List.mem_of_getElem? hp)) ha
  rcases branch_string raw b p hb hp with hrender | ⟨hrender, hstring⟩
  · rw [hrender]
  · rw [hstring] at htype
    cases a with
    | string name s => rw [hrender, blobmsgGetString, attrText]
    | _ => exact BlobmsgType.noConfusion htype

/-- As long as what follows the table does not have the name asked for, the value is
right for every entry. -/
theorem getBlobmsgOptionValue_value (beyond : Option Policy) (raw : Attr → Str) (entry : Attr)
    (optionName : String) (hbeyond : beyond.map Policy.name ≠ some optionName) :
    (getBlobmsgOptionValue beyond raw entry optionName).1 =
      getFwbankOptionValue entry optionName := by
  rw [getBlobmsgOptionValue, optionChain_value]
  cases hfind : (optionBranches raw).find? fun b => decide
      ((policyMemory beyond)[b.1]?.map Policy.name = some optionName ∧
        (parsedEntry beyond entry b.1).isSome) with
  | none =>
    rw [getFwbankOptionValue]
    cases hpolicy : sysmngrBankPolicy.find? fun p => p.name == optionName with
    | none => rfl
    | some p =>
      -- a branch of the chain asks for this field, so the chain ran past it for want of it
      have hname : p.name = optionName := by simpa using List.find?_some hpolicy
      obtain ⟨i, hi⟩ := List.mem_iff_getElem?.mp (List.mem_of_find?_eq_some hpolicy)
      have hlt : i < 8 := (List.getElem?_eq_some_iff.mp hi).1
      have hposition : i ∈ (optionBranches raw).map Prod.fst := by
        rw [optionBranches_positions]
        exact List.mem_range.mpr (by omega)
      obtain ⟨b, hb, rfl⟩ := List.mem_map.mp hposition
      have hskip := List.find?_eq_none.mp hfind b hb
      have hnamed := (policyMemory_name beyond b.1 optionName hbeyond).mpr ⟨p, hi, hname⟩
      rw [hnamed, parsedEntry_table beyond entry b.1 p hi] at hskip
      have hmissing : entry.children.find? p.accepts = none := by simpa using hskip
      simp only [hmissing, Option.bind_none, Option.map_none, Option.getD_none]
  | some b =>
    have htest := List.find?_some hfind
    obtain ⟨hname, htb⟩ := of_decide_eq_true htest
    obtain ⟨p, hp, rfl⟩ := (policyMemory_name beyond b.1 _ hbeyond).mp hname
    rw [parsedEntry_table beyond entry b.1 p hp] at htb
    obtain ⟨a, ha⟩ := Option.isSome_iff_exists.mp htb
    have hrender := branch_renders raw b p a (List.mem_of_find?_eq_some hfind) hp
      (List.find?_some ha)
    simp only [Option.bind_some, parsedEntry_table beyond entry b.1 p hp, ha, Option.map_some,
      Option.getD_some, hrender, getFwbankOptionValue, sysmngrBankPolicy_find b.1 p hp]

/-! ### Positions -/

theorem optionChain_positions (policy : List Policy) (tb : ℕ → Option Attr) (optionName : String)
    (branches : List (ℕ × (Attr → Str))) (h : ∀ b ∈ branches, tb b.1 = none) :
    (optionChain policy tb optionName branches).2 = branches.map Prod.fst := by
  induction branches with
  | nil => rfl
  | cons b rest ih =>
    obtain ⟨i, render⟩ := b
    have hi : tb i = none := h (i, render) (List.mem_cons_self ..)
    have hmissing : ¬(policy[i]?.map Policy.name = some optionName ∧ (tb i).isSome) := by
      rw [hi]
      exact fun htest => Bool.noConfusion htest.2
    have hrest := ih fun b hb => h b (List.mem_cons_of_mem _ hb)
    rw [optionChain, if_neg hmissing, List.map_cons, ← hrest]

/-- The ninth position is looked at for every entry: by the parser if there is something
to parse, by the chain if there is not. -/
theorem eight_consulted (beyond : Option Policy) (raw : Attr → Str) (entry : Attr)
    (optionName : String) : 8 ∈ (getBlobmsgOptionValue beyond raw entry optionName).2 := by
  rw [getBlobmsgOptionValue, List.mem_append]
  by_cases hempty : entry.children.isEmpty = true
  · right
    have hnone : ∀ b ∈ optionBranches raw, parsedEntry beyond entry b.1 = none := by
      intro b _
      rw [parsedEntry, blobmsgParse, if_pos hempty]
      rfl
    rw [optionChain_positions _ _ _ _ hnone, optionBranches_positions]
    decide
  · left
    rw [parsedPositions, if_neg hempty]
    decide

/-- No entry and no field is read by the declared table alone. -/
theorem readsByTable_never (beyond : Option Policy) (raw : Attr → Str) (entry : Attr)
    (optionName : String) : ¬ReadsByTable beyond raw entry optionName := by
  intro h
  have hlt := h.positions 8 (eight_consulted beyond raw entry optionName)
  exact absurd hlt (by decide)

theorem whole_bank_overread :
    ¬∀ (beyond : Option Policy) (raw : Attr → Str) (entry : Attr),
      ∀ p ∈ sysmngrBankPolicy, ReadsByTable beyond raw entry p.name := by
  intro hall
  have h := hall none attrText bankTwo ⟨"status", .string⟩ (by decide)
  exact absurd (h.positions 8 (by decide)) (by decide)

end Sysmngr.FwImages
