import Sysmngr.FwImages.Reference

/-!
# Aliases of the listed instances

Validation asks for one whole bank, browsing lists every entry. The Alias getter means to
fall back on the instance number when an entry has no id; `get_fwbank_option_value` has
put `""` in place of a missing value by then, and the fallback is never taken.
-/

namespace Sysmngr.FwImages
open Text Blobmsg Fwbank

/-- The pointer the getters work on, `none` for NULL: the value or `""`. -/
def getFwbankOptionPointer (entry : Attr) (optionName : String) : Option Str :=
  some (getFwbankOptionValue entry optionName)

/-- `id ? id : instance` -/
def getDeviceInfoFirmwareImageAliasAt (inst : Str) (entry : Attr) : Str :=
  "cpe-".toList ++ (getFwbankOptionPointer entry "id").getD inst

/-- Instances are numbered from 1 in the order of the array. -/
def aliases (g : FwbankDump) : List Str :=
  (browseDeviceInfoFirmwareImageInst g).mapIdx fun i entry =>
    getDeviceInfoFirmwareImageAliasAt (printNat (i + 1)) entry

/-- The dump as the finish callback keeps it. -/
def cached (dump : List Attr) : FwbankDump :=
  { FwbankDump.initial with output := some (blobmsgAddBlob [] dump) }

def DistinctIds (g : FwbankDump) : Prop :=
  ((browseDeviceInfoFirmwareImageInst g).filterMap entryId).Nodup

instance (g : FwbankDump) : Decidable (DistinctIds g) := inferInstanceAs (Decidable (List.Nodup _))

structure DistinctAliases (g : FwbankDump) : Prop where
  nodup : (aliases g).Nodup
  named : "cpe-".toList ∉ aliases g

theorem aliases_eq (g : FwbankDump) :
    aliases g =
      (browseDeviceInfoFirmwareImageInst g).map getDeviceInfoFirmwareImageAlias := by
  -- the pointer is never NULL, so the instance number is nowhere used
  have hfallback : (fun (i : ℕ) entry => getDeviceInfoFirmwareImageAliasAt (printNat (i + 1))
      entry) = fun _ entry => getDeviceInfoFirmwareImageAlias entry := rfl
  rw [aliases, hfallback, List.mapIdx_eq_zipIdx_map]
  have hfst : (fun p : Attr × ℕ => getDeviceInfoFirmwareImageAlias p.1) =
      getDeviceInfoFirmwareImageAlias ∘ Prod.fst := rfl
  rw [hfst, ← List.map_map, List.zipIdx_map_fst]

theorem alias_bare_iff (entry : Attr) :
    getDeviceInfoFirmwareImageAlias entry = "cpe-".toList ↔ entryId entry = none := by
  constructor
  · intro hbare
    cases hid : entryId entry with
    | none => rfl
    | some n =>
      rw [alias_eq entry n hid, List.append_right_eq_self] at hbare
      exact absurd hbare (printInt_ne_nil _)
  · intro hid
    rw [getDeviceInfoFirmwareImageAlias, optionValue_of_entryId_none entry hid, List.append_nil]

theorem aliases_nodup (entries : List Attr) (hids : ∀ e ∈ entries, (entryId e).isSome)
    (hnodup : (entries.filterMap entryId).Nodup) :
    (entries.map getDeviceInfoFirmwareImageAlias).Nodup := by
  have hsome : (entries.filterMap entryId).map some = entries.map entryId := by
    rw [List.map_filterMap_some_eq_filter_map_isSome, List.filter_eq_self]
    intro id hid
    obtain ⟨e, he, rfl⟩ := List.mem_map.mp hid
    exact hids e he
  have hmap : (entries.map entryId).Nodup := by
    rw [← hsome]
    exact hnodup.map fun _ _ => Option.some.inj
  refine List.Nodup.map_on ?_ (List.Nodup.of_map _ hmap)
  intro a ha b hb hab
  obtain ⟨m, hm⟩ := Option.isSome_iff_exists.mp (hids a ha)
  obtain ⟨n, hn⟩ := Option.isSome_iff_exists.mp (hids b hb)
  rw [alias_eq a m hm, alias_eq b n hn, List.append_cancel_left_eq] at hab
  have hmn := idText_inj m n (entryId_lt a m hm) (entryId_lt b n hn) hab
  exact List.inj_on_of_nodup_map hmap ha hb (by rw [hm, hn, hmn])

/-- The listed aliases are pairwise distinct and none is bare exactly when every listed
entry carries an id. -/
theorem distinctAliases_iff_ids_present (g : FwbankDump) (hids : DistinctIds g) :
    DistinctAliases g ↔
      ∀ entry ∈ browseDeviceInfoFirmwareImageInst g, (entryId entry).isSome := by
  constructor
  · intro h entry hentry
    rw [Option.isSome_iff_ne_none]
    intro hnone
    refine h.named ?_
    rw [aliases_eq, List.mem_map]
    exact ⟨entry, hentry, (alias_bare_iff entry).mpr hnone⟩
  · intro hall
    refine ⟨?_, ?_⟩
    · rw [aliases_eq]
      exact aliases_nodup _ hall hids
    · rw [aliases_eq, List.mem_map]
      rintro ⟨entry, hentry, hbare⟩
      have hsome := hall entry hentry
      rw [(alias_bare_iff entry).mp hbare] at hsome
      exact Bool.noConfusion hsome

theorem distinctAliases_two_banks : DistinctAliases (twoBanks 1 2) :=
  (distinctAliases_iff_ids_present (twoBanks 1 2) (by decide)).mpr (by
    intro entry hentry
    obtain ⟨id, inUse, rfl⟩ := whole_of_mem_twoBanks 1 2 entry hentry
    rfl)

/-- A whole bank, so that the dump is accepted, and two that carry only a name. -/
def namelessDump : List Attr :=
  [.array "bank" [wholeBank 1 true, .table "" [.string "name" "b".toList],
    .table "" [.string "name" "c".toList]]]

theorem bare_aliases_listed :
    ¬∀ dump, validateGlobalFwbankDump dump = true → DistinctIds (cached dump) →
      DistinctAliases (cached dump) := by
  intro hall
  have h := hall namelessDump rfl (by decide)
  exact h.named (by decide)

end Sysmngr.FwImages
