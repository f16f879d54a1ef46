import Mathlib.Data.List.Nodup
import Sysmngr.Uci

/-!
# Vendor configuration files (`configs.c`)

The `vcf` sections of `dmmap` are brought in line with the files of the configuration
directory before they are listed: names that are missing are added, then sections whose
file is gone are deleted. The first pass goes by the name in the directory, the second by
a path that is put together in 128 bytes.
-/

namespace Sysmngr.Configs
open Text Uci

def DEFAULT_CONFIG_DIR : Str := "/etc/config/".toList

/-- The name of a file that the directory may have and that is not hidden. -/
structure Visible (name : Str) : Prop where
  ne : name ≠ []
  length : name.length ≤ 255
  slash : '/' ∉ name
  shown : name.head? ≠ some '.'

/-- A listing of the directory, and `file_exists`, which for a visible name tells what is
listed. -/
structure ConfigDir where
  files : List Str
  fileExists : Str → Bool
  names : ∀ f ∈ files, f ≠ [] ∧ f.length ≤ 255 ∧ '/' ∉ f
  nodup : files.Nodup
  listed : ∀ f, Visible f → (fileExists (DEFAULT_CONFIG_DIR ++ f) = true ↔ f ∈ files)

def vcfName (s : Section) : Str := s.get "name"

section Sync
variable (anon : List Section → Str)

/-- The section added for a file; `anon` is the name libuci gives it. -/
def newVcf (store : List Section) (name : Str) : Section :=
  (Section.mk (anon store) []).set "name" name |>.set "backup_restore" "1".toList

def addMissing (store : List Section) (name : Str) : List Section :=
  if name.head? = some '.' then store
  else if store.any fun s => vcfName s == name then store
  else store ++ [newVcf anon store name]

/-- What `cfg_path[128]` holds. -/
def cfgPath (name : Str) : Str := snprintf 128 (DEFAULT_CONFIG_DIR ++ name)

def dmmapSynchronizeVcfInst (dir : ConfigDir) (store : List Section) : List Section :=
  (dir.files.foldl (addMissing anon) store).filter fun s => dir.fileExists (cfgPath (vcfName s))

def HasSection (dir : ConfigDir) (name : Str) : Prop :=
  name ∈ dir.files ∧ name.head? ≠ some '.'

structure Synchronized (dir : ConfigDir) (store result : List Section) : Prop where
  names : ∀ name, name ∈ result.map vcfName ↔ HasSection dir name
  once : (result.map vcfName).Nodup
  kept : ∀ s ∈ store, HasSection dir (vcfName s) → s ∈ result
  stable : dmmapSynchronizeVcfInst anon dir result = result

/-- The first 115 characters of a visible file's name are the name of a file, and a section
whose name, cut there, leads somewhere has a visible file's name. -/
structure PathsFit (dir : ConfigDir) (store : List Section) : Prop where
  files : ∀ f ∈ dir.files, f.head? ≠ some '.' → f.take 115 ∈ dir.files
  store : ∀ s ∈ store, dir.fileExists (DEFAULT_CONFIG_DIR ++ (vcfName s).take 115) = true →
    HasSection dir (vcfName s)

/-! ### The first pass -/

theorem newVcf_name (store : List Section) (name : Str) :
    vcfName (newVcf anon store name) = name := by
  have hother : "name" ≠ "backup_restore" := by decide
  rw [vcfName, newVcf, Section.get_set_other _ _ _ _ hother, Section.get_set_self]

theorem addMissing_cases (store : List Section) (name : Str) :
    (addMissing anon store name = store ∧ (name.head? = some '.' ∨ name ∈ store.map vcfName)) ∨
      (addMissing anon store name = store ++ [newVcf anon store name] ∧
        name.head? ≠ some '.' ∧ name ∉ store.map vcfName) := by
  have htaken : (store.any fun s => vcfName s == name) = true ↔ name ∈ store.map vcfName := by
    simp only [List.any_eq_true, List.mem_map, beq_iff_eq]
  unfold addMissing
  by_cases hidden : name.head? = some '.'
  · rw [if_pos hidden]
    exact Or.inl ⟨rfl, Or.inl hidden⟩
  · rw [if_neg hidden]
    split
    · rename_i hany
      exact Or.inl ⟨rfl, Or.inr (htaken.mp hany)⟩
    · rename_i hany
      exact Or.inr ⟨rfl, hidden, fun h => hany (htaken.mpr h)⟩

theorem addMissing_names (store : List Section) (name f : Str) :
    f ∈ (addMissing anon store name).map vcfName ↔
      f ∈ store.map vcfName ∨ (f = name ∧ f.head? ≠ some '.') := by
  rcases addMissing_cases anon store name with ⟨heq, hold⟩ | ⟨heq, hshown, -⟩
  · rw [heq]
    refine (or_iff_left_of_imp ?_).symm
    rintro ⟨rfl, hshown⟩
    exact hold.resolve_left hshown
  · rw [heq, List.map_append, List.map_singleton, newVcf_name, List.mem_append,
      List.mem_singleton]
    refine or_congr_right ⟨fun h => ⟨h, ?_⟩, And.left⟩
    rw [h]
    exact hshown

theorem addMissing_nodup (store : List Section) (name : Str) (h : (store.map vcfName).Nodup) :
    ((addMissing anon store name).map vcfName).Nodup := by
  rcases addMissing_cases anon store name with ⟨heq, -⟩ | ⟨heq, -, hfree⟩
  · rw [heq]
    exact h
  · rw [heq, List.map_append, List.map_singleton, newVcf_name]
    refine List.nodup_append.mpr ⟨h, List.nodup_singleton _, ?_⟩
    rintro f hf g hg rfl
    rw [List.mem_singleton.mp hg] at hf
    exact hfree hf

theorem addMissing_extends (store : List Section) (name : Str) :
    store <+: addMissing anon store name := by
  rcases addMissing_cases anon store name with ⟨heq, -⟩ | ⟨heq, -⟩
  · rw [heq]
  · rw [heq]
    exact List.prefix_append _ _

theorem added_names (files : List Str) (store : List Section) (f : Str) :
    f ∈ (files.foldl (addMissing anon) store).map vcfName ↔
      f ∈ store.map vcfName ∨ (f ∈ files ∧ f.head? ≠ some '.') := by
  induction files generalizing store with
  | nil => simp
  | cons name files ih =>
    rw [List.foldl_cons, ih, addMissing_names, or_assoc, List.mem_cons, or_and_right]

theorem added_nodup (files : List Str) (store : List Section) (h : (store.map vcfName).Nodup) :
    ((files.foldl (addMissing anon) store).map vcfName).Nodup := by
  induction files generalizing store with
  | nil => exact h
  | cons name files ih => exact ih _ (addMissing_nodup anon store name h)

theorem added_extends (files : List Str) (store : List Section) :
    store <+: files.foldl (addMissing anon) store := by
  induction files generalizing store with
  | nil => exact List.prefix_refl _
  | cons name files ih => exact (addMissing_extends anon store name).trans (ih _)

theorem added_eq_self (files : List Str) (store : List Section)
    (h : ∀ f ∈ files, f.head? ≠ some '.' → f ∈ store.map vcfName) :
    files.foldl (addMissing anon) store = store := by
  induction files with
  | nil => rfl
  | cons name files ih =>
    have hname : addMissing anon store name = store := by
      rcases addMissing_cases anon store name with ⟨heq, -⟩ | ⟨-, hshown, hfree⟩
      · exact heq
      · exact absurd (h name (List.mem_cons_self ..) hshown) hfree
    rw [List.foldl_cons, hname, ih fun f hf => h f (List.mem_cons_of_mem _ hf)]

/-! ### The second pass -/

theorem cfgPath_eq (name : Str) : cfgPath name = DEFAULT_CONFIG_DIR ++ name.take 115 := by
  have hlength : DEFAULT_CONFIG_DIR.length = 12 := rfl
  have hcut : DEFAULT_CONFIG_DIR.take 127 = DEFAULT_CONFIG_DIR := rfl
  rw [cfgPath, snprintf, List.take_append, hlength, hcut]

theorem visible_take (f : Str) (hf : f ≠ [] ∧ f.length ≤ 255 ∧ '/' ∉ f)
    (hshown : f.head? ≠ some '.') : Visible (f.take 115) := by
  obtain ⟨hne, hlength, hslash⟩ := hf
  refine ⟨?_, ?_, fun h => hslash (List.mem_of_mem_take h), ?_⟩
  · cases f with
    | nil => exact absurd rfl hne
    | cons c t => exact List.cons_ne_nil _ _
  · have htake := List.length_take_le 115 f
    omega
  · cases f with
    | nil => exact absurd rfl hne
    | cons c t => exact hshown

/-- The section of a listed file survives exactly if what is left of its name is listed. -/
theorem survives_iff (dir : ConfigDir) (f : Str) (hf : HasSection dir f) :
    dir.fileExists (cfgPath f) = true ↔ f.take 115 ∈ dir.files := by
  rw [cfgPath_eq]
  exact dir.listed _ (visible_take f (dir.names f hf.1) hf.2)

theorem synchronized_mem (dir : ConfigDir) (store : List Section) (s : Section) :
    s ∈ dmmapSynchronizeVcfInst anon dir store ↔
      s ∈ dir.files.foldl (addMissing anon) store ∧
        dir.fileExists (cfgPath (vcfName s)) = true := by
  rw [dmmapSynchronizeVcfInst, List.mem_filter]

/-- Synchronisation leaves exactly the visible files, keeps their sections and is stable,
exactly when the paths fit. -/
theorem synchronized_iff_pathsFit (dir : ConfigDir) (store : List Section)
    (hstore : (store.map vcfName).Nodup) :
    Synchronized anon dir store (dmmapSynchronizeVcfInst anon dir store) ↔ PathsFit dir store := by
  constructor
  · intro h
    refine ⟨fun f hf hshown => ?_, fun s hs hexists => ?_⟩
    · obtain ⟨s, hs, hname⟩ := List.mem_map.mp ((h.names f).mpr ⟨hf, hshown⟩)
      have hexists := ((synchronized_mem anon dir store s).mp hs).2
      rw [hname] at hexists
      exact (survives_iff dir f ⟨hf, hshown⟩).mp hexists
    · rw [← cfgPath_eq] at hexists
      refine (h.names _).mp (List.mem_map_of_mem ?_)
      exact (synchronized_mem anon dir store s).mpr
        ⟨(added_extends anon dir.files store).subset hs, hexists⟩
  · intro h
    have hsurvives : ∀ s, HasSection dir (vcfName s) →
        dir.fileExists (cfgPath (vcfName s)) = true := fun s hs =>
      (survives_iff dir _ hs).mpr (h.files _ hs.1 hs.2)
    have hnames : ∀ name, name ∈ (dmmapSynchronizeVcfInst anon dir store).map vcfName ↔
        HasSection dir name := by
      intro name
      constructor
      · intro hmem
        obtain ⟨s, hs, rfl⟩ := List.mem_map.mp hmem
        obtain ⟨hadded, hexists⟩ := (synchronized_mem anon dir store s).mp hs
        rcases (added_names anon dir.files store _).mp (List.mem_map_of_mem hadded) with hold | hnew
        · obtain ⟨t, ht, htn⟩ := List.mem_map.mp hold
          rw [← htn, cfgPath_eq] at hexists
          rw [← htn]
          exact h.store t ht hexists
        · exact hnew
      · intro hfile
        obtain ⟨s, hs, rfl⟩ := List.mem_map.mp
          ((added_names anon dir.files store name).mpr (Or.inr hfile))
        exact List.mem_map_of_mem ((synchronized_mem anon dir store s).mpr ⟨hs, hsurvives s hfile⟩)
    refine ⟨hnames, ?_, fun s hs hfile => ?_, ?_⟩
    · exact (added_nodup anon dir.files store hstore).sublist (List.filter_sublist.map vcfName)
    · exact (synchronized_mem anon dir store s).mpr
        ⟨(added_extends anon dir.files store).subset hs, hsurvives s hfile⟩
    -- a second run adds nothing, and its second pass keeps what the first one kept
    · conv_lhs => rw [dmmapSynchronizeVcfInst]
      rw [added_eq_self anon dir.files _ fun f hf hshown => (hnames f).mpr ⟨hf, hshown⟩,
        dmmapSynchronizeVcfInst, List.filter_filter]
      simp only [Bool.and_self]

end Sync

def ConfigDir.single (name : Str) (h : name ≠ [] ∧ name.length ≤ 255 ∧ '/' ∉ name) :
    ConfigDir where
  files := [name]
  fileExists := fun path => path == DEFAULT_CONFIG_DIR ++ name
  names := fun f hf => by
    rw [List.mem_singleton.mp hf]
    exact h
  nodup := List.nodup_singleton name
  listed := fun f _ => by
    rw [beq_iff_eq, List.append_cancel_left_eq, List.mem_singleton]

def networkDir : ConfigDir := .single "network".toList (by decide)

theorem synchronized_network :
    Synchronized (fun _ => "cfg".toList) networkDir []
      (dmmapSynchronizeVcfInst (fun _ => "cfg".toList) networkDir []) :=
  (synchronized_iff_pathsFit (fun _ => "cfg".toList) networkDir [] List.nodup_nil).mpr
    ⟨fun f hf _ => by rw [List.mem_singleton.mp hf]; exact List.mem_singleton_self _,
      fun s hs => absurd hs List.not_mem_nil⟩

/-- The path of a name of 116 characters loses the last one. -/
def longDir : ConfigDir :=
  .single (List.replicate 116 'a') ⟨List.cons_ne_nil _ _, by decide, by decide⟩

theorem long_name_deleted :
    ¬∀ (anon : List Section → Str) (dir : ConfigDir) (store : List Section),
      (store.map vcfName).Nodup →
      Synchronized anon dir store (dmmapSynchronizeVcfInst anon dir store) := by
  intro hall
  have h := hall (fun _ => "cfg".toList) longDir [] List.nodup_nil
  obtain ⟨s, hs, hname⟩ := List.mem_map.mp ((h.names (List.replicate 116 'a')).mpr
    ⟨List.mem_singleton_self _, by decide⟩)
  have hexists := ((synchronized_mem _ longDir [] s).mp hs).2
  rw [hname] at hexists
  exact absurd hexists (by decide)

end Sysmngr.Configs
