import Mathlib.Data.List.MinMax
import Sysmngr.IsoTime
import Sysmngr.Machine
import Sysmngr.Configs.Vcf

/-!
# The table of vendor configuration files (`configs.c`)

Every browsing brings the sections in line with the directory and then numbers those that
have no number, up to the one at which its caller stops. The directory changes from one
browsing to the next, and aliases are written in between.
-/

namespace Sysmngr.Configs
open Text Uci Calendar Machine

/-! ### Browsing -/

/-- What a browsing meets: the directory with the times of its files, the section at which
the caller stops, and what `date[]` holds before `strftime` fills it. -/
structure Visit where
  dir : ConfigDir
  mtime : Str → ℤ
  stop : Section → Bool
  uninitialised : Str

structure VcfRow where
  number : Str
  name : Str
  date : Str
  backupRestore : Str

def vcfNumber (s : Section) : Str := s.get "vcf_instance"

def vcfAlias (s : Section) : Str := s.get "vcf_alias"

/-- The text of a file's time; one that does not fit is not written. -/
def fileDate (v : Visit) (file : Str) : Str :=
  let date := strftimeIso 21 (gmtime (v.mtime file))
  if date = [] then v.uninitialised else date

def getVcfDate (v : Visit) (configName : Str) : Str :=
  v.dir.files.foldl (fun value file => if configName = file then fileDate v file else value)
    "0001-01-01T00:00:00Z".toList

def vcfRow (v : Visit) (s : Section) : VcfRow where
  number := vcfNumber s
  name := vcfName s
  date := getVcfDate v (vcfName s)
  backupRestore := s.get "backup_restore"

inductive VcfEvent where
  | browse (v : Visit)
  | setAlias (name value : Str)

section Library
variable (anon fresh : List Section → Str)

/-- `handle_instance`: the number that a section has, or a new one of the library's choice. -/
def handleInstance (store : List Section) (s : Section) : Section :=
  if vcfNumber s = [] then s.set "vcf_instance" (fresh store) else s

/-- The loop over the sections; `done` are those behind it. -/
def browseFrom (v : Visit) : List Section → List Section → List Section × List VcfRow
  | done, [] => (done, [])
  | done, s :: rest =>
    let s' := handleInstance fresh (done ++ s :: rest) s
    if v.stop s' then (done ++ s' :: rest, [vcfRow v s'])
    else
      let r := browseFrom v (done ++ [s']) rest
      (r.1, vcfRow v s' :: r.2)

def browseVcfInst (v : Visit) (store : List Section) : List Section × List VcfRow :=
  browseFrom fresh v [] (dmmapSynchronizeVcfInst anon v.dir store)

def vcfStep (store : List Section) : VcfEvent → List Section × Option (Visit × List VcfRow)
  | .browse v =>
    let r := browseVcfInst anon fresh v store
    (r.1, some (v, r.2))
  | .setAlias name value =>
    (store.map fun s => if vcfName s = name then s.set "vcf_alias" value else s, none)

/-! ### Numbers -/

/-- A number that no section has. -/
def Fresh : Prop := ∀ store, fresh store ≠ [] ∧ ∀ s ∈ store, vcfNumber s ≠ fresh store

/-- The same section, with a number at last. -/
def Numbered (s u : Section) : Prop :=
  u = s ∨ vcfNumber s = [] ∧ ∃ n, u = s.set "vcf_instance" n

theorem Numbered.get {s u : Section} (h : Numbered s u) (option : String)
    (ho : option ≠ "vcf_instance") : u.get option = s.get option := by
  rcases h with rfl | ⟨-, n, rfl⟩
  · rfl
  · exact Section.get_set_other _ _ _ _ ho

theorem Numbered.name {s u : Section} (h : Numbered s u) : vcfName u = vcfName s :=
  h.get "name" (by decide)

theorem Numbered.number {s u : Section} (h : Numbered s u) (hs : vcfNumber s ≠ []) :
    vcfNumber u = vcfNumber s := by
  rcases h with rfl | ⟨hnone, -⟩
  · rfl
  · exact absurd hnone hs

/-- No two files have one number. -/
def Distinct (store : List Section) : Prop :=
  ∀ s ∈ store, ∀ t ∈ store, vcfNumber s ≠ [] → vcfNumber s = vcfNumber t →
    vcfName s = vcfName t

theorem handleInstance_numbered (store : List Section) (s : Section) :
    Numbered s (handleInstance fresh store s) := by
  rw [handleInstance]
  split
  · rename_i hnone
    exact Or.inr ⟨hnone, fresh store, rfl⟩
  · exact Or.inl rfl

variable {fresh}

theorem handleInstance_ne_nil (hfresh : Fresh fresh) (store : List Section) (s : Section) :
    vcfNumber (handleInstance fresh store s) ≠ [] := by
  rw [handleInstance]
  split
  · rw [vcfNumber, Section.get_set_self]
    exact (hfresh store).1
  · assumption

/-- A new number is nobody else's. -/
theorem handleInstance_distinct (hfresh : Fresh fresh) (done rest : List Section) (s : Section)
    (h : Distinct (done ++ s :: rest)) :
    Distinct (done ++ handleInstance fresh (done ++ s :: rest) s :: rest) := by
  obtain ⟨s', hs'⟩ : ∃ s', handleInstance fresh (done ++ s :: rest) s = s' := ⟨_, rfl⟩
  have hnumbered := hs' ▸ handleInstance_numbered fresh (done ++ s :: rest) s
  have hself : s ∈ done ++ s :: rest := List.mem_append_right _ (List.mem_cons_self ..)
  have hold : ∀ t, t ∈ done ++ s' :: rest → t = s' ∨ t ∈ done ++ s :: rest := by
    intro t ht
    rw [List.mem_append, List.mem_cons] at ht ⊢
    tauto
  -- the number of the section at hand, if it is new, is not that of an old section
  have hother : ∀ t ∈ done ++ s :: rest, vcfNumber s' = vcfNumber t → vcfName s' = vcfName t := by
    intro t ht hnumber
    rw [hnumbered.name]
    by_cases hnone : vcfNumber s = []
    · have hnew : vcfNumber s' = fresh (done ++ s :: rest) := by
        rw [← hs', handleInstance, if_pos hnone, vcfNumber, Section.get_set_self]
      exact absurd (hnumber.symm.trans hnew) ((hfresh _).2 t ht)
    · exact h s hself t ht hnone ((hnumbered.number hnone).symm.trans hnumber)
  rw [hs']
  intro a ha b hb hne hab
  rcases hold a ha with heqa | ha
  · rw [heqa] at hab ⊢
    rcases hold b hb with heqb | hb
    · rw [heqb]
    · exact hother b hb hab
  · rcases hold b hb with heqb | hb
    · rw [heqb] at hab ⊢
      exact (hother a ha hab.symm).symm
    · exact h a ha b hb hne hab

/-- What the loop leaves: the same sections with their numbers, of which those it got to are
shown. -/
structure Browsed (v : Visit) (done rest : List Section) (r : List Section × List VcfRow) :
    Prop where
  sections : ∃ rest', r.1 = done ++ rest' ∧ List.Forall₂ Numbered rest rest'
  distinct : Distinct r.1
  shown : ∃ shown, r.2 = shown.map (vcfRow v) ∧ done ++ shown <+: r.1 ∧
    (∀ u ∈ shown, vcfNumber u ≠ []) ∧ ((∀ s, v.stop s = false) → done ++ shown = r.1)

theorem browseFrom_browsed (hfresh : Fresh fresh) (v : Visit) (done rest : List Section)
    (h : Distinct (done ++ rest)) : Browsed v done rest (browseFrom fresh v done rest) := by
  induction rest generalizing done with
  | nil =>
    rw [List.append_nil] at h
    refine ⟨⟨[], (List.append_nil done).symm, .nil⟩, h, [], rfl, ?_, ?_, ?_⟩
    · rw [List.append_nil]
      exact List.prefix_refl done
    · exact fun u hu => absurd hu List.not_mem_nil
    · exact fun _ => List.append_nil done
  | cons s rest ih =>
    have hdistinct := handleInstance_distinct hfresh done rest s h
    have hnumbered := handleInstance_numbered fresh (done ++ s :: rest) s
    have hne := handleInstance_ne_nil hfresh (done ++ s :: rest) s
    obtain ⟨s', hs'⟩ : ∃ s', handleInstance fresh (done ++ s :: rest) s = s' := ⟨_, rfl⟩
    rw [browseFrom]
    simp only [hs'] at hdistinct hnumbered hne ⊢
    split
    · rename_i hstop
      refine ⟨⟨s' :: rest, rfl, .cons hnumbered (List.forall₂_same.mpr fun _ _ => Or.inl rfl)⟩,
        hdistinct, [s'], rfl, ?_, ?_, ?_⟩
      · exact ⟨rest, (List.append_cons done s' rest).symm⟩
      · intro u hu
        rwa [List.mem_singleton.mp hu]
      · intro hall
        exact absurd (hall s') (by rw [hstop]; decide)
    · have happend : done ++ s' :: rest = (done ++ [s']) ++ rest := List.append_cons ..
      rw [happend] at hdistinct
      obtain ⟨⟨rest', hsections, hforall⟩, hnext, shown, hrows, hreached, hnumbers, hwhole⟩ :=
        ih (done ++ [s']) hdistinct
      refine ⟨⟨s' :: rest', ?_, .cons hnumbered hforall⟩, hnext, s' :: shown, ?_, ?_, ?_, ?_⟩
      · exact hsections.trans (List.append_cons done s' rest').symm
      · rw [List.map_cons, hrows]
      · rwa [List.append_cons]
      · exact List.forall_mem_cons.mpr ⟨hne, hnumbers⟩
      · rwa [List.append_cons]

/-! ### Synchronisation -/

/-- A visible file of at most 115 characters, whose path is not cut. -/
structure Plain (name : Str) : Prop where
  visible : Visible name
  short : name.length ≤ 115

/-- The directory's visible files have names that fit. -/
def Visit.Fits (v : Visit) : Prop :=
  ∀ f ∈ v.dir.files, f.head? ≠ some '.' → f.length ≤ 115

structure Tidy (store : List Section) : Prop where
  names : (store.map vcfName).Nodup
  plain : ∀ s ∈ store, Plain (vcfName s)
  backup : ∀ s ∈ store, s.get "backup_restore" = "1".toList
  distinct : Distinct store

theorem newVcf_fresh (store : List Section) (name : Str) :
    vcfNumber (newVcf anon store name) = [] ∧
      (newVcf anon store name).get "backup_restore" = "1".toList := by
  constructor
  · rw [vcfNumber, newVcf, Section.get_set_other _ _ _ _ (by decide),
      Section.get_set_other _ _ _ _ (by decide)]
    rfl
  · rw [newVcf, Section.get_set_self]

theorem added_mem (files : List Str) (store : List Section) (s : Section)
    (h : s ∈ files.foldl (addMissing anon) store) :
    s ∈ store ∨ vcfNumber s = [] ∧ s.get "backup_restore" = "1".toList ∧
      vcfName s ∈ files ∧ (vcfName s).head? ≠ some '.' := by
  induction files generalizing store with
  | nil => exact Or.inl h
  | cons name files ih =>
    rcases ih (addMissing anon store name) h with hold | ⟨hnumber, hbackup, hname, hshown⟩
    · rcases addMissing_cases anon store name with ⟨heq, -⟩ | ⟨heq, hshown, -⟩
      · exact Or.inl (heq ▸ hold)
      · rw [heq, List.mem_append, List.mem_singleton] at hold
        rcases hold with hold | rfl
        · exact Or.inl hold
        · obtain ⟨hnumber, hbackup⟩ := newVcf_fresh anon store name
          rw [newVcf_name]
          exact Or.inr ⟨hnumber, hbackup, List.mem_cons_self .., hshown⟩
    · exact Or.inr ⟨hnumber, hbackup, List.mem_cons_of_mem _ hname, hshown⟩

/-- The path of a plain name leads to the file of that name. -/
theorem Plain.exists_iff {name : Str} (h : Plain name) (dir : ConfigDir) :
    dir.fileExists (cfgPath name) = true ↔ HasSection dir name := by
  rw [cfgPath_eq, List.take_of_length_le h.short, dir.listed name h.visible]
  exact (and_iff_left h.visible.shown).symm

theorem sync_tidy (v : Visit) (hfits : v.Fits) (store : List Section) (h : Tidy store) :
    Tidy (dmmapSynchronizeVcfInst anon v.dir store) ∧
      (∀ f, f ∈ (dmmapSynchronizeVcfInst anon v.dir store).map vcfName ↔ HasSection v.dir f) ∧
      ∀ s ∈ store, HasSection v.dir (vcfName s) →
        s ∈ dmmapSynchronizeVcfInst anon v.dir store := by
  have hplain : ∀ s ∈ v.dir.files.foldl (addMissing anon) store, Plain (vcfName s) := by
    intro s hs
    rcases added_mem anon _ _ s hs with hold | ⟨-, -, hname, hshown⟩
    · exact h.plain s hold
    · obtain ⟨hne, hlength, hslash⟩ := v.dir.names _ hname
      exact ⟨⟨hne, hlength, hslash, hshown⟩, hfits _ hname hshown⟩
  have hmem : ∀ s, s ∈ dmmapSynchronizeVcfInst anon v.dir store ↔
      s ∈ v.dir.files.foldl (addMissing anon) store ∧ HasSection v.dir (vcfName s) := by
    intro s
    rw [synchronized_mem]
    exact and_congr_right fun hs => (hplain s hs).exists_iff v.dir
  have hkept : ∀ s ∈ store, HasSection v.dir (vcfName s) →
      s ∈ dmmapSynchronizeVcfInst anon v.dir store := fun s hs hfile =>
    (hmem s).mpr ⟨(added_extends anon v.dir.files store).subset hs, hfile⟩
  refine ⟨⟨?_, fun s hs => hplain s ((hmem s).mp hs).1, fun s hs => ?_, ?_⟩, fun f => ?_, hkept⟩
  · exact (added_nodup anon v.dir.files store h.names).sublist (List.filter_sublist.map vcfName)
  · exact (added_mem anon _ _ s ((hmem s).mp hs).1).elim (h.backup s) fun hnew => hnew.2.1
  · intro s hs t ht hne hnumber
    have hold : ∀ u ∈ dmmapSynchronizeVcfInst anon v.dir store, vcfNumber u ≠ [] → u ∈ store :=
      fun u hu hu' => (added_mem anon _ _ u ((hmem u).mp hu).1).resolve_right
        fun hnew => hu' hnew.1
    exact h.distinct s (hold s hs hne) t (hold t ht (hnumber ▸ hne)) hne hnumber
  · constructor
    · intro hf
      obtain ⟨s, hs, rfl⟩ := List.mem_map.mp hf
      exact ((hmem s).mp hs).2
    · intro hfile
      obtain ⟨s, hs, rfl⟩ := List.mem_map.mp
        ((added_names anon v.dir.files store f).mpr (Or.inr hfile))
      exact List.mem_map_of_mem ((hmem s).mpr ⟨hs, hfile⟩)

/-! ### One browsing -/

/-- A row for every visible file that the caller gets to, under a number of its own and with
the file's time. -/
structure ShowsFiles (v : Visit) (rows : List VcfRow) : Prop where
  files : ∀ r ∈ rows, HasSection v.dir r.name
  once : (rows.map VcfRow.name).Nodup
  numbered : ∀ r ∈ rows, r.number ≠ []
  numbers : (rows.map VcfRow.number).Nodup
  dates : ∀ r ∈ rows, fourDigitYears (v.mtime r.name) → readIso r.date = some (v.mtime r.name)
  backup : ∀ r ∈ rows, r.backupRestore = "1".toList
  whole : (∀ s, v.stop s = false) → ∀ f, HasSection v.dir f → f ∈ rows.map VcfRow.name

theorem forall₂_numbered {l l' : List Section} (h : List.Forall₂ Numbered l l') :
    l'.map vcfName = l.map vcfName ∧ (∀ s ∈ l, ∃ u ∈ l', Numbered s u) ∧
      ∀ u ∈ l', ∃ s ∈ l, Numbered s u := by
  induction h with
  | nil =>
    exact ⟨rfl, fun s hs => absurd hs List.not_mem_nil, fun u hu => absurd hu List.not_mem_nil⟩
  | cons hsu hrest ih =>
    obtain ⟨hnames, hforth, hback⟩ := ih
    refine ⟨?_, ?_, ?_⟩
    · rw [List.map_cons, List.map_cons, hsu.name, hnames]
    · refine List.forall_mem_cons.mpr ⟨⟨_, List.mem_cons_self .., hsu⟩, fun s hs => ?_⟩
      obtain ⟨u, hu, hnumbered⟩ := hforth s hs
      exact ⟨u, List.mem_cons_of_mem _ hu, hnumbered⟩
    · refine List.forall_mem_cons.mpr ⟨⟨_, List.mem_cons_self .., hsu⟩, fun u hu => ?_⟩
      obtain ⟨s, hs, hnumbered⟩ := hback u hu
      exact ⟨s, List.mem_cons_of_mem _ hs, hnumbered⟩

theorem getVcfDate_file (v : Visit) (name : Str) (h : name ∈ v.dir.files) :
    getVcfDate v name = fileDate v name := by
  have hfold : ∀ (files : List Str) (value : Str),
      files.foldl (fun value file => if name = file then fileDate v file else value) value =
        if name ∈ files then fileDate v name else value := by
    intro files
    induction files with
    | nil => exact fun value => rfl
    | cons f rest ih =>
      intro value
      rw [List.foldl_cons, ih]
      by_cases hf : name = f
      · rw [if_pos hf, ← hf, if_pos (List.mem_cons_self ..), ite_self]
      · simp only [List.mem_cons, hf, false_or, if_false]
  rw [getVcfDate, hfold, if_pos h]

theorem getVcfDate_reads (v : Visit) (name : Str) (h : name ∈ v.dir.files)
    (hyear : fourDigitYears (v.mtime name)) :
    readIso (getVcfDate v name) = some (v.mtime name) := by
  have hread := (readIso_strftimeIso 21 (by decide) (v.mtime name)).mpr hyear
  have hne : strftimeIso 21 (gmtime (v.mtime name)) ≠ [] := by
    intro hnil
    have hnone : readIso [] = none := rfl
    rw [hnil, hnone] at hread
    exact absurd hread (by simp)
  rw [getVcfDate_file v name h, fileDate]
  simp only [if_neg hne]
  exact hread

/-- The sections at the front of a table that is in line with the directory. -/
theorem showsFiles_front (v : Visit) (store shown : List Section) (h : Tidy store)
    (hnames : ∀ f, f ∈ store.map vcfName ↔ HasSection v.dir f) (hfront : shown <+: store)
    (hnumbers : ∀ u ∈ shown, vcfNumber u ≠ [])
    (hwhole : (∀ s, v.stop s = false) → shown = store) :
    ShowsFiles v (shown.map (vcfRow v)) := by
  have honce : (shown.map vcfName).Nodup := h.names.sublist (hfront.sublist.map vcfName)
  have hfile : ∀ u ∈ shown, HasSection v.dir (vcfName u) := fun u hu =>
    (hnames _).mp (List.mem_map_of_mem (hfront.subset hu))
  refine ⟨?_, ?_, ?_, ?_, ?_, ?_, ?_⟩
  · exact List.forall_mem_map.mpr hfile
  · rw [List.map_map]
    exact honce
  · exact List.forall_mem_map.mpr hnumbers
  · rw [List.map_map]
    refine (List.nodup_map_iff_inj_on honce.of_map).mpr fun a ha b hb hab => ?_
    have hname := h.distinct a (hfront.subset ha) b (hfront.subset hb) (hnumbers a ha) hab
    exact List.inj_on_of_nodup_map honce ha hb hname
  · exact List.forall_mem_map.mpr fun u hu => getVcfDate_reads v _ (hfile u hu).1
  · exact List.forall_mem_map.mpr fun u hu => h.backup u (hfront.subset hu)
  · intro hall f hf
    rw [List.map_map, hwhole hall]
    exact (hnames f).mpr hf

theorem browse_tidy (hfresh : Fresh fresh) (v : Visit) (hfits : v.Fits) (store : List Section)
    (h : Tidy store) :
    Tidy (browseVcfInst anon fresh v store).1 ∧
      ShowsFiles v (browseVcfInst anon fresh v store).2 ∧
      ∀ t ∈ store, HasSection v.dir (vcfName t) →
        ∃ u ∈ (browseVcfInst anon fresh v store).1, Numbered t u := by
  obtain ⟨hsync, hnames, hkept⟩ := sync_tidy anon v hfits store h
  obtain ⟨⟨rest', hsections, hforall⟩, hdistinct, shown, hrows, hreached, hnumbers, hwhole⟩ :=
    browseFrom_browsed hfresh v [] _ (by rw [List.nil_append]; exact hsync.distinct)
  rw [List.nil_append] at hsections hreached hwhole
  rw [← hsections] at hforall
  obtain ⟨hsame, hforth, hback⟩ := forall₂_numbered hforall
  have hresult : Tidy (browseVcfInst anon fresh v store).1 := by
    refine ⟨?_, fun u hu => ?_, fun u hu => ?_, hdistinct⟩
    · exact hsame ▸ hsync.names
    · obtain ⟨s, hs, hnumbered⟩ := hback u hu
      rw [hnumbered.name]
      exact hsync.plain s hs
    · obtain ⟨s, hs, hnumbered⟩ := hback u hu
      rw [hnumbered.get _ (by decide)]
      exact hsync.backup s hs
  refine ⟨hresult, ?_, fun t ht hlisted => hforth t (hkept t ht hlisted)⟩
  rw [browseVcfInst, hrows]
  exact showsFiles_front v _ shown hresult (fun f => hsame ▸ hnames f) hreached hnumbers hwhole

/-! ### Histories -/

def VcfEvent.Fits : VcfEvent → Prop
  | .browse v => v.Fits
  | .setAlias _ _ => True

/-- The file is there when the event comes. -/
def VcfEvent.Lists (file : Str) : VcfEvent → Prop
  | .browse v => HasSection v.dir file
  | .setAlias _ _ => True

/-- The alias that was given to a file last. -/
def lastAlias (file given : Str) (es : List VcfEvent) : Str :=
  es.foldl (fun given e =>
    match e with
    | .setAlias name value => if name = file then value else given
    | .browse _ => given) given

/-- What stays with a file: its number, once it has one, and its alias. -/
structure SameFile (es : List VcfEvent) (t u : Section) : Prop where
  name : vcfName u = vcfName t
  number : vcfNumber t ≠ [] → vcfNumber u = vcfNumber t
  given : vcfAlias u = lastAlias (vcfName t) (vcfAlias t) es

theorem SameFile.trans {e : VcfEvent} {es : List VcfEvent} {s t u : Section}
    (h : SameFile [e] s t) (h' : SameFile es t u) : SameFile (e :: es) s u where
  name := h'.name.trans h.name
  number hs := (h'.number (by rwa [h.number hs])).trans (h.number hs)
  given := by
    rw [h'.given, h.given, h.name]
    rfl

theorem setAlias_get (name value : Str) (s : Section) (option : String)
    (ho : option ≠ "vcf_alias") :
    (if vcfName s = name then s.set "vcf_alias" value else s).get option = s.get option := by
  split
  · exact Section.get_set_other _ _ _ _ ho
  · rfl

theorem setAlias_tidy (name value : Str) (store : List Section) (h : Tidy store) :
    Tidy (store.map fun s => if vcfName s = name then s.set "vcf_alias" value else s) := by
  have hname : ∀ s, vcfName (if vcfName s = name then s.set "vcf_alias" value else s) = vcfName s :=
    fun s => setAlias_get name value s "name" (by decide)
  have hnumber : ∀ s, vcfNumber (if vcfName s = name then s.set "vcf_alias" value else s) =
      vcfNumber s := fun s => setAlias_get name value s "vcf_instance" (by decide)
  refine ⟨?_, List.forall_mem_map.mpr fun s hs => ?_, List.forall_mem_map.mpr fun s hs => ?_,
    List.forall_mem_map.mpr fun s hs => List.forall_mem_map.mpr fun t ht => ?_⟩
  · rw [List.map_map]
    exact (List.map_congr_left fun s _ => hname s) ▸ h.names
  · rw [hname]
    exact h.plain s hs
  · rw [setAlias_get _ _ _ _ (by decide)]
    exact h.backup s hs
  · rw [hname, hname, hnumber, hnumber]
    exact h.distinct s hs t ht

theorem vcfStep_tidy (hfresh : Fresh fresh) (store : List Section) (e : VcfEvent)
    (h : Tidy store) (hfits : e.Fits) : Tidy (vcfStep anon fresh store e).1 := by
  cases e with
  | browse v => exact (browse_tidy anon hfresh v hfits store h).1
  | setAlias name value => exact setAlias_tidy name value store h

theorem vcfStep_same (hfresh : Fresh fresh) (store : List Section) (e : VcfEvent)
    (h : Tidy store) (hfits : e.Fits) (t : Section) (ht : t ∈ store)
    (hlists : e.Lists (vcfName t)) : ∃ u ∈ (vcfStep anon fresh store e).1, SameFile [e] t u := by
  cases e with
  | browse v =>
    obtain ⟨u, hu, hnumbered⟩ := (browse_tidy anon hfresh v hfits store h).2.2 t ht hlists
    exact ⟨u, hu, hnumbered.name, hnumbered.number, hnumbered.get _ (by decide)⟩
  | setAlias name value =>
    refine ⟨_, List.mem_map_of_mem ht, setAlias_get _ _ _ _ (by decide),
      fun _ => setAlias_get _ _ _ _ (by decide), ?_⟩
    by_cases hname : vcfName t = name
    · rw [if_pos hname, vcfAlias, Section.get_set_self]
      exact (if_pos hname.symm).symm
    · rw [if_neg hname]
      exact (if_neg (Ne.symm hname)).symm

theorem run_same (hfresh : Fresh fresh) (store : List Section) (es : List VcfEvent)
    (h : Tidy store) (hfits : ∀ e ∈ es, e.Fits) (t : Section) (ht : t ∈ store)
    (hlists : ∀ e ∈ es, e.Lists (vcfName t)) :
    ∃ u ∈ (run (vcfStep anon fresh) store es).1, SameFile es t u := by
  induction es generalizing store t with
  | nil => exact ⟨t, ht, rfl, fun _ => rfl, rfl⟩
  | cons e es ih =>
    rw [List.forall_mem_cons] at hfits hlists
    obtain ⟨s, hs, hsame⟩ := vcfStep_same anon hfresh store e h hfits.1 t ht hlists.1
    obtain ⟨u, hu, hrest⟩ := ih _ (vcfStep_tidy anon hfresh store e h hfits.1) hfits.2 s hs
      (by rw [hsame.name]; exact hlists.2)
    exact ⟨u, hu, hsame.trans hrest⟩

/-- Every browsing of a history shows the files that are there, and for as long as a file is
there whenever it is browsed, its number and its alias stay with it. -/
theorem table_follows_directory (hfresh : Fresh fresh) (es : List VcfEvent)
    (hfits : ∀ e ∈ es, e.Fits) :
    (∀ v rows, some (v, rows) ∈ (run (vcfStep anon fresh) [] es).2 → ShowsFiles v rows) ∧
      ∀ pre post, es = pre ++ post → ∀ t ∈ (run (vcfStep anon fresh) [] pre).1,
        (∀ e ∈ post, e.Lists (vcfName t)) →
          ∃ u ∈ (run (vcfStep anon fresh) [] es).1, SameFile post t u := by
  have htidy : Tidy [] := ⟨List.nodup_nil, fun s hs => absurd hs List.not_mem_nil,
    fun s hs => absurd hs List.not_mem_nil, fun s hs => absurd hs List.not_mem_nil⟩
  have hstep : ∀ store e, Tidy store → e.Fits → Tidy (vcfStep anon fresh store e).1 :=
    fun store e => vcfStep_tidy anon hfresh store e
  constructor
  · intro v rows hout
    refine run_outputs_forall (vcfStep anon fresh) (fun _ e => e.Fits) Tidy
      (fun o => ∀ v rows, o = some (v, rows) → ShowsFiles v rows) hstep ?_ [] es htidy
      (along_of_mem _ _ [] es hfits) _ hout v rows rfl
    intro store e h hfit v rows ho
    cases e with
    | browse v' =>
      obtain ⟨rfl, rfl⟩ := Prod.mk.inj (Option.some.inj ho)
      exact (browse_tidy anon hfresh v' hfit store h).2.1
    | setAlias name value => exact absurd ho (by simp [vcfStep])
  · rintro pre post rfl t ht hlists
    rw [List.forall_mem_append] at hfits
    rw [run_append]
    have hpre := run_invariant (vcfStep anon fresh) (fun _ e => e.Fits) Tidy hstep [] pre htidy
      (along_of_mem _ _ [] pre hfits.1)
    exact run_same anon hfresh _ post hpre hfits.2 t ht hlists

end Library

/-- The library's choice: one more than the largest number. -/
def nextNumber (store : List Section) : Str :=
  printNat (((store.map fun s => digitsValue (vcfNumber s)).foldr max 0) + 1)

theorem nextNumber_fresh : Fresh nextNumber := by
  intro store
  refine ⟨printNat_ne_nil _, fun s hs hnumber => ?_⟩
  have hvalue := congrArg digitsValue hnumber
  rw [nextNumber, digitsValue_printNat] at hvalue
  have hmax : digitsValue (vcfNumber s) ≤
      (store.map fun s => digitsValue (vcfNumber s)).foldr max 0 :=
    List.le_max_of_le' 0 (List.mem_map_of_mem hs) (Nat.le_refl _)
  omega

/-- A directory that is browsed to the end, an alias given, and browsed again. -/
def networkVisit : Visit := ⟨networkDir, fun _ => 1727037285, fun _ => false, []⟩

def networkHistory : List VcfEvent :=
  [.browse networkVisit, .setAlias "network".toList "lan".toList, .browse networkVisit]

def networkSection : Section :=
  ⟨"cfg".toList, [("name", "network".toList), ("backup_restore", "1".toList),
    ("vcf_instance", "1".toList)]⟩

theorem networkHistory_fits : ∀ e ∈ networkHistory, e.Fits := by
  have hvisit : networkVisit.Fits := fun f hf _ => by
    rw [List.mem_singleton.mp hf]
    decide
  simp only [networkHistory, List.forall_mem_cons, VcfEvent.Fits]
  exact ⟨hvisit, trivial, hvisit, fun e he => absurd he List.not_mem_nil⟩

theorem table_follows_directory_sample :
    (∀ v rows, some (v, rows) ∈
        (run (vcfStep (fun _ => "cfg".toList) nextNumber) [] networkHistory).2 →
          ShowsFiles v rows) ∧
      ∃ u ∈ (run (vcfStep (fun _ => "cfg".toList) nextNumber) [] networkHistory).1,
        vcfNumber u = "1".toList ∧ vcfAlias u = "lan".toList := by
  obtain ⟨hshows, hsame⟩ := table_follows_directory (fun _ => "cfg".toList) nextNumber_fresh
    networkHistory networkHistory_fits
  refine ⟨hshows, ?_⟩
  have hlisted : HasSection networkDir "network".toList :=
    ⟨List.mem_singleton_self _, by decide⟩
  obtain ⟨u, hu, h⟩ := hsame [.browse networkVisit] _ rfl networkSection (by decide) (by
    simp only [List.forall_mem_cons]
    exact ⟨trivial, hlisted, fun e he => absurd he List.not_mem_nil⟩)
  exact ⟨u, hu, h.number (by decide), h.given⟩

end Sysmngr.Configs
