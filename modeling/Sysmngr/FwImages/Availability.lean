import Sysmngr.FwImages.Reference
import Sysmngr.Upsert

/-!
# A history of writes to Available

The setter updates the section whose id is the bank's or appends one, and the getter reads
by equality as well. The gate of BootFirmwareImage takes the first section whose id
contains the bank's: the bank among those that was written first answers for the others.
-/

namespace Sysmngr.FwImages
open Text Uci Blobmsg Fwbank Machine Upsert

/-- The banks of the data model, each with a reference that resolves to its alias. -/
structure ReferredBanks (api : Bbfdm) (banks : List Attr) (reference : Attr → Str) : Prop where
  ids : ∀ bank ∈ banks, getFwbankOptionValue bank "id" ≠ []
  nodup : (banks.map fun bank => getFwbankOptionValue bank "id").Nodup
  resolves : ∀ bank ∈ banks,
    api.getReferenceLinker (reference bank) = getDeviceInfoFirmwareImageAlias bank
  allowed : ∀ bank ∈ banks, api.validateAllowedObjects (reference bank) = true

/-- `get_dmmap_section_of_config_section_cont`: the first section whose id contains the
text. -/
def FindsContaining (api : Bbfdm) : Prop :=
  ∀ sections id, api.getSectionCont sections id = sections.find? fun i => strstr i.id id

/-- A write names its bank by the entry the dump has for it then; flags of the bank may
differ from one write to the next. -/
abbrev Writes := List (Attr × Str)

def Writes.events (ws : Writes) : List Event := ws.map fun w => .setAvailable w.1 w.2

def Accepted (api : Bbfdm) (s : State) (e : Event) : Prop := (s.step api e).2.1 = none

/-- Writes to the banks, each accepted in the state it meets. -/
structure History (api : Bbfdm) (banks : List Attr) (s : State) where
  writes : Writes
  onBanks : ∀ w ∈ writes, ∃ bank ∈ banks,
    getFwbankOptionValue w.1 "id" = getFwbankOptionValue bank "id"
  accepted : Along (State.step api) (Accepted api) s writes.events

def History.after {api : Bbfdm} {banks : List Attr} {s : State} (h : History api banks s) : State :=
  (run (State.step api) s h.writes.events).1

def boolText (b : Bool) : Str := if b then "true".toList else "false".toList

/-- What a write puts under the bank's id. -/
def written (api : Bbfdm) (w : Attr × Str) : ImageSection :=
  ⟨getFwbankOptionValue w.1 "id", boolText (api.stringToBool w.2)⟩

/-- The last value written to a bank, true if there is none. -/
def lastWritten (api : Bbfdm) (ws : Writes) (id : Str) : Str :=
  ((lastPut ImageSection.id (ws.map (written api)) id).map ImageSection.available).getD
    "true".toList

/-- The id under which a section containing `id` was written first, if any was. -/
def firstContaining (api : Bbfdm) (ws : Writes) (id : Str) : Option Str :=
  ((ws.map (written api)).find? fun i => strstr i.id id).map ImageSection.id

structure AvailableKept (api : Bbfdm) (banks : List Attr) (reference : Attr → Str) (ws : Writes)
    (s : State) : Prop where
  unique : (s.dmmap.map ImageSection.id).Nodup
  reads : ∀ bank ∈ banks,
    getDeviceInfoFirmwareImageAvailable s (getFwbankOptionValue bank "id") =
      lastWritten api ws (getFwbankOptionValue bank "id")
  gate : ∀ bank ∈ banks, ∀ env : Env, env.forkOk = true →
    ((setDeviceBootFwimage api env s (reference bank)).1 = some .FAULT_9001 ↔
      Unavailable s (getFwbankOptionValue bank "id"))

/-! ### The store -/

theorem setAvailable_eq_put (id value : Str) (sections : List ImageSection) :
    setAvailable id value sections = put ImageSection.id ⟨id, value⟩ sections := by
  induction sections with
  | nil => rfl
  | cons i rest ih =>
    rw [put, upsert, setAvailable]
    by_cases hi : i.id = id
    · rw [if_pos hi, if_pos hi, ← hi]
    · rw [if_neg hi, if_neg hi, ih, put]

theorem step_accepted (api : Bbfdm) (s : State) (w : Attr × Str)
    (h : Accepted api s (.setAvailable w.1 w.2)) :
    (s.step api (.setAvailable w.1 w.2)).1 =
      { s with dmmap := put ImageSection.id (written api w) s.dmmap } := by
  unfold Accepted at h
  rw [State.step] at h ⊢
  unfold setDeviceInfoFirmwareImageAvailable at h ⊢
  split at h
  · exact absurd h (by simp)
  · rename_i hvalid
    simp only at h ⊢
    split at h
    · exact absurd h (by simp)
    · rename_i hfree
      rw [if_neg hvalid, if_neg hfree, setAvailable_eq_put]
      rfl

theorem run_dmmap (api : Bbfdm) (s : State) (ws : Writes) (hs : s.dmmap = [])
    (h : Along (State.step api) (Accepted api) s ws.events) :
    (run (State.step api) s ws.events).1.dmmap = puts ImageSection.id (ws.map (written api)) := by
  have hfold : ∀ s : State, Along (State.step api) (Accepted api) s ws.events →
      (run (State.step api) s ws.events).1.dmmap =
        (ws.map (written api)).foldl (fun l i => put ImageSection.id i l) s.dmmap := by
    clear h hs
    induction ws with
    | nil => exact fun s _ => rfl
    | cons w ws ih =>
      rintro s ⟨hw, hws⟩
      have hnext := step_accepted api s w hw
      rw [Writes.events, List.map_cons, run_cons_state, List.map_cons, List.foldl_cons]
      rw [hnext] at hws ⊢
      exact ih _ hws
  rw [hfold s h, hs, puts]

theorem lastPut_bool (api : Bbfdm) (ws : Writes) (id : Str) (i : ImageSection)
    (h : lastPut ImageSection.id (ws.map (written api)) id = some i) :
    ∃ b, i.available = boolText b := by
  obtain ⟨w, _, rfl⟩ := List.mem_map.mp (lastPut_mem ImageSection.id _ id i h)
  exact ⟨_, rfl⟩

theorem reads_lastWritten (api : Bbfdm) (s : State) (ws : Writes) (id : Str)
    (hs : s.dmmap = puts ImageSection.id (ws.map (written api))) :
    getDeviceInfoFirmwareImageAvailable s id = lastWritten api ws id := by
  rw [getDeviceInfoFirmwareImageAvailable, hs, find_puts_key, lastWritten]
  cases hlast : lastPut ImageSection.id (ws.map (written api)) id with
  | none => rfl
  | some i =>
    obtain ⟨b, hb⟩ := lastPut_bool api ws id i hlast
    rw [Option.map_some, Option.getD_some, hb]
    cases b <;> rfl

/-! ### The gate -/

theorem alias_idText (bank : Attr) (h : getFwbankOptionValue bank "id" ≠ []) :
    ∃ n, entryId bank = some n ∧ getFwbankOptionValue bank "id" = idText n := by
  cases hid : entryId bank with
  | none => exact absurd (optionValue_of_entryId_none bank hid) h
  | some n => exact ⟨n, rfl, optionValue_entryId bank n hid⟩

/-- With a fork that succeeds only the gate returns a fault for a reference to a bank. -/
theorem setBoot_fault_iff (api : Bbfdm) (env : Env) (s : State) (bank : Attr) (value : Str)
    (hid : getFwbankOptionValue bank "id" ≠ []) (hfork : env.forkOk = true)
    (hresolves : api.getReferenceLinker value = getDeviceInfoFirmwareImageAlias bank)
    (hallowed : api.validateAllowedObjects value = true) :
    (setDeviceBootFwimage api env s value).1 = some .FAULT_9001 ↔
      (api.getSectionCont s.dmmap (getFwbankOptionValue bank "id")).map ImageSection.available =
        some "false".toList := by
  obtain ⟨n, hentry, htext⟩ := alias_idText bank hid
  have hlink := alias_dropWhile bank n hentry
  have hlen : ¬(getDeviceInfoFirmwareImageAlias bank).length = 0 := by
    intro h
    rw [List.length_eq_zero_iff.mp h] at hlink
    exact absurd hlink.symm (List.cons_ne_nil _ _)
  unfold setDeviceBootFwimage
  simp only [hresolves, hallowed, Bool.not_true, Bool.false_eq_true, if_false, if_neg hlen, hlink,
    htext, fwbankSetBootbank, hfork, if_true]
  cases hsection : (api.getSectionCont s.dmmap (idText n)).map ImageSection.available with
  | none =>
    have hnil : ¬([] : Str) = "false".toList := by decide
    simp only [Option.getD_none, if_neg hnil]
    exact iff_of_false (by simp) (by simp)
  | some value =>
    simp only [Option.getD_some, Option.some.injEq]
    by_cases hfalse : value = "false".toList
    · simp only [if_pos hfalse]
      exact iff_of_true trivial hfalse
    · simp only [if_neg hfalse]
      exact iff_of_false (by simp) hfalse

/-- The gate goes by the last value of the bank that was written first under an id that
contains the one asked for. -/
theorem gate_reads (api : Bbfdm) (hcont : FindsContaining api) (s : State) (ws : Writes)
    (id : Str) (hs : s.dmmap = puts ImageSection.id (ws.map (written api))) :
    (api.getSectionCont s.dmmap id).map ImageSection.available =
      (firstContaining api ws id).map (lastWritten api ws) := by
  rw [hcont, hs, find_puts ImageSection.id (fun i => strstr i id), firstContaining]
  cases hfirst : (ws.map (written api)).find? fun i => strstr i.id id with
  | none => rfl
  | some first =>
    obtain ⟨last, hlast⟩ := Option.isSome_iff_exists.mp
      (lastPut_isSome ImageSection.id _ first (List.mem_of_find?_eq_some hfirst))
    rw [Option.bind_some, Option.map_some, Option.map_some, lastWritten, hlast, Option.map_some,
      Option.getD_some]

theorem lastWritten_bool (api : Bbfdm) (ws : Writes) (id : Str) :
    lastWritten api ws id = "true".toList ∨ lastWritten api ws id = "false".toList := by
  rw [lastWritten]
  cases hlast : lastPut ImageSection.id (ws.map (written api)) id with
  | none => exact Or.inl rfl
  | some i =>
    obtain ⟨b, hb⟩ := lastPut_bool api ws id i hlast
    rw [Option.map_some, Option.getD_some, hb]
    cases b with
    | true => exact Or.inl rfl
    | false => exact Or.inr rfl

/-- A bank that was written is among those whose ids contain its own. -/
theorem lastWritten_of_none (api : Bbfdm) (ws : Writes) (id : Str)
    (h : firstContaining api ws id = none) : lastWritten api ws id = "true".toList := by
  rw [firstContaining, Option.map_eq_none_iff, List.find?_eq_none] at h
  rw [lastWritten]
  cases hlast : lastPut ImageSection.id (ws.map (written api)) id with
  | none => rfl
  | some i =>
    have hmem := lastPut_mem ImageSection.id _ id i hlast
    have hkey := lastPut_key ImageSection.id _ id i hlast
    refine absurd ?_ (h i hmem)
    rw [hkey]
    exact decide_eq_true (List.infix_refl id)

/-- After any accepted writes there is one section for an id, Available reads the last
value written, and the gate agrees with it exactly when, for every bank, the bank written
first under an id that contains its own has the same last value. -/
theorem availableKept_iff (api : Bbfdm) (hcont : FindsContaining api) (banks : List Attr)
    (reference : Attr → Str) (hbanks : ReferredBanks api banks reference) (s : State)
    (hs : s.dmmap = []) (h : History api banks s) :
    AvailableKept api banks reference h.writes h.after ↔
      ∀ bank ∈ banks, ∀ other ∈ firstContaining api h.writes (getFwbankOptionValue bank "id"),
        lastWritten api h.writes other =
          lastWritten api h.writes (getFwbankOptionValue bank "id") := by
  obtain ⟨ws, _, hws⟩ := h
  have hstore := run_dmmap api s ws hs hws
  have hreads := fun id => reads_lastWritten api _ ws id hstore
  have hgate := fun bank (hbank : bank ∈ banks) (env : Env) (hfork : env.forkOk = true) =>
    setBoot_fault_iff api env (run (State.step api) s ws.events).1 bank (reference bank)
      (hbanks.ids bank hbank) hfork (hbanks.resolves bank hbank) (hbanks.allowed bank hbank)
  rw [History.after]
  constructor
  · intro h bank hbank other hother
    -- the gate refuses by the other bank's value, Available reads the bank's own
    have hgo := h.gate bank hbank .fine rfl
    rw [hgate bank hbank .fine rfl, gate_reads api hcont _ ws _ hstore, hother, Option.map_some,
      Option.some.injEq, Unavailable, hreads] at hgo
    have hne : "true".toList ≠ "false".toList := by decide
    rcases lastWritten_bool api ws other with ho | ho
    · rcases lastWritten_bool api ws (getFwbankOptionValue bank "id") with hb | hb
      · rw [ho, hb]
      · rw [ho, hb] at hgo
        exact absurd (hgo.mpr rfl) hne
    · rw [ho, hgo.mp ho]
  · intro h
    refine ⟨?_, fun bank _ => hreads _, fun bank hbank env hfork => ?_⟩
    · rw [hstore]
      exact nodup_puts ImageSection.id _
    · rw [hgate bank hbank env hfork, gate_reads api hcont _ ws _ hstore, Unavailable, hreads]
      cases hfirst : firstContaining api ws (getFwbankOptionValue bank "id") with
      | none =>
        rw [lastWritten_of_none api ws _ hfirst]
        exact iff_of_false (by simp) (by decide)
      | some other =>
        rw [Option.map_some, Option.some.injEq, h bank hbank other hfirst]

theorem wholeBank_id (id : UInt32) (inUse : Bool) :
    getFwbankOptionValue (wholeBank id inUse) "id" = idText id.toNat :=
  optionValue_entryId (wholeBank id inUse) id.toNat rfl

theorem referredBanks_spare (a b : UInt32) (h : a ≠ b) :
    ReferredBanks .plain [wholeBank a false, wholeBank b false]
      getDeviceInfoFirmwareImageAlias where
  ids := by
    intro bank hbank
    rcases List.mem_cons.mp hbank with rfl | hbank
    · rw [wholeBank_id]
      exact printInt_ne_nil _
    · rw [List.mem_singleton.mp hbank, wholeBank_id]
      exact printInt_ne_nil _
  nodup := by
    simp only [List.map_cons, List.map_nil, wholeBank_id]
    have hne : idText a.toNat ≠ idText b.toNat := fun heq =>
      h (UInt32.toNat_inj.mp (idText_inj _ _ a.toNat_lt b.toNat_lt heq))
    exact List.nodup_cons.mpr ⟨fun hmem => hne (List.mem_singleton.mp hmem),
      List.nodup_singleton _⟩
  resolves := fun _ _ => rfl
  allowed := fun _ _ => rfl

def secondUnavailable (a b : UInt32) :
    History .plain [wholeBank a false, wholeBank b false] .fresh where
  writes := [(wholeBank b false, "false".toList)]
  onBanks := by
    intro w hw
    rw [List.mem_singleton.mp hw]
    exact ⟨wholeBank b false, List.mem_cons_of_mem _ (List.mem_singleton_self _), rfl⟩
  accepted := ⟨rfl, trivial⟩

theorem availableKept_two_banks :
    AvailableKept .plain [wholeBank 1 false, wholeBank 2 false] getDeviceInfoFirmwareImageAlias
      (secondUnavailable 1 2).writes (secondUnavailable 1 2).after :=
  (availableKept_iff .plain (fun _ _ => rfl) _ _ (referredBanks_spare 1 2 (by decide)) .fresh rfl
    (secondUnavailable 1 2)).mpr (by decide)

theorem gate_refuses_available_bank :
    ¬∀ (api : Bbfdm) (banks : List Attr) (reference : Attr → Str) (s : State),
      FindsContaining api → ReferredBanks api banks reference → s.dmmap = [] →
      ∀ h : History api banks s, AvailableKept api banks reference h.writes h.after := by
  intro hall
  have hkept := hall .plain _ _ .fresh (fun _ _ => rfl) (referredBanks_spare 1 10 (by decide)) rfl
    (secondUnavailable 1 10)
  have hgo := hkept.gate (wholeBank 1 false) (List.mem_cons_self ..) .fine rfl
  exact absurd (hgo.mp (by decide)) (by decide)

end Sysmngr.FwImages
