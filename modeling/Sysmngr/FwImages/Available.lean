import Sysmngr.FwImages.Model
import Sysmngr.Machine

/-!
# Unavailable banks and the boot bank

A bank whose Available value is false should not become the boot bank. Writes to
BootFirmwareImage look the bank up by what the section's id contains, and
`Activate()` does not look at all.
-/

namespace Sysmngr.FwImages
open Text Uci Blobmsg Fwbank Machine

/-! ### Runs of the data model's operations -/

/-- A write to Available or an `Activate()` names the bank by its entry, a write to
BootFirmwareImage by a reference. -/
inductive Event where
  | setAvailable (entry : Attr) (value : Str)
  | setBoot (env : Env) (value : Str)
  | activate (env : Env) (entry : Attr) (args : Args)

def State.step (api : Bbfdm) (s : State) : Event → State × (Option Fault × List Effect)
  | .setAvailable entry value =>
    let r := setDeviceInfoFirmwareImageAvailable api s entry value
    (r.2, r.1, [])
  | .setBoot env value =>
    let r := setDeviceBootFwimage api env s value
    (r.2.1, r.1, r.2.2)
  | .activate env entry args =>
    let r := operateDeviceInfoFirmwareImageActivate api env s entry args
    (s, r)

def requestOf : Effect → Option ℕ
  | .setBootbank n => some n
  | .appendCrontab job => some (bankNumber job.bankId)
  | _ => none

def requests (effects : List Effect) : List ℕ := effects.filterMap requestOf

def idText (n : ℕ) : Str := printInt (toInt n)

def Unavailable (s : State) (id : Str) : Prop :=
  getDeviceInfoFirmwareImageAvailable s id = "false".toList

instance (s : State) (id : Str) : Decidable (Unavailable s id) :=
  inferInstanceAs (Decidable (_ = _))

/-- No bank requested by the event is unavailable when the event comes. -/
def SparesUnavailable (api : Bbfdm) (s : State) (e : Event) : Prop :=
  ∀ n ∈ requests (s.step api e).2.2, ¬Unavailable s (idText n)

def ActivateStops (api : Bbfdm) (env : Env) (entry : Attr) (args : Args) : Prop :=
  getFwbankOptionValue entry "id" = [] ∨
    match parseWindows api args MAX_TIME_WINDOW 0 none with
    | none => True
    | some [] => env.forkOk = false
    | some _ => env.crontabOpens = false

/-- A write to BootFirmwareImage ends before it requests bank `bankId`: the section
found for it is marked unavailable, or an earlier check or the fork fails. -/
def BootStops (api : Bbfdm) (env : Env) (s : State) (value bankId : Str) : Prop :=
  (api.getSectionCont s.dmmap bankId).map ImageSection.available = some "false".toList ∨
    api.validateAllowedObjects value = false ∨ env.forkOk = false

/-- Activation stops or is of an available bank; a write to BootFirmwareImage of an
unavailable bank is stopped by the section the lookup hits, or otherwise. -/
def Permitted (api : Bbfdm) (s : State) : Event → Prop
  | .setAvailable _ _ => True
  | .setBoot env value => ∀ c bankId,
    (api.getReferenceLinker value).dropWhile (· != '-') = c :: bankId →
    Unavailable s (idText (bankNumber bankId)) → BootStops api env s value bankId
  | .activate env entry args =>
    ActivateStops api env entry args ∨ ¬Unavailable s (getFwbankOptionValue entry "id")

/-! ### One operation -/

theorem idText_bankNumber (entry : Attr) (h : getFwbankOptionValue entry "id" ≠ []) :
    idText (bankNumber (getFwbankOptionValue entry "id")) = getFwbankOptionValue entry "id" := by
  rcases getFwbankOptionValue_id entry with hnone | ⟨n, hn⟩
  · exact absurd hnone h
  · have hback : bankNumber (printInt (toInt n.toNat)) = n.toNat :=
      strtoul_printInt_toInt n.toNat n.toNat_lt
    rw [hn, hback, idText]

theorem requests_windowJobs (api : Bbfdm) (env : Env) (bankId keep : Str) (ws : List Window) :
    requests ((windowJobs api env bankId keep ws).map .appendCrontab ++ [.cronRestart]) =
      List.replicate ws.length (bankNumber bankId) := by
  have hjobs : ∀ (jobs : List Job), (∀ j ∈ jobs, j.bankId = bankId) →
      requests (jobs.map .appendCrontab) = List.replicate jobs.length (bankNumber bankId) := by
    intro jobs hj
    induction jobs with
    | nil => rfl
    | cons j jobs ih =>
      simp only [requests, List.map_cons, List.filterMap_cons, requestOf, List.length_cons,
        List.replicate_succ, hj j (List.mem_cons_self ..)]
      rw [← ih fun x hx => hj x (List.mem_cons_of_mem _ hx)]
      rfl
  have happ : requests ((windowJobs api env bankId keep ws).map .appendCrontab ++ [.cronRestart]) =
      requests ((windowJobs api env bankId keep ws).map .appendCrontab) := by
    simp only [requests, List.filterMap_append]
    exact List.append_nil _
  rw [happ, hjobs _ ?_, windowJobs, List.length_mapIdx]
  intro j hj
  obtain ⟨i, hi, rfl⟩ := List.mem_mapIdx.mp hj
  rfl

theorem activate_requests (api : Bbfdm) (env : Env) (s : State) (entry : Attr) (args : Args) :
    (ActivateStops api env entry args ∧
      requests (operateDeviceInfoFirmwareImageActivate api env s entry args).2 = []) ∨
    (¬ActivateStops api env entry args ∧ ∃ k,
      requests (operateDeviceInfoFirmwareImageActivate api env s entry args).2 =
        List.replicate (k + 1) (bankNumber (getFwbankOptionValue entry "id"))) := by
  unfold operateDeviceInfoFirmwareImageActivate ActivateStops
  by_cases hid : getFwbankOptionValue entry "id" = []
  · left
    refine ⟨Or.inl hid, ?_⟩
    cases parseWindows api args MAX_TIME_WINDOW 0 none with
    | none => rfl
    | some ws => simp only [hid, List.length_nil, if_true]; rfl
  · have hlen : ¬(getFwbankOptionValue entry "id").length = 0 := fun h =>
      hid (List.length_eq_zero_iff.mp h)
    simp only [hid, false_or]
    rcases parseWindows api args MAX_TIME_WINDOW 0 none with _ | _ | ⟨w, ws⟩
    · exact Or.inl ⟨trivial, rfl⟩
    · simp only [if_neg hlen, List.length_nil, ne_eq, not_true_eq_false, if_false]
      cases hf : env.forkOk with
      | false =>
        left
        refine ⟨rfl, ?_⟩
        simp only [fwbankSetBootbank, hf, Bool.false_eq_true, if_false]
        rfl
      | true =>
        right
        refine ⟨Bool.noConfusion, 0, ?_⟩
        simp only [fwbankSetBootbank, hf, if_true]
        split <;> rfl
    · have hws : (w :: ws).length ≠ 0 := Nat.succ_ne_zero _
      simp only [if_neg hlen, if_pos hws]
      cases ho : env.crontabOpens with
      | false =>
        left
        exact ⟨rfl, rfl⟩
      | true =>
        right
        refine ⟨Bool.noConfusion, ws.length, ?_⟩
        simp only [if_true]
        exact requests_windowJobs api env _ _ (w :: ws)

theorem setBoot_requests (api : Bbfdm) (env : Env) (s : State) (value : Str) :
    (requests (setDeviceBootFwimage api env s value).2.2 = [] ∧
      ∀ c bankId, (api.getReferenceLinker value).dropWhile (· != '-') = c :: bankId →
        BootStops api env s value bankId) ∨
    ∃ c bankId, (api.getReferenceLinker value).dropWhile (· != '-') = c :: bankId ∧
      ¬BootStops api env s value bankId ∧
      requests (setDeviceBootFwimage api env s value).2.2 = [bankNumber bankId] := by
  unfold setDeviceBootFwimage
  cases hv : api.validateAllowedObjects value with
  | false => exact Or.inl ⟨rfl, fun _ _ _ => Or.inr (Or.inl hv)⟩
  | true =>
    simp only [Bool.not_true, Bool.false_eq_true, if_false]
    by_cases hlen : (api.getReferenceLinker value).length = 0
    · left
      rw [if_pos hlen, List.length_eq_zero_iff.mp hlen]
      exact ⟨rfl, fun c bankId h => by simp at h⟩
    · rw [if_neg hlen]
      cases hd : (api.getReferenceLinker value).dropWhile (· != '-') with
      | nil =>
        left
        exact ⟨rfl, fun c bankId h => by simp at h⟩
      | cons c bankId =>
        simp only [List.cons.injEq]
        by_cases hs : (api.getSectionCont s.dmmap bankId).map ImageSection.available =
            some "false".toList
        · left
          simp only [hs, Option.getD_some, if_true]
          refine ⟨rfl, ?_⟩
          rintro c' bankId' ⟨rfl, rfl⟩
          exact Or.inl hs
        · have hne : ¬((api.getSectionCont s.dmmap bankId).map ImageSection.available).getD [] =
              "false".toList := by
            intro heq
            cases ho : (api.getSectionCont s.dmmap bankId).map ImageSection.available with
            | none =>
              rw [ho] at heq
              exact absurd heq (by decide)
            | some v =>
              rw [ho] at heq hs
              exact hs (congrArg some heq)
          rw [if_neg hne]
          cases hf : env.forkOk with
          | false =>
            left
            simp only [fwbankSetBootbank, hf, Bool.false_eq_true, if_false]
            exact ⟨rfl, fun _ _ _ => Or.inr (Or.inr hf)⟩
          | true =>
            right
            have hgo : ¬BootStops api env s value bankId := by
              rintro (h | h | h)
              · exact hs h
              · exact Bool.noConfusion (hv.symm.trans h)
              · exact Bool.noConfusion (hf.symm.trans h)
            refine ⟨c, bankId, ⟨rfl, rfl⟩, hgo, ?_⟩
            simp only [fwbankSetBootbank, hf, if_true]
            split <;> rfl

theorem sparesUnavailable_iff (api : Bbfdm) (s : State) (e : Event) :
    SparesUnavailable api s e ↔ Permitted api s e := by
  cases e with
  | setAvailable entry value => exact ⟨fun _ => trivial, fun _ n hn => absurd hn List.not_mem_nil⟩
  | setBoot env value =>
    rcases setBoot_requests api env s value with ⟨hreq, hstop⟩ | ⟨c, bankId, hlink, hgo, hreq⟩
    · refine ⟨fun _ c bankId h _ => hstop c bankId h, fun _ n hn => ?_⟩
      rw [State.step, hreq] at hn
      exact absurd hn List.not_mem_nil
    · simp only [SparesUnavailable, State.step, hreq, List.mem_singleton, forall_eq]
      constructor
      · rintro havail c' bankId' hlink' hun
        rw [hlink] at hlink'
        obtain ⟨rfl, rfl⟩ := List.cons.inj hlink'
        exact absurd hun havail
      · intro hperm hun
        exact hgo (hperm c bankId hlink hun)
  | activate env entry args =>
    rcases activate_requests api env s entry args with ⟨hstop, hreq⟩ | ⟨hgo, k, hreq⟩
    · refine ⟨fun _ => Or.inl hstop, fun _ n hn => ?_⟩
      rw [State.step, hreq] at hn
      exact absurd hn List.not_mem_nil
    · have hid : getFwbankOptionValue entry "id" ≠ [] := fun h => hgo (Or.inl h)
      have htext := idText_bankNumber entry hid
      simp only [SparesUnavailable, State.step, hreq, Permitted, hgo, false_or]
      constructor
      · intro h
        rw [← htext]
        exact h _ (List.mem_replicate.mpr ⟨Nat.succ_ne_zero k, rfl⟩)
      · intro h n hn
        rw [(List.mem_replicate.mp hn).2, htext]
        exact h

/-- Over any run no unavailable bank is requested or scheduled exactly when every
operation of the run is permitted in the state it meets. -/
theorem unavailable_spared_iff_permitted (api : Bbfdm) (s : State) (es : List Event) :
    Along (State.step api) (SparesUnavailable api) s es ↔
      Along (State.step api) (Permitted api) s es :=
  along_iff _ _ _ (sparesUnavailable_iff api) s es

/-! ### An unavailable bank activated -/

theorem getAvailable_setAvailable (id value : Str) (sections : List ImageSection)
    (h : value ≠ []) (c : Named) :
    getDeviceInfoFirmwareImageAvailable ⟨c, setAvailable id value sections⟩ id = value := by
  obtain ⟨a, v, rfl⟩ := List.exists_cons_of_ne_nil h
  have hfind : ((setAvailable id (a :: v) sections).find? fun i => i.id = id).map
      ImageSection.available = some (a :: v) := by
    induction sections with
    | nil => simp [setAvailable]
    | cons i rest ih =>
      by_cases hi : i.id = id
      · simp [setAvailable, hi]
      · simp only [setAvailable, if_neg hi, List.find?_cons, decide_eq_false hi]
        exact ih
  simp only [getDeviceInfoFirmwareImageAvailable, hfind]

def activateUnavailable : List Event :=
  [.setAvailable (.table "" [.int32 "id" 2]) "false".toList,
    .activate .fine (.table "" [.int32 "id" 2]) fun _ => []]

theorem unavailable_bank_activated :
    ¬∀ (api : Bbfdm) (s : State) (es : List Event),
      Along (State.step api) (SparesUnavailable api) s es := by
  intro hall
  have h := (hall .plain .fresh activateUnavailable).2.1
  exact h 2 (by decide) (by decide)

end Sysmngr.FwImages
