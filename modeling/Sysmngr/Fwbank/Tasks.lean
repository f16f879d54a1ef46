import Sysmngr.Fwbank.Dump

/-!
# Dump and switch tasks in flight (`fwbank.c`)

The bank table belongs to the scripts: a switch changes it when it runs, a dump
copies it when it runs, and the daemon sees a task only when it finishes. Tasks are
started, run and finished in any order.
-/

namespace Sysmngr.Fwbank
open Text Blobmsg Machine

/-- The scripts over bank tables of type `τ`: the array a table is printed as, the
output of a dump, what `set_bootbank` makes of the table and what it reports. Every
dump is valid and starts with its bank array, every switch reports success. -/
structure Scripts (τ : Type) where
  parse : Str → Option (List Attr)
  bank : τ → Attr
  dump : τ → Reads
  setBootbank : UInt32 → τ → τ
  success : Reads
  dump_accepted : ∀ t, accepted parse (dump t) = some [bank t]
  success_next : (fwbankSetBootbankFinishCallback parse success).next = true

inductive Task (τ : Type) where
  | dump (copy : Option τ)
  | setBootbank (bankId : UInt32) (ran : Bool)

structure World (τ : Type) where
  table : τ
  cache : FwbankDump
  tasks : List (Task τ)

def World.initial {τ : Type} (table : τ) : World τ := ⟨table, .initial, [.dump none]⟩

/-- `init` is a dump started at start-up or on a `sysupgrade` event, `timer` one that
the retry timer starts; a task runs and finishes by its place in the list. -/
inductive Event where
  | init
  | timer
  | setBootbank (bankId : UInt32)
  | run (i : ℕ)
  | finish (i : ℕ)
  deriving DecidableEq, Repr

variable {τ : Type} (sc : Scripts τ)

def initGlobalFwbankDump (tasks : List (Task τ)) : List (Task τ) := tasks ++ [.dump none]

def World.step (w : World τ) (e : Event) : World τ × Unit :=
  (match e with
    | .init => { w with tasks := initGlobalFwbankDump w.tasks }
    | .timer =>
      if w.cache.timer then
        { w with cache := { w.cache with timer := false }, tasks := initGlobalFwbankDump w.tasks }
      else w
    | .setBootbank bankId => { w with tasks := w.tasks ++ [.setBootbank bankId false] }
    | .run i =>
      match w.tasks[i]? with
      | some (.dump none) => { w with tasks := w.tasks.set i (.dump (some w.table)) }
      | some (.setBootbank bankId false) =>
        { w with
          table := sc.setBootbank bankId w.table
          tasks := w.tasks.set i (.setBootbank bankId true) }
      | _ => w
    | .finish i =>
      match w.tasks[i]? with
      | some (.dump (some copy)) =>
        { w with
          cache := fwbankDumpFinishCallback sc.parse w.cache (sc.dump copy)
          tasks := w.tasks.eraseIdx i }
      | some (.setBootbank _ true) =>
        let tasks := w.tasks.eraseIdx i
        if (fwbankSetBootbankFinishCallback sc.parse sc.success).next then
          { w with tasks := initGlobalFwbankDump tasks }
        else { w with tasks := tasks }
      | _ => w, ())

/-! ### What keeps the cache current -/

def Task.Refreshes (table : τ) : Task τ → Prop
  | .dump none => True
  | .dump (some copy) => sc.bank copy = sc.bank table
  | .setBootbank _ _ => True

def World.Current (w : World τ) : Prop := w.cache.output = some [sc.bank w.table]

/-- With no task and no retry pending the cached dump is the bank table. -/
def World.Settled (w : World τ) : Prop :=
  w.tasks = [] → w.cache.timer = false → w.Current sc

/-- The step does not finish a dump older than the table while no task that
refreshes the cache remains. -/
def World.Orderly (w : World τ) (e : Event) : Prop :=
  ∀ i copy, e = .finish i → w.tasks[i]? = some (.dump (some copy)) →
    sc.bank copy = sc.bank w.table ∨ ∃ t ∈ w.tasks.eraseIdx i, t.Refreshes sc w.table

theorem orderly_of_fresh (w : World τ) (e : Event)
    (h : ∀ t ∈ w.tasks, t.Refreshes sc w.table) : w.Orderly sc e :=
  fun _ _ _ hi => Or.inl (h _ (List.mem_of_getElem? hi))

def World.Covered (w : World τ) : Prop :=
  (∃ t ∈ w.tasks, t.Refreshes sc w.table) ∨ w.Current sc

theorem covered_settled (w : World τ) (h : w.Covered sc) : w.Settled sc := by
  intro htasks _
  rcases h with ⟨t, ht, _⟩ | hcur
  · rw [htasks] at ht
    exact absurd ht (List.not_mem_nil)
  · exact hcur

theorem dump_callback (g : FwbankDump) (copy : τ) :
    fwbankDumpFinishCallback sc.parse g (sc.dump copy) =
      { g with output := some [sc.bank copy] } := by
  have hacc := sc.dump_accepted copy
  unfold accepted at hacc
  obtain ⟨hbind, hvalid⟩ := Option.filter_eq_some_iff.mp hacc
  obtain ⟨buffer, htext, hparse⟩ := Option.bind_eq_some_iff.mp hbind
  simp only [fwbankDumpFinishCallback, htext, hparse, if_pos hvalid]
  rfl

theorem covered_of_init (w : World τ) (table : τ) (cache : FwbankDump)
    (tasks : List (Task τ)) (h : w = ⟨table, cache, initGlobalFwbankDump tasks⟩) :
    w.Covered sc := by
  subst h
  exact Or.inl ⟨.dump none, List.mem_append_right _ (List.mem_singleton_self _), trivial⟩

theorem step_covered (w : World τ) (e : Event) (hw : w.Covered sc) (he : w.Orderly sc e) :
    (w.step sc e).1.Covered sc := by
  cases e with
  | init => exact covered_of_init sc _ w.table w.cache w.tasks rfl
  | timer =>
    by_cases ht : w.cache.timer
    · exact covered_of_init sc _ w.table { w.cache with timer := false } w.tasks (by
        simp only [World.step, if_pos ht])
    · simp only [World.step, if_neg ht]
      exact hw
  | setBootbank bankId =>
    exact Or.inl ⟨.setBootbank bankId false,
      List.mem_append_right _ (List.mem_singleton_self _), trivial⟩
  | run i =>
    cases hi : w.tasks[i]? with
    | none =>
      simp only [World.step, hi]
      exact hw
    | some t =>
      have hlt : i < w.tasks.length := (List.getElem?_eq_some_iff.mp hi).1
      rcases t with (_ | copy) | ⟨bankId, _ | _⟩
      · simp only [World.step, hi]
        exact Or.inl ⟨_, List.mem_set hlt _, rfl⟩
      · simp only [World.step, hi]
        exact hw
      · simp only [World.step, hi]
        exact Or.inl ⟨_, List.mem_set hlt _, trivial⟩
      · simp only [World.step, hi]
        exact hw
  | finish i =>
    cases hi : w.tasks[i]? with
    | none =>
      simp only [World.step, hi]
      exact hw
    | some t =>
      rcases t with (_ | copy) | ⟨bankId, _ | _⟩
      · simp only [World.step, hi]
        exact hw
      · simp only [World.step, hi, dump_callback]
        rcases he i copy rfl hi with hcur | hother
        · exact Or.inr (congrArg (fun b => some [b]) hcur)
        · exact Or.inl hother
      · simp only [World.step, hi]
        exact hw
      · simp only [World.step, hi, sc.success_next, if_true]
        exact covered_of_init sc _ w.table w.cache (w.tasks.eraseIdx i) rfl

/-! ### What goes wrong otherwise -/

theorem step_timer (w : World τ) (e : Event) (h : w.cache.timer = false) :
    (w.step sc e).1.cache.timer = false := by
  cases e with
  | init => exact h
  | timer => simp only [World.step, h, Bool.false_eq_true, if_false]
  | setBootbank bankId => exact h
  | run i =>
    simp only [World.step]
    split <;> exact h
  | finish i =>
    simp only [World.step]
    split
    · rw [dump_callback]
      exact h
    · split <;> exact h
    · exact h

theorem run_timer (w : World τ) (es : List Event) (h : w.cache.timer = false) :
    (run (World.step sc) w es).1.cache.timer = false := by
  induction es generalizing w with
  | nil => exact h
  | cons e es ih => exact ih (w.step sc e).1 (step_timer sc w e h)

/-- When only stale dumps are left, finishing them leaves a stale cache. -/
theorem stale_tasks_drain (w : World τ) (hcache : ¬w.Current sc) (htimer : w.cache.timer = false)
    (hstale : ∀ t ∈ w.tasks, ¬t.Refreshes sc w.table) :
    ∃ es, ¬(run (World.step sc) w es).1.Settled sc := by
  obtain ⟨table, cache, tasks⟩ := w
  induction tasks generalizing cache with
  | nil => exact ⟨[], fun h => hcache (h rfl htimer)⟩
  | cons t rest ih =>
    have ht := hstale t (List.mem_cons_self ..)
    rcases t with (_ | copy) | ⟨bankId, ran⟩
    · exact absurd trivial ht
    -- only a dump with a copy is stale: finishing it leaves the others and a stale cache
    · have hnext : World.step sc ⟨table, cache, .dump (some copy) :: rest⟩ (.finish 0) =
          (⟨table, { cache with output := some [sc.bank copy] }, rest⟩, ()) := by
        simp only [World.step, List.getElem?_cons_zero, dump_callback, List.eraseIdx_cons_zero]
      obtain ⟨es, hes⟩ := ih { cache with output := some [sc.bank copy] }
        (fun hcur => ht (show sc.bank copy = sc.bank table by
          simpa [World.Current] using hcur)) htimer
        (fun t' ht' => hstale t' (List.mem_cons_of_mem _ ht'))
      refine ⟨.finish 0 :: es, ?_⟩
      rw [run_cons_state, hnext]
      exact hes
    · exact absurd trivial ht

/-- While no stale dump finishes last, the cache settles on the bank table; and a
step that lets one do so can always be run on into a quiet daemon with a stale cache. -/
theorem orderly_runs_settle (table : τ) (es : List Event) :
    (Along (World.step sc) (World.Orderly sc) (.initial table) es →
      (run (World.step sc) (.initial table) es).1.Settled sc) ∧
    ∀ e, ¬(run (World.step sc) (.initial table) es).1.Orderly sc e →
      ∃ rest, ¬(run (World.step sc) (.initial table) (es ++ e :: rest)).1.Settled sc := by
  constructor
  · intro hP
    have hcovered : (World.initial table).Covered sc :=
      Or.inl ⟨.dump none, List.mem_singleton_self _, trivial⟩
    exact covered_settled sc _
      (run_invariant _ _ _ (step_covered sc) (.initial table) es hcovered hP)
  · intro e he
    have htimer := run_timer sc (.initial table) es rfl
    revert he htimer
    generalize hw : (run (World.step sc) (.initial table) es).1 = w
    intro he htimer
    simp only [World.Orderly, not_forall, not_or, not_exists, not_and] at he
    obtain ⟨i, copy, rfl, hi, hcopy, hothers⟩ := he
    have hnext : World.step sc w (.finish i) =
        (⟨w.table, { w.cache with output := some [sc.bank copy] }, w.tasks.eraseIdx i⟩, ()) := by
      simp only [World.step, hi, dump_callback]
    obtain ⟨rest, hrest⟩ := stale_tasks_drain sc
      ⟨w.table, { w.cache with output := some [sc.bank copy] }, w.tasks.eraseIdx i⟩
      (fun hcur => hcopy (by simpa [World.Current] using hcur)) htimer hothers
    refine ⟨rest, ?_⟩
    rw [run_append, hw, run_cons_state, hnext]
    exact hrest

/-! ### A stale dump finishes last -/

def bankArray (boot : Bool) : Attr :=
  .array "bank" [.table "" [.string "name" "a".toList, .int32 "id" 1, .bool "active" true,
    .bool "boot" boot, .bool "upgrade" true, .string "fwver" "f".toList,
    .string "swver" "s".toList, .string "status" "Active".toList]]

def bankText (boot : Bool) : Str :=
  "\x7b\"bank\":[\x7b\"name\":\"a\",\"id\":1,\"active\":true,\"boot\":".toList ++
    (if boot then "true".toList else "false".toList) ++
    ",\"upgrade\":true,\"fwver\":\"f\",\"swver\":\"s\",\"status\":\"Active\"\x7d]\x7d".toList

def successText : Str := "\x7b\"success\":true\x7d".toList

def bankParse (s : Str) : Option (List Attr) :=
  if s = bankText true then some [bankArray true]
  else if s = bankText false then some [bankArray false]
  else if s = successText then some [.bool "success" true]
  else none

set_option maxRecDepth 4000 in
def bankScripts : Scripts Bool where
  parse := bankParse
  bank := bankArray
  dump boot := ⟨[bankText boot], false⟩
  setBootbank _ _ := true
  success := ⟨[successText], false⟩
  dump_accepted boot := by
    cases boot with
    | true =>
      rw [accepted_whole _ (bankText true) (by decide) (by decide) (by decide), bankParse,
        if_pos rfl]
      rfl
    | false =>
      rw [accepted_whole _ (bankText false) (by decide) (by decide) (by decide), bankParse,
        if_neg (by decide), if_pos rfl]
      rfl
  success_next := by
    have hread : setBootbankText ⟨[successText], false⟩ = some successText :=
      readOutput_eq [successText] (by
        intro c hc
        rw [List.mem_singleton.mp hc]
        decide)
    simp only [fwbankSetBootbankFinishCallback, hread, Option.bind_some]
    rw [bankParse, if_neg (by decide), if_neg (by decide), if_pos rfl]
    rfl

/-- Every task finishes before the next is started. -/
def inTurn : List Event :=
  [.run 0, .finish 0, .setBootbank 1, .run 0, .finish 0, .run 0, .finish 0]

theorem orderly_runs_settle_sample :
    (run (World.step bankScripts) (.initial false) inTurn).1 =
        ⟨true, ⟨some [bankArray true], 0, false⟩, []⟩ ∧
      (run (World.step bankScripts) (.initial false) inTurn).1.Settled bankScripts := by
  have hfresh : Along (World.step bankScripts)
      (fun w _ => ∀ t ∈ w.tasks, t.Refreshes bankScripts w.table) (.initial false) inTurn := by
    simp [inTurn, Along, World.step, World.initial, dump_callback, initGlobalFwbankDump,
      bankScripts.success_next, Task.Refreshes]
  refine ⟨?_, (orderly_runs_settle bankScripts false inTurn).1 ?_⟩
  · simp [inTurn, World.step, World.initial, dump_callback, initGlobalFwbankDump,
      bankScripts.success_next, FwbankDump.initial]
    constructor <;> rfl
  · exact along_of_invariant _ _ _ (fun _ => True) (fun _ _ _ _ => trivial)
      (fun w e _ h => orderly_of_fresh bankScripts w e h) _ inTurn trivial hfresh

def staleOrder : List Event :=
  [.run 0, .setBootbank 1, .run 1, .finish 1, .run 1, .finish 1, .finish 0]

theorem stale_dump_wins :
    ¬∀ (τ : Type) (sc : Scripts τ) (table : τ) (es : List Event),
      (run (World.step sc) (.initial table) es).1.Settled sc := by
  intro hall
  have h := hall Bool bankScripts false staleOrder
  have hrun : (run (World.step bankScripts) (.initial false) staleOrder).1 =
      ⟨true, ⟨some [bankArray false], 0, false⟩, []⟩ := by
    simp [staleOrder, World.step, World.initial, dump_callback, initGlobalFwbankDump,
      bankScripts.success_next, FwbankDump.initial]
    constructor <;> rfl
  rw [hrun] at h
  have hcur := h rfl rfl
  simp [World.Current, bankScripts, bankArray] at hcur

end Sysmngr.Fwbank
