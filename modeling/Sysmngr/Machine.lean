import Mathlib.Algebra.GroupWithZero.Nat
import Mathlib.Data.List.Infix
import Mathlib.Tactic.Common

/-!
# Runs of a deterministic machine

A machine is a step function from a state and an event to the next state and the
output of that event. A run keeps the outputs event by event, so that a property
of one step lifts to every step of every run by one of the rules below.
-/

namespace Sysmngr.Machine

variable {σ σ' ε ε' ο ο' : Type}

/-- Last state of a run and the output of each of its events, in order. -/
def run (step : σ → ε → σ × ο) : σ → List ε → σ × List ο
  | s, [] => (s, [])
  | s, e :: es =>
    let r := step s e
    let t := run step r.1 es
    (t.1, r.2 :: t.2)

/-- `P` holds at every event of the run, in the state that event meets. -/
def Along (step : σ → ε → σ × ο) (P : σ → ε → Prop) : σ → List ε → Prop
  | _, [] => True
  | s, e :: es => P s e ∧ Along step P (step s e).1 es

instance (step : σ → ε → σ × ο) (P : σ → ε → Prop) [∀ s e, Decidable (P s e)] :
    ∀ s es, Decidable (Along step P s es)
  | _, [] => isTrue trivial
  | s, e :: es =>
    have := instDecidableAlong step P (step s e).1 es
    inferInstanceAs (Decidable (P s e ∧ Along step P (step s e).1 es))

@[simp] theorem run_nil (step : σ → ε → σ × ο) (s : σ) : run step s [] = (s, []) := rfl

@[simp] theorem run_cons_state (step : σ → ε → σ × ο) (s : σ) (e : ε) (es : List ε) :
    (run step s (e :: es)).1 = (run step (step s e).1 es).1 := rfl

@[simp] theorem run_cons_outputs (step : σ → ε → σ × ο) (s : σ) (e : ε) (es : List ε) :
    (run step s (e :: es)).2 = (step s e).2 :: (run step (step s e).1 es).2 := rfl

theorem run_append (step : σ → ε → σ × ο) (s : σ) (as bs : List ε) :
    run step s (as ++ bs) =
      ((run step (run step s as).1 bs).1, (run step s as).2 ++ (run step (run step s as).1 bs).2) := by
  induction as generalizing s with
  | nil => rfl
  | cons a as ih =>
    simp only [List.cons_append, run, ih]

theorem run_outputs_length (step : σ → ε → σ × ο) (s : σ) (es : List ε) :
    (run step s es).2.length = es.length := by
  induction es generalizing s with
  | nil => rfl
  | cons e es ih => simp only [run_cons_outputs, List.length_cons, ih]

/-- A stretch of the outputs is the output of a run from a state the run reaches. -/
theorem run_outputs_infix (step : σ → ε → σ × ο) (s : σ) (es : List ε) (outs : List ο)
    (h : outs <:+: (run step s es).2) :
    ∃ as bs cs, es = as ++ bs ++ cs ∧ outs = (run step (run step s as).1 bs).2 := by
  obtain ⟨pre, post, hsplit⟩ := h
  have hlen := congrArg List.length hsplit
  rw [run_outputs_length] at hlen
  simp only [List.length_append] at hlen
  let as := es.take pre.length
  let bs := (es.drop pre.length).take outs.length
  let cs := (es.drop pre.length).drop outs.length
  have hes : es = as ++ bs ++ cs := by
    rw [List.append_assoc, List.take_append_drop, List.take_append_drop]
  have has : (run step s as).2.length = pre.length := by
    rw [run_outputs_length, List.length_take]
    omega
  have hbs : (run step (run step s as).1 bs).2.length = outs.length := by
    rw [run_outputs_length, List.length_take, List.length_drop]
    omega
  refine ⟨as, bs, cs, hes, ?_⟩
  rw [hes, run_append, run_append] at hsplit
  have h1 := List.append_inj_left hsplit (by
    simp only [List.length_append, has, hbs])
  exact List.append_inj_right h1 has.symm

theorem run_outputs_infix_last (step : σ → ε → σ × ο) (s : σ) (es : List ε) (outs : List ο) (o : ο)
    (h : outs ++ [o] <:+: (run step s es).2) :
    ∃ as bs e, outs = (run step (run step s as).1 bs).2 ∧
      o = (step (run step (run step s as).1 bs).1 e).2 := by
  obtain ⟨as, bs, cs, _, hbs⟩ := run_outputs_infix step s es _ h
  have hne : bs ≠ [] := by
    rintro rfl
    simp at hbs
  rw [← List.dropLast_append_getLast hne, run_append] at hbs
  obtain ⟨houts, hlast⟩ := List.append_inj' hbs rfl
  exact ⟨as, bs.dropLast, bs.getLast hne, houts, (List.cons.inj hlast).1⟩

/-! ### Rules -/

theorem run_invariant (step : σ → ε → σ × ο) (P : σ → ε → Prop) (I : σ → Prop)
    (hstep : ∀ s e, I s → P s e → I (step s e).1) (s : σ) (es : List ε)
    (hs : I s) (hP : Along step P s es) : I (run step s es).1 := by
  induction es generalizing s with
  | nil => exact hs
  | cons e es ih => exact ih (step s e).1 (hstep s e hs hP.1) hP.2

theorem run_outputs_forall (step : σ → ε → σ × ο) (P : σ → ε → Prop) (I : σ → Prop)
    (Q : ο → Prop) (hI : ∀ s e, I s → P s e → I (step s e).1)
    (hQ : ∀ s e, I s → P s e → Q (step s e).2) (s : σ) (es : List ε) (hs : I s)
    (hP : Along step P s es) : ∀ o ∈ (run step s es).2, Q o := by
  induction es generalizing s with
  | nil => exact fun _ ho => absurd ho List.not_mem_nil
  | cons e es ih =>
    exact List.forall_mem_cons.mpr ⟨hQ s e hs hP.1, ih (step s e).1 (hI s e hs hP.1) hP.2⟩

theorem along_of_forall (step : σ → ε → σ × ο) (P : σ → ε → Prop) (h : ∀ s e, P s e) (s : σ)
    (es : List ε) : Along step P s es := by
  induction es generalizing s with
  | nil => trivial
  | cons e es ih => exact ⟨h s e, ih (step s e).1⟩

theorem run_keeps (step : σ → ε → σ × ο) (I : σ → Prop) (hstep : ∀ s e, I s → I (step s e).1)
    (s : σ) (es : List ε) (hs : I s) : I (run step s es).1 :=
  run_invariant step (fun _ _ => True) I (fun s e h _ => hstep s e h) s es hs
    (along_of_forall step _ (fun _ _ => trivial) s es)

theorem along_of_invariant (step : σ → ε → σ × ο) (P Q : σ → ε → Prop) (I : σ → Prop)
    (hstep : ∀ s e, I s → P s e → I (step s e).1) (hQ : ∀ s e, I s → P s e → Q s e)
    (s : σ) (es : List ε) (hs : I s) (hP : Along step P s es) : Along step Q s es := by
  induction es generalizing s with
  | nil => trivial
  | cons e es ih => exact ⟨hQ s e hs hP.1, ih (step s e).1 (hstep s e hs hP.1) hP.2⟩

theorem along_mem (step : σ → ε → σ × ο) (Q : ε → Prop) (s : σ) (es : List ε)
    (h : Along step (fun _ e => Q e) s es) : ∀ e ∈ es, Q e := by
  induction es generalizing s with
  | nil => exact fun _ he => absurd he List.not_mem_nil
  | cons e es ih => exact List.forall_mem_cons.mpr ⟨h.1, ih _ h.2⟩

theorem along_of_mem (step : σ → ε → σ × ο) (Q : ε → Prop) (s : σ) (es : List ε)
    (h : ∀ e ∈ es, Q e) : Along step (fun _ e => Q e) s es := by
  induction es generalizing s with
  | nil => trivial
  | cons e es ih =>
    rw [List.forall_mem_cons] at h
    exact ⟨h.1, ih _ h.2⟩

theorem along_iff_of_invariant (step : σ → ε → σ × ο) (P Q : σ → ε → Prop) (I : σ → Prop)
    (hstep : ∀ s e, I s → I (step s e).1) (h : ∀ s e, I s → (P s e ↔ Q s e)) (s : σ)
    (es : List ε) (hs : I s) : Along step P s es ↔ Along step Q s es := by
  induction es generalizing s with
  | nil => exact Iff.rfl
  | cons e es ih => exact and_congr (h s e hs) (ih (step s e).1 (hstep s e hs))

theorem along_iff (step : σ → ε → σ × ο) (P Q : σ → ε → Prop) (h : ∀ s e, P s e ↔ Q s e)
    (s : σ) (es : List ε) : Along step P s es ↔ Along step Q s es :=
  along_iff_of_invariant step P Q (fun _ => True) (fun _ _ _ => trivial) (fun s e _ => h s e) s es
    trivial

/-- Where a condition on the step decides whether a property of the state and the outputs
so far is kept, it holds throughout a run exactly when it holds at first and every step
meets the condition. -/
theorem kept_iff (step : σ → ε → σ × ο) (J : σ → Prop) (I : σ → List ο → Prop) (P : σ → ε → Prop)
    (hJ : ∀ s e, J s → J (step s e).1)
    (hstep : ∀ s e log, J s → I s log → (I (step s e).1 (log ++ [(step s e).2]) ↔ P s e))
    (s : σ) (es : List ε) (log : List ο) (hs : J s) :
    (∀ pre, pre <+: es → I (run step s pre).1 (log ++ (run step s pre).2)) ↔
      I s log ∧ Along step P s es := by
  induction es generalizing s log with
  | nil => simp [Along]
  | cons e es ih =>
    have hfirst : I s log → (I (step s e).1 (log ++ [(step s e).2]) ↔ P s e) := hstep s e log hs
    have hrest := ih (step s e).1 (log ++ [(step s e).2]) (hJ s e hs)
    constructor
    · intro h
      have hstart : I s log := by simpa using h [] List.nil_prefix
      obtain ⟨hnext, halong⟩ := hrest.mp fun pre hpre => by
        simpa using h (e :: pre) (List.prefix_cons_inj e |>.mpr hpre)
      exact ⟨hstart, (hfirst hstart).mp hnext, halong⟩
    · rintro ⟨hstart, hp, halong⟩ pre hpre
      rcases List.prefix_cons_iff.mp hpre with rfl | ⟨pre, rfl, hrun⟩
      · simpa using hstart
      · simpa using hrest.mpr ⟨(hfirst hstart).mpr hp, halong⟩ pre hrun

/-- Where every step spends what it is given or keeps it in stock, so does a run. -/
theorem run_balance (step : σ → ε → σ × ο) (P : σ → ε → Prop) (I : σ → Prop) (given : ε → ℕ)
    (stock : σ → ℕ) (spent : ο → ℕ) (hI : ∀ s e, I s → P s e → I (step s e).1)
    (hstep : ∀ s e, I s → P s e → stock s + given e = stock (step s e).1 + spent (step s e).2)
    (s : σ) (es : List ε) (hs : I s) (hP : Along step P s es) :
    stock s + (es.map given).sum = stock (run step s es).1 + ((run step s es).2.map spent).sum := by
  induction es generalizing s with
  | nil => rfl
  | cons e es ih =>
    have hfirst := hstep s e hs hP.1
    have hrest := ih (step s e).1 (hI s e hs hP.1) hP.2
    rw [run_cons_state, run_cons_outputs, List.map_cons, List.map_cons, List.sum_cons,
      List.sum_cons]
    omega

/-- Forward simulation: related states stay related and each event's outputs
correspond, so the abstract run accounts for the concrete one event by event. -/
theorem run_simulates (step : σ → ε → σ × ο) (step' : σ' → ε' → σ' × ο')
    (R : σ → σ' → Prop) (ev : ε → ε') (out : ο' → ο) (P : σ → ε → Prop)
    (hstep : ∀ s t e, R s t → P s e →
      R (step s e).1 (step' t (ev e)).1 ∧ (step s e).2 = out (step' t (ev e)).2)
    (s : σ) (t : σ') (es : List ε) (hR : R s t) (hP : Along step P s es) :
    R (run step s es).1 (run step' t (es.map ev)).1 ∧
      (run step s es).2 = (run step' t (es.map ev)).2.map out := by
  induction es generalizing s t with
  | nil => exact ⟨hR, rfl⟩
  | cons e es ih =>
    obtain ⟨hr, ho⟩ := hstep s t e hR hP.1
    obtain ⟨hr', ho'⟩ := ih (step s e).1 (step' t (ev e)).1 hr hP.2
    refine ⟨hr', ?_⟩
    simp only [run_cons_outputs, List.map_cons]
    rw [ho, ho']

/-- Forward simulation where each output of the concrete machine says what the
abstract one is to be given: `obs` reads it off, `out` what has to agree. -/
theorem run_simulates_observed {α β : Type} (step : σ → ε → σ × ο) (step' : σ' → α → σ' × β)
    (R : σ → σ' → Prop) (obs : ο → α) (out : ο → β) (P : σ → ε → Prop)
    (hstep : ∀ s t e, R s t → P s e →
      R (step s e).1 (step' t (obs (step s e).2)).1 ∧
        out (step s e).2 = (step' t (obs (step s e).2)).2)
    (s : σ) (t : σ') (es : List ε) (hR : R s t) (hP : Along step P s es) :
    R (run step s es).1 (run step' t ((run step s es).2.map obs)).1 ∧
      (run step s es).2.map out = (run step' t ((run step s es).2.map obs)).2 := by
  induction es generalizing s t with
  | nil => exact ⟨hR, rfl⟩
  | cons e es ih =>
    obtain ⟨hr, ho⟩ := hstep s t e hR hP.1
    obtain ⟨hr', ho'⟩ := ih (step s e).1 (step' t (obs (step s e).2)).1 hr hP.2
    refine ⟨hr', ?_⟩
    simp only [run_cons_outputs, List.map_cons]
    rw [ho, ho']

/-! ### Several steps as one -/

/-- An event that makes the machine take several steps in a row. -/
def grouped (step : σ → ε → σ × ο) (parts : ε' → List ε) (s : σ) (e : ε') : σ × List ο :=
  run step s (parts e)

theorem run_grouped (step : σ → ε → σ × ο) (parts : ε' → List ε) (s : σ) (es : List ε') :
    (run (grouped step parts) s es).1 = (run step s (es.flatMap parts)).1 ∧
      (run (grouped step parts) s es).2.flatten = (run step s (es.flatMap parts)).2 := by
  induction es generalizing s with
  | nil => exact ⟨rfl, rfl⟩
  | cons e es ih =>
    obtain ⟨hstate, houts⟩ := ih (grouped step parts s e).1
    rw [List.flatMap_cons, run_append, run_cons_state, run_cons_outputs, List.flatten_cons, hstate,
      houts]
    exact ⟨rfl, rfl⟩

/-! ### Histories -/

/-- A property of the state and the outputs so far that every step keeps. -/
theorem run_history (step : σ → ε → σ × ο) (I : σ → List ο → Prop)
    (hstep : ∀ s e log, I s log → I (step s e).1 (log ++ [(step s e).2]))
    (s : σ) (es : List ε) (log : List ο) (hs : I s log) :
    I (run step s es).1 (log ++ (run step s es).2) := by
  induction es generalizing s log with
  | nil =>
    rw [run_nil, List.append_nil]
    exact hs
  | cons e es ih =>
    have hrest := ih (step s e).1 (log ++ [(step s e).2]) (hstep s e log hs)
    rwa [List.append_assoc, List.singleton_append] at hrest

/-- `P` holds at every output, of what came before it and the output itself. -/
def Throughout (P : List ο → ο → Prop) (log : List ο) : Prop :=
  ∀ pre o post, log = pre ++ o :: post → P pre o

theorem throughout_nil (P : List ο → ο → Prop) : Throughout P [] := fun pre o post h => by
  simp at h

theorem throughout_cons (P : List ο → ο → Prop) (o : ο) (log : List ο) :
    Throughout P (o :: log) ↔ P [] o ∧ Throughout (fun pre => P (o :: pre)) log := by
  constructor
  · intro h
    exact ⟨h [] o log rfl, fun pre o' post heq => h (o :: pre) o' post (congrArg (o :: ·) heq)⟩
  · rintro ⟨ho, hlog⟩ pre o' post heq
    cases pre with
    | nil =>
      obtain ⟨rfl, -⟩ := List.cons.inj heq
      exact ho
    | cons a pre =>
      obtain ⟨rfl, hrest⟩ := List.cons.inj heq
      exact hlog pre o' post hrest

/-- Two properties of the outputs of a run agree when they do at every output that meets
an invariant of the state and the outputs so far. -/
theorem throughout_run_iff (step : σ → ε → σ × ο) (I : σ → List ο → Prop)
    (P Q : List ο → ο → Prop)
    (hstep : ∀ s e pre, I s pre → I (step s e).1 (pre ++ [(step s e).2]))
    (hPQ : ∀ s e pre, I s pre → (P pre (step s e).2 ↔ Q pre (step s e).2))
    (s : σ) (es : List ε) (hs : I s []) :
    Throughout P (run step s es).2 ↔ Throughout Q (run step s es).2 := by
  induction es generalizing s I P Q with
  | nil => exact iff_of_true (throughout_nil P) (throughout_nil Q)
  | cons e es ih =>
    rw [run_cons_outputs, throughout_cons, throughout_cons]
    refine and_congr (hPQ s e [] hs) ?_
    exact ih (fun t pre => I t ((step s e).2 :: pre)) (fun pre => P ((step s e).2 :: pre))
      (fun pre => Q ((step s e).2 :: pre)) (fun t e' pre ht => hstep t e' _ ht)
      (fun t e' pre ht => hPQ t e' _ ht) (step s e).1 (hstep s e [] hs)

end Sysmngr.Machine
