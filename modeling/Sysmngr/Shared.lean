import Mathlib.Data.Set.Basic
import Mathlib.Data.Set.Function
import Mathlib.Logic.Function.Basic
import Mathlib.Logic.Pairwise
import Sysmngr.Machine

/-!
# Components that share a store

Each component holds the store besides what is its own. The store is handed to the one
whose turn it is and taken back from it. A component that goes by certain keys only, and
writes no others, does among components with other keys what it does alone.
-/

namespace Sysmngr.Shared
open Machine

variable {κ ν : Type}

/-- A state `σ` with a store `κ → ν` in it that can be taken out and replaced. -/
structure Holder (κ ν σ : Type) where
  store : σ → κ → ν
  put : σ → (κ → ν) → σ
  store_put : ∀ s f, store (put s f) = f
  put_store : ∀ s, put s (store s) = s
  put_put : ∀ s f g, put (put s f) g = put s g

/-! ### One component -/

section Component
variable {σ ε ο : Type} (h : Holder κ ν σ) (own : Set κ)

/-- The same but for keys of the store that are not in `own`. -/
structure Holder.Alike (s t : σ) : Prop where
  keys : Set.EqOn (h.store s) (h.store t) own
  rest : h.put s (h.store t) = t

/-- A step writes keys in `own` only, and what it does depends on no others. -/
structure Holder.Owns (step : σ → ε → σ × ο) : Prop where
  writes : ∀ s e, Set.EqOn (h.store (step s e).1) (h.store s) ownᶜ
  reads : ∀ s t e, h.Alike own s t →
    h.Alike own (step s e).1 (step t e).1 ∧ (step s e).2 = (step t e).2

variable {h own}

theorem Holder.Alike.eq_put {s t : σ} (hst : h.Alike own s t) : t = h.put s (h.store t) :=
  hst.rest.symm

/-- It is enough to compare a state with itself under another store. -/
theorem Holder.owns_of_put (step : σ → ε → σ × ο)
    (hwrites : ∀ s e, Set.EqOn (h.store (step s e).1) (h.store s) ownᶜ)
    (hreads : ∀ s f e, Set.EqOn (h.store s) f own →
      h.Alike own (step s e).1 (step (h.put s f) e).1 ∧ (step s e).2 = (step (h.put s f) e).2) :
    h.Owns own step where
  writes := hwrites
  reads := by
    intro s t e hst
    have ht := hreads s (h.store t) e hst.keys
    rwa [← hst.eq_put] at ht

theorem Holder.Alike.refl (s : σ) : h.Alike own s s where
  keys := Set.eqOn_refl _ _
  rest := h.put_store s

/-- What is the same but for other keys stays so when these are written. -/
theorem Holder.Alike.put_left {s t : σ} (hst : h.Alike own s t) (f : κ → ν)
    (hf : Set.EqOn (h.store s) f own) : h.Alike own (h.put s f) t where
  keys := by
    rw [h.store_put]
    exact hf.symm.trans hst.keys
  rest := by
    rw [h.put_put]
    exact hst.rest

end Component

/-! ### Components taking turns -/

section Family
variable {ι : Type} [DecidableEq ι] {σ ε ο : ι → Type} (h : ∀ i, Holder κ ν (σ i))
  (step : ∀ i, σ i → ε i → σ i × ο i)

/-- The component gets the store, and what it leaves is the store for the next. -/
def sharedStep (s : (κ → ν) × ∀ i, σ i) (e : Σ i, ε i) :
    ((κ → ν) × ∀ i, σ i) × Σ i, ο i :=
  let r := step e.1 ((h e.1).put (s.2 e.1) s.1) e.2
  (((h e.1).store r.1, Function.update s.2 e.1 r.1), ⟨e.1, r.2⟩)

/-- The state of a component with the store as it is. -/
def part (s : (κ → ν) × ∀ i, σ i) (i : ι) : σ i := (h i).put (s.2 i) s.1

/-- What concerns the component `i`, in order. -/
def partOf {α : ι → Type} (i : ι) (l : List (Σ i, α i)) : List (α i) :=
  l.filterMap fun x => if hx : x.1 = i then some (hx ▸ x.2) else none

theorem partOf_cons_self {α : ι → Type} (i : ι) (a : α i) (l : List (Σ i, α i)) :
    partOf i (⟨i, a⟩ :: l) = a :: partOf i l := by
  rw [partOf, List.filterMap_cons, dif_pos rfl]
  rfl

theorem partOf_cons_of_ne {α : ι → Type} (i j : ι) (a : α j) (l : List (Σ i, α i)) (hij : j ≠ i) :
    partOf i (⟨j, a⟩ :: l) = partOf i l := by
  rw [partOf, List.filterMap_cons, dif_neg hij]
  rfl

variable {h step} {own : ι → Set κ}

theorem part_self (s : (κ → ν) × ∀ i, σ i) (i : ι) (e : ε i) :
    part h (sharedStep h step s ⟨i, e⟩).1 i = (step i (part h s i) e).1 := by
  simp only [part, sharedStep, Function.update_self]
  exact (h i).put_store _

theorem part_of_ne (s : (κ → ν) × ∀ i, σ i) (i j : ι) (e : ε j) (hij : i ≠ j) :
    part h (sharedStep h step s ⟨j, e⟩).1 i =
      (h i).put (part h s i) (sharedStep h step s ⟨j, e⟩).1.1 := by
  simp only [part, sharedStep, Function.update_of_ne hij]
  rw [(h i).put_put]

/-- A step of another component leaves the keys of this one. -/
theorem keys_of_ne (howns : ∀ i, (h i).Owns (own i) (step i))
    (hdisjoint : Pairwise fun i j => own i ∩ own j = ∅) (s : (κ → ν) × ∀ i, σ i) (i j : ι)
    (e : ε j) (hij : i ≠ j) : Set.EqOn (sharedStep h step s ⟨j, e⟩).1.1 s.1 (own i) := by
  intro k hk
  have hother : k ∈ (own j)ᶜ := fun hj =>
    Set.eq_empty_iff_forall_notMem.mp (hdisjoint hij) k ⟨hk, hj⟩
  have hwrites := (howns j).writes ((h j).put (s.2 j) s.1) e hother
  rwa [(h j).store_put] at hwrites

/-- In every interleaving a component does what it does alone on its own events, and its
state and keys are then what they are alone. -/
theorem run_alone (howns : ∀ i, (h i).Owns (own i) (step i))
    (hdisjoint : Pairwise fun i j => own i ∩ own j = ∅) (i : ι)
    (s : (κ → ν) × ∀ i, σ i) (t : σ i) (es : List (Σ i, ε i))
    (hs : (h i).Alike (own i) (part h s i) t) :
    (h i).Alike (own i) (part h (run (sharedStep h step) s es).1 i)
        (run (step i) t (partOf i es)).1 ∧
      partOf i (run (sharedStep h step) s es).2 = (run (step i) t (partOf i es)).2 := by
  induction es generalizing s t with
  | nil => exact ⟨hs, rfl⟩
  | cons e es ih =>
    obtain ⟨j, e⟩ := e
    by_cases hij : i = j
    · subst hij
      obtain ⟨hnext, hout⟩ := (howns i).reads _ _ e hs
      rw [← part_self] at hnext
      obtain ⟨hrest, houts⟩ := ih _ _ hnext
      rw [partOf_cons_self, run_cons_state, run_cons_outputs, run_cons_state, run_cons_outputs,
        ← houts, ← hout]
      exact ⟨hrest, partOf_cons_self i _ _⟩
    · have hkeys := keys_of_ne howns hdisjoint s i j e hij
      have hnext : (h i).Alike (own i) (part h (sharedStep h step s ⟨j, e⟩).1 i) t := by
        rw [part_of_ne s i j e hij]
        apply hs.put_left
        rw [part, (h i).store_put]
        exact hkeys.symm
      obtain ⟨hrest, houts⟩ := ih _ _ hnext
      rw [partOf_cons_of_ne i j e es (Ne.symm hij), run_cons_state, run_cons_outputs, ← houts]
      exact ⟨hrest, partOf_cons_of_ne i j _ _ (Ne.symm hij)⟩

/-- A key that no component owns keeps its value. -/
theorem run_unowned (howns : ∀ i, (h i).Owns (own i) (step i)) (k : κ) (hk : ∀ i, k ∉ own i)
    (s : (κ → ν) × ∀ i, σ i) (es : List (Σ i, ε i)) :
    (run (sharedStep h step) s es).1.1 k = s.1 k := by
  induction es generalizing s with
  | nil => rfl
  | cons e es ih =>
    obtain ⟨j, e⟩ := e
    have hwrites := (howns j).writes ((h j).put (s.2 j) s.1) e (hk j)
    rw [(h j).store_put] at hwrites
    rw [run_cons_state, ih]
    exact hwrites

end Family

end Sysmngr.Shared
