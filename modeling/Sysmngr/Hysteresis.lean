import Sysmngr.Machine

/-!
# The two-state hysteresis automaton

Above the rise threshold the automaton becomes critical, below the fall threshold
normal again; between the two it keeps its mode.
-/

namespace Sysmngr.Hysteresis
open Machine

inductive Mode where
  | normal
  | critical
  deriving DecidableEq, Repr

inductive Edge where
  | rise
  | fall
  deriving DecidableEq, Repr

section Automaton
variable {α : Type} [LT α] [DecidableLT α]

def step (rise fall : α) : Mode → α → Mode × Option Edge
  | .normal, v => if v > rise then (.critical, some .rise) else (.normal, none)
  | .critical, v => if v < fall then (.normal, some .fall) else (.critical, none)

end Automaton

/-! ### Alternation -/

/-- Rises and falls in turn, beginning with the one the mode allows. -/
def Alternates : Mode → List Edge → Prop
  | _, [] => True
  | .normal, e :: es => e = .rise ∧ Alternates .critical es
  | .critical, e :: es => e = .fall ∧ Alternates .normal es

instance : ∀ m es, Decidable (Alternates m es)
  | _, [] => isTrue trivial
  | .normal, e :: es =>
    have := instDecidableAlternates .critical es
    inferInstanceAs (Decidable (e = .rise ∧ Alternates .critical es))
  | .critical, e :: es =>
    have := instDecidableAlternates .normal es
    inferInstanceAs (Decidable (e = .fall ∧ Alternates .normal es))

def Turn (m : Mode) (es : List Edge) (m' : Mode) : Prop :=
  (es = [] ∧ m' = m) ∨ (m = .normal ∧ es = [.rise] ∧ m' = .critical) ∨
    (m = .critical ∧ es = [.fall] ∧ m' = .normal)

theorem Turn.alternates {m m' : Mode} {es rest : List Edge} (h : Turn m es m')
    (hrest : Alternates m' rest) : Alternates m (es ++ rest) := by
  rcases h with ⟨rfl, rfl⟩ | ⟨rfl, rfl, rfl⟩ | ⟨rfl, rfl, rfl⟩
  · exact hrest
  · exact ⟨rfl, hrest⟩
  · exact ⟨rfl, hrest⟩

theorem turn_step {α : Type} [LT α] [DecidableLT α] (rise fall : α) (m : Mode) (v : α) :
    Turn m (step rise fall m v).2.toList (step rise fall m v).1 := by
  cases m with
  | normal =>
    by_cases h : v > rise
    · simp [step, h, Turn]
    · simp [step, h, Turn]
  | critical =>
    by_cases h : v < fall
    · simp [step, h, Turn]
    · simp [step, h, Turn]

/-- A machine each of whose steps turns its mode shows alternating edges. -/
theorem run_alternates {σ ε ο : Type} (step : σ → ε → σ × ο) (mode : σ → Mode)
    (edges : ο → List Edge)
    (hturn : ∀ s e, Turn (mode s) (edges (step s e).2) (mode (step s e).1))
    (s : σ) (es : List ε) : Alternates (mode s) ((run step s es).2.flatMap edges) := by
  induction es generalizing s with
  | nil => exact trivial
  | cons e es ih =>
    rw [run_cons_outputs, List.flatMap_cons]
    exact (hturn s e).alternates (ih (step s e).1)

end Sysmngr.Hysteresis
