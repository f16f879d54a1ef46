import Mathlib.Tactic.Common

/-!
# Bodies with effects and early exits

A body runs its steps in order. A check that fails leaves the body with a fault, and the
effects of the steps before it stay. `Meets` is the triple of such a body: what every
effect, the fault it is left with and the value it ends with are to satisfy. A step's rule
hands the outcome of the step to the steps after it, so that a condition on an effect is
met from the checks that come before it.
-/

namespace Sysmngr

structure Routine (ε φ α : Type) where
  effects : List ε
  result : Except φ α

namespace Routine

variable {ε φ α β : Type}

instance : Monad (Routine ε φ) where
  pure a := ⟨[], .ok a⟩
  bind x f :=
    match x.result with
    | .ok a => ⟨x.effects ++ (f a).effects, (f a).result⟩
    | .error e => ⟨x.effects, .error e⟩

def emit (es : List ε) : Routine ε φ Unit := ⟨es, .ok ()⟩

def require (ok : Bool) (fault : φ) : Routine ε φ Unit :=
  ⟨[], if ok then .ok () else .error fault⟩

def fetch (o : Option α) (fault : φ) : Routine ε φ α :=
  ⟨[], o.elim (.error fault) .ok⟩

/-- What a body is left with, where its faults and its value are of one type. -/
def last (x : Routine ε α α) : α :=
  match x.result with
  | .ok a => a
  | .error a => a

structure Meets (E : ε → Prop) (F : φ → Prop) (Q : α → Prop) (x : Routine ε φ α) : Prop where
  effects : ∀ e ∈ x.effects, E e
  left : ∀ e, x.result = .error e → F e
  ended : ∀ a, x.result = .ok a → Q a

variable {E : ε → Prop} {F : φ → Prop} {Q : α → Prop}

theorem meets_pure {a : α} (h : Q a) : Meets E F Q (pure a) where
  effects := fun _ he => absurd he List.not_mem_nil
  left := fun _ he => nomatch he
  ended := fun _ hb => Except.ok.inj hb ▸ h

theorem meets_emit {es : List ε} (h : ∀ e ∈ es, E e) :
    Meets E F (fun _ => True) (emit es) where
  effects := h
  left := fun _ he => nomatch he
  ended := fun _ _ => trivial

theorem meets_require {ok : Bool} {fault : φ} (h : ok = false → F fault) :
    Meets E F (fun _ => ok = true) (require ok fault) where
  effects := fun _ he => absurd he List.not_mem_nil
  left := by
    intro e he
    cases ok with
    | true => exact nomatch he
    | false => exact Except.error.inj he ▸ h rfl
  ended := by
    intro _ ha
    cases ok with
    | true => rfl
    | false => exact nomatch ha

theorem meets_fetch {o : Option α} {fault : φ} (h : o = none → F fault) :
    Meets E F (fun a => o = some a) (fetch o fault) where
  effects := fun _ he => absurd he List.not_mem_nil
  left := by
    intro e he
    cases o with
    | some a => exact nomatch he
    | none => exact Except.error.inj he ▸ h rfl
  ended := by
    intro b hb
    cases o with
    | some a => exact congrArg some (Except.ok.inj hb)
    | none => exact nomatch hb

/-- The rest of a body may assume how its first step ended. -/
theorem meets_bind {R : β → Prop} {x : Routine ε φ β} {f : β → Routine ε φ α} (hx : Meets E F R x)
    (hf : ∀ b, R b → Meets E F Q (f b)) : Meets E F Q (x >>= f) := by
  obtain ⟨effects, result⟩ := x
  cases result with
  | error e =>
    exact ⟨hx.effects, fun e' he => hx.left e' (Except.error.inj he ▸ rfl), fun _ ha => nomatch ha⟩
  | ok b =>
    have hrest := hf b (hx.ended b rfl)
    refine ⟨fun e he => ?_, hrest.left, hrest.ended⟩
    rcases List.mem_append.mp he with hfirst | hlater
    · exact hx.effects e hfirst
    · exact hrest.effects e hlater

/-- Where faults and values are of one type, a body is left with a fault or a value. -/
theorem Meets.last_spec {P : α → Prop} {x : Routine ε α α} (h : Meets E P Q x) :
    P x.last ∨ Q x.last := by
  obtain ⟨effects, result⟩ := x
  cases result with
  | error e => exact Or.inl (h.left e rfl)
  | ok a => exact Or.inr (h.ended a rfl)

end Routine

end Sysmngr
