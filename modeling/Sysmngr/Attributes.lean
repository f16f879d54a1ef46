import Mathlib.Data.List.Perm.Basic

/-!
# Named attributes

Lists of names and values in which a name stands at most once, so that its value does
not depend on the order of the list.
-/

namespace Sysmngr.Attributes

variable {κ α : Type} [DecidableEq κ]

def AtMostOne (name : κ) (attrs : List (κ × α)) : Prop :=
  attrs.countP (fun a => decide (a.1 = name)) ≤ 1

instance (name : κ) (attrs : List (κ × α)) : Decidable (AtMostOne name attrs) :=
  inferInstanceAs (Decidable (_ ≤ _))

theorem AtMostOne.perm {name : κ} {as bs : List (κ × α)} (h : AtMostOne name as)
    (hperm : bs.Perm as) : AtMostOne name bs := by
  unfold AtMostOne
  rw [hperm.countP_eq]
  exact h

theorem AtMostOne.tail {name : κ} {a : κ × α} {attrs : List (κ × α)}
    (h : AtMostOne name (a :: attrs)) : AtMostOne name attrs :=
  Nat.le_trans (List.sublist_cons_self a attrs).countP_le h

theorem AtMostOne.absent {name : κ} {v : α} {attrs : List (κ × α)}
    (h : AtMostOne name ((name, v) :: attrs)) : ∀ a ∈ attrs, a.1 ≠ name := by
  intro a ha hname
  have hpos : 0 < attrs.countP (fun a => decide (a.1 = name)) :=
    List.countP_pos_iff.mpr ⟨a, ha, decide_eq_true hname⟩
  rw [AtMostOne, List.countP_cons_of_pos (by simp)] at h
  omega

end Sysmngr.Attributes
