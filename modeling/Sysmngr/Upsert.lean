import Mathlib.Data.List.Induction
import Mathlib.Data.List.Nodup
import Mathlib.Tactic.Common

/-!
# Stores kept by update or append

A list of records with a key: the first record that has the key of a new one is updated,
and where there is none the new one goes last. What a store holds after a history of
records is told by the history: a lookup by any test of the keys finds the key that was
put first among those that pass, with the record that was put last under it.
-/

namespace Sysmngr.Upsert

variable {α κ : Type} [DecidableEq κ] (key : α → κ)

def upsert (fresh : α) (update : α → α) : List α → List α
  | [] => [fresh]
  | a :: l => if key a = key fresh then update a :: l else a :: upsert fresh update l

/-- An update that keeps the key it was chosen by. -/
def KeepsKey (fresh : α) (update : α → α) : Prop :=
  ∀ a, key a = key fresh → key (update a) = key fresh

theorem map_key_upsert (fresh : α) (update : α → α) (h : KeepsKey key fresh update)
    (l : List α) :
    (upsert key fresh update l).map key =
      if key fresh ∈ l.map key then l.map key else l.map key ++ [key fresh] := by
  induction l with
  | nil => rfl
  | cons a l ih =>
    by_cases ha : key a = key fresh
    · have hmem : key fresh ∈ (a :: l).map key := by
        rw [List.map_cons, ← ha]
        exact List.mem_cons_self ..
      rw [if_pos hmem, upsert, if_pos ha, List.map_cons, h a ha, List.map_cons, ha]
    · rw [upsert, if_neg ha, List.map_cons, ih, List.map_cons]
      simp only [List.mem_cons, Ne.symm ha, false_or]
      split
      · rfl
      · rw [List.cons_append]

theorem nodup_upsert (fresh : α) (update : α → α) (h : KeepsKey key fresh update) (l : List α)
    (hl : (l.map key).Nodup) : ((upsert key fresh update l).map key).Nodup := by
  rw [map_key_upsert key fresh update h]
  split
  · exact hl
  · rename_i hnew
    refine List.nodup_append.mpr ⟨hl, List.nodup_singleton _, ?_⟩
    rintro k hk k' hk' rfl
    exact hnew (List.mem_singleton.mp hk' ▸ hk)

/-- A lookup that hits a record before finds it after, updated if it has the key; one that
hit nothing finds the new record if that passes. -/
theorem find_upsert (fresh : α) (update : α → α) (h : KeepsKey key fresh update) (p : κ → Bool)
    (l : List α) :
    ((upsert key fresh update l).find? fun a => p (key a)) =
      match l.find? fun a => p (key a) with
      | some a => some (if key a = key fresh then update a else a)
      | none => if p (key fresh) then some fresh else none := by
  induction l with
  | nil =>
    rw [upsert, List.find?_cons]
    cases p (key fresh) <;> rfl
  | cons a l ih =>
    by_cases ha : key a = key fresh
    · have hup : key (update a) = key fresh := h a ha
      rw [upsert, if_pos ha, List.find?_cons, List.find?_cons, hup, ha]
      cases hp : p (key fresh) with
      | true => simp only [if_pos ha]
      | false =>
        simp only [Bool.false_eq_true, if_false]
        cases hfind : l.find? fun a => p (key a) with
        | none => rfl
        | some b =>
          have hb := List.find?_some hfind
          have hne : key b ≠ key fresh := by
            rintro heq
            rw [heq, hp] at hb
            exact Bool.noConfusion hb
          simp only [if_neg hne]
    · rw [upsert, if_neg ha, List.find?_cons, List.find?_cons, ih]
      cases hp : p (key a) with
      | true => simp only [if_neg ha]
      | false => rfl

/-- Where no key stands twice, a record with a key that passes a test is the record with
that key, if it passes. -/
theorem find_and_key (q : α → Bool) (k : κ) (l : List α) (hl : (l.map key).Nodup) :
    (l.find? fun a => q a && decide (key a = k)) =
      (l.find? fun a => decide (key a = k)).filter q := by
  induction l with
  | nil => rfl
  | cons a l ih =>
    rw [List.map_cons, List.nodup_cons] at hl
    by_cases ha : key a = k
    · have hrest : (l.find? fun b => q b && decide (key b = k)) = none := by
        rw [List.find?_eq_none]
        intro b hb hpass
        have hb' : key b = k := by simpa using (Bool.and_eq_true_iff.mp hpass).2
        exact hl.1 (ha.trans hb'.symm ▸ List.mem_map_of_mem hb)
      rw [List.find?_cons, List.find?_cons, decide_eq_true ha, Bool.and_true, hrest,
        Option.filter_some]
      cases q a <;> rfl
    · rw [List.find?_cons, List.find?_cons, decide_eq_false ha, Bool.and_false]
      exact ih hl.2

/-! ### Histories -/

def put (a : α) : List α → List α := upsert key a fun _ => a

def puts (history : List α) : List α := history.foldl (fun l a => put key a l) []

/-- The last record of the history under a key. -/
def lastPut (history : List α) (k : κ) : Option α := history.reverse.find? fun a => key a = k

theorem puts_append (history : List α) (a : α) :
    puts key (history ++ [a]) = put key a (puts key history) := by
  rw [puts, List.foldl_append]
  rfl

theorem lastPut_append (history : List α) (a : α) (k : κ) :
    lastPut key (history ++ [a]) k = if key a = k then some a else lastPut key history k := by
  rw [lastPut, List.reverse_append, List.reverse_singleton, List.singleton_append,
    List.find?_cons]
  by_cases ha : key a = k
  · rw [if_pos ha, decide_eq_true ha]
  · rw [if_neg ha, decide_eq_false ha]
    rfl

theorem nodup_puts (history : List α) : ((puts key history).map key).Nodup := by
  induction history using List.reverseRecOn with
  | nil => exact List.nodup_nil
  | append_singleton history a ih =>
    rw [puts_append]
    exact nodup_upsert key a _ (fun _ _ => rfl) _ ih

/-- The first place stays with the key that was put first. -/
theorem head_puts (history : List α) :
    (puts key history).head?.map key = history.head?.map key := by
  induction history using List.reverseRecOn with
  | nil => rfl
  | append_singleton history a ih =>
    rw [← List.head?_map] at ih ⊢
    rw [puts_append, put, map_key_upsert key a _ fun _ _ => rfl]
    cases history with
    | nil => rfl
    | cons b rest =>
      obtain ⟨c, hc⟩ : ∃ c, ((puts key (b :: rest)).map key).head? = some c := ⟨key b, ih⟩
      have hfirst : ((puts key (b :: rest)).map key ++ [key a]).head? = some c := by
        rw [List.head?_append, hc]
        rfl
      split
      · exact ih
      · exact hfirst.trans (hc.symm.trans ih)

theorem lastPut_isSome (history : List α) (a : α) (h : a ∈ history) :
    (lastPut key history (key a)).isSome := by
  rw [lastPut, List.find?_isSome]
  exact ⟨a, List.mem_reverse.mpr h, decide_eq_true rfl⟩

theorem lastPut_key (history : List α) (k : κ) (a : α) (h : lastPut key history k = some a) :
    key a = k := by
  simpa using List.find?_some h

theorem lastPut_mem (history : List α) (k : κ) (a : α) (h : lastPut key history k = some a) :
    a ∈ history :=
  List.mem_reverse.mp (List.mem_of_find?_eq_some h)

theorem find_puts (p : κ → Bool) (history : List α) :
    ((puts key history).find? fun a => p (key a)) =
      (history.find? fun a => p (key a)).bind fun first => lastPut key history (key first) := by
  induction history using List.reverseRecOn with
  | nil => rfl
  | append_singleton history a ih =>
    rw [puts_append, put, find_upsert key a _ (fun _ _ => rfl), ih, List.find?_append]
    cases hfirst : history.find? fun a => p (key a) with
    | none =>
      simp only [Option.bind_none, Option.none_or, List.find?_cons, List.find?_nil]
      cases p (key a) with
      | true => simp only [if_true, Option.bind_some, lastPut_append]
      | false => rfl
    | some first =>
      obtain ⟨last, hlast⟩ := Option.isSome_iff_exists.mp
        (lastPut_isSome key history first (List.mem_of_find?_eq_some hfirst))
      have hkey := lastPut_key key history (key first) last hlast
      simp only [Option.some_or, Option.bind_some, lastPut_append, hlast, hkey]
      by_cases ha : key a = key first
      · simp only [if_pos ha, if_pos ha.symm]
      · simp only [if_neg ha, if_neg (Ne.symm ha)]

/-- The record that answers to a key is the last one put under it. -/
theorem find_puts_key (history : List α) (k : κ) :
    ((puts key history).find? fun a => key a = k) = lastPut key history k := by
  have hfind := find_puts key (fun j => decide (j = k)) history
  rw [hfind]
  cases hfirst : history.find? fun a => decide (key a = k) with
  | none =>
    rw [Option.bind_none, lastPut, eq_comm, List.find?_eq_none]
    intro a ha
    exact List.find?_eq_none.mp hfirst a (List.mem_reverse.mp ha)
  | some first =>
    have hkey : key first = k := by simpa using List.find?_some hfirst
    rw [Option.bind_some, hkey]

end Sysmngr.Upsert
