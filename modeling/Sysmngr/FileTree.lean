import Mathlib.Data.List.Infix
import Mathlib.Tactic.Common

/-!
# Files in a tree of directories

A file system as what stands under each name, a name being the way to it from the root.
Renaming moves what stands under a name with everything below it, and what had the new
name is lost. Two names of the same file are left as they are.
-/

namespace Sysmngr.FileTree

variable {ν φ : Type}

inductive Node (φ : Type) where
  | file (f : φ)
  | dir
  deriving DecidableEq

/-- Only directories have something below them. -/
structure Tree (ν φ : Type) where
  node : List ν → Option (Node φ)
  dirs : ∀ name x, (node (name ++ [x])).isSome → node name = some .dir

theorem Tree.dir_of_below (t : Tree ν φ) (name rest : List ν) (hrest : rest ≠ [])
    (h : (t.node (name ++ rest)).isSome) : t.node name = some .dir := by
  induction rest using List.reverseRecOn with
  | nil => exact absurd rfl hrest
  | append_singleton rest x ih =>
    rw [← List.append_assoc] at h
    have hdir := t.dirs _ x h
    by_cases hnil : rest = []
    · rw [hnil, List.append_nil] at hdir
      exact hdir
    · exact ih hnil (by rw [hdir]; rfl)

theorem Tree.none_below (t : Tree ν φ) (name rest : List ν) (h : t.node name ≠ some .dir)
    (hrest : rest ≠ []) : t.node (name ++ rest) = none := by
  by_contra hsome
  exact h (t.dir_of_below name rest hrest (Option.isSome_iff_ne_none.mpr hsome))

/-- A tree given by its names. -/
def lookup [DecidableEq ν] (entries : List (List ν × Node φ)) (name : List ν) : Option (Node φ) :=
  (entries.find? fun e => e.1 = name).map Prod.snd

theorem lookup_mem [DecidableEq ν] (entries : List (List ν × Node φ)) (name : List ν)
    (n : Node φ) (h : lookup entries name = some n) : (name, n) ∈ entries := by
  obtain ⟨e, he, rfl⟩ := Option.map_eq_some_iff.mp h
  have hfound := List.find?_some he
  have hname : e.1 = name := of_decide_eq_true hfound
  rw [← hname]
  exact List.mem_of_find?_eq_some he

def Tree.ofList [DecidableEq ν] (entries : List (List ν × Node φ))
    (h : ∀ e ∈ entries, e.1 = [] ∨ lookup entries e.1.dropLast = some .dir) : Tree ν φ where
  node := lookup entries
  dirs := by
    intro name x hsome
    obtain ⟨n, hn⟩ := Option.isSome_iff_exists.mp hsome
    rcases h _ (lookup_mem entries _ n hn) with hnil | hparent
    · exact absurd hnil (by simp)
    · rwa [List.dropLast_concat] at hparent

theorem not_prefix_of_concat {a b : List ν} {x : ν} (h : ¬a <+: b ++ [x]) : ¬a <+: b :=
  fun hab => h (hab.trans (List.prefix_append b [x]))

/-! ### Renaming -/

/-- What `rename` needs: a name that is there, and a new one in a directory that does not
move, with nothing below it. -/
structure Tree.Renamable (t : Tree ν φ) (old new : List ν) : Prop where
  there : (t.node old).isSome
  placed : old ≠ new → ∃ dir name, new = dir ++ [name] ∧ t.node dir = some .dir ∧ ¬old <+: dir
  vacant : old ≠ new → ∀ rest, rest ≠ [] → t.node (new ++ rest) = none

/-- A name that is free, or that of a file, can be renamed to. -/
theorem Tree.renamable_of_free (t : Tree ν φ) (old dir : List ν) (name : ν)
    (hthere : (t.node old).isSome) (hfree : t.node (dir ++ [name]) ≠ some .dir)
    (hdir : t.node dir = some .dir) (hmoves : ¬old <+: dir) : t.Renamable old (dir ++ [name]) where
  there := hthere
  placed := fun _ => ⟨dir, name, rfl, hdir, hmoves⟩
  vacant := fun _ rest => t.none_below _ rest hfree

section Rename
variable [DecidableEq ν] [DecidableEq φ]

def sameFile : Option (Node φ) → Option (Node φ) → Bool
  | some (.file f), some (.file g) => decide (f = g)
  | _, _ => false

theorem sameFile_eq {a b : Option (Node φ)} (h : sameFile a b = true) :
    ∃ f, a = some (.file f) ∧ b = some (.file f) := by
  unfold sameFile at h
  split at h
  · exact ⟨_, rfl, by rw [of_decide_eq_true h]⟩
  · exact absurd h Bool.false_ne_true

def Tree.moved (t : Tree ν φ) (old new name : List ν) : Option (Node φ) :=
  if old = new ∨ sameFile (t.node old) (t.node new) then t.node name
  else if new <+: name then t.node (old ++ name.drop new.length)
  else if old <+: name then none
  else t.node name

theorem Tree.moved_stays (t : Tree ν φ) (old new name : List ν)
    (h : old = new ∨ sameFile (t.node old) (t.node new) = true) :
    t.moved old new name = t.node name := if_pos h

/-- What stood under the old name is under the new one, with everything below it. -/
theorem Tree.moved_new (t : Tree ν φ) (old new rest : List ν)
    (h : ¬(old = new ∨ sameFile (t.node old) (t.node new) = true)) :
    t.moved old new (new ++ rest) = t.node (old ++ rest) := by
  rw [Tree.moved, if_neg h, if_pos (List.prefix_append new rest), List.drop_left]

theorem Tree.moved_other (t : Tree ν φ) (old new name : List ν) (hold : ¬old <+: name)
    (hnew : ¬new <+: name) : t.moved old new name = t.node name := by
  rw [Tree.moved, if_neg hnew, if_neg hold, ite_self]

theorem Tree.moved_dirs (t : Tree ν φ) (old new : List ν) (h : t.Renamable old new)
    (name : List ν) (x : ν) (hsome : (t.moved old new (name ++ [x])).isSome) :
    t.moved old new name = some .dir := by
  by_cases hstay : old = new ∨ sameFile (t.node old) (t.node new) = true
  · rw [t.moved_stays old new _ hstay] at hsome ⊢
    exact t.dirs name x hsome
  obtain ⟨dir, last, hnew, hdir, hmoves⟩ := h.placed fun heq => hstay (Or.inl heq)
  by_cases hbehind : new <+: name ++ [x]
  · rcases List.prefix_concat_iff.mp hbehind with heq | ⟨rest, rfl⟩
    -- the new name itself stands in a directory that stays
    · obtain ⟨rfl, -⟩ := List.append_inj' (hnew.symm.trans heq) rfl
      rw [t.moved_other old new dir hmoves, hdir]
      rw [hnew]
      exact fun hpre => absurd hpre.length_le (by simp)
    · rw [List.append_assoc, t.moved_new old new _ hstay, ← List.append_assoc] at hsome
      rw [t.moved_new old new rest hstay]
      exact t.dirs _ x hsome
  · by_cases hgone : old <+: name ++ [x]
    · rw [Tree.moved, if_neg hstay, if_neg hbehind, if_pos hgone] at hsome
      exact absurd hsome (by simp)
    · rw [t.moved_other old new _ hgone hbehind] at hsome
      rw [t.moved_other old new name (not_prefix_of_concat hgone) (not_prefix_of_concat hbehind)]
      exact t.dirs name x hsome

/-- `rename`, where it succeeds. -/
def Tree.rename (t : Tree ν φ) (old new : List ν) (h : t.Renamable old new) : Tree ν φ where
  node := t.moved old new
  dirs := t.moved_dirs old new h

variable (t : Tree ν φ) (old new : List ν) (h : t.Renamable old new)

theorem Tree.rename_moves (rest : List ν) (n : Node φ) (hn : t.node (old ++ rest) = some n) :
    (t.rename old new h).node (new ++ rest) = some n := by
  by_cases hstay : old = new ∨ sameFile (t.node old) (t.node new) = true
  · change t.moved old new (new ++ rest) = some n
    rw [t.moved_stays old new _ hstay]
    rcases hstay with rfl | hsame
    · exact hn
    · obtain ⟨f, hold, hnew⟩ := sameFile_eq hsame
      by_cases hrest : rest = []
      · rw [hrest, List.append_nil] at hn ⊢
        rw [hnew, ← hold, hn]
      · rw [t.none_below old rest (by simp [hold]) hrest] at hn
        exact absurd hn (by simp)
  · exact (t.moved_new old new rest hstay).trans hn

/-- What stands neither at the old name, or below it, nor at the new one stays where it is. -/
theorem Tree.rename_keeps (name : List ν) (n : Node φ) (hn : t.node name = some n)
    (hold : ¬old <+: name) (hnew : name ≠ new) : (t.rename old new h).node name = some n := by
  by_cases hstay : old = new ∨ sameFile (t.node old) (t.node new) = true
  · exact (t.moved_stays old new name hstay).trans hn
  · refine (t.moved_other old new name hold fun hpre => ?_).trans hn
    obtain ⟨rest, rfl⟩ := hpre
    have hrest : rest ≠ [] := fun hnil => hnew (by rw [hnil, List.append_nil])
    rw [h.vacant (fun heq => hstay (Or.inl heq)) rest hrest] at hn
    exact absurd hn (by simp)

theorem Tree.rename_new : (t.rename old new h).node new = t.node old := by
  obtain ⟨n, hn⟩ := Option.isSome_iff_exists.mp h.there
  have hmoves := t.rename_moves old new h [] n (by rw [List.append_nil, hn])
  rw [List.append_nil] at hmoves
  rw [hmoves, hn]

end Rename

end Sysmngr.FileTree
