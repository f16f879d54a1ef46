import Sysmngr.Text

/-!
# Configuration packages

A UCI package has named sections, each a table of options, and runs of sections
of one type that are kept in the order of the file. Setting an option to the
empty string deletes it; an option that is not there reads as the default.
-/

namespace Sysmngr.Uci
open Text

/-! ### Named sections -/

/-- The options of the named sections, by section and option name. -/
abbrev Named := String → String → Option Str

def Named.set (c : Named) (section_ option : String) (value : Str) : Named :=
  fun s o => if s = section_ ∧ o = option then (if value = [] then none else some value) else c s o

/-- Bounded read: the option or the default, cut to a buffer of `size` bytes. -/
def Named.get (c : Named) (section_ option : String) (default : Str) (size : ℕ) : Str :=
  snprintf size ((c section_ option).getD default)

@[simp] theorem Named.set_self (c : Named) (s o : String) (v : Str) (hv : v ≠ []) :
    c.set s o v s o = some v := by
  simp [Named.set, hv]

@[simp] theorem Named.set_other (c : Named) (s o s' o' : String) (v : Str)
    (h : ¬(s' = s ∧ o' = o)) : c.set s o v s' o' = c s' o' := by
  simp only [Named.set, if_neg h]

/-! ### Sections of one type -/

structure Section where
  name : Str
  options : List (String × Str)
  deriving DecidableEq, Repr

def Section.get (s : Section) (option : String) : Str :=
  ((s.options.find? fun o => o.1 == option).map Prod.snd).getD []

def Section.set (s : Section) (option : String) (value : Str) : Section :=
  if value = [] then { s with options := s.options.filter fun o => o.1 != option }
  else if s.options.any fun o => o.1 == option then
    { s with options := s.options.map fun o => if o.1 == option then (option, value) else o }
  else { s with options := s.options ++ [(option, value)] }

@[simp] theorem Section.set_name (s : Section) (option : String) (value : Str) :
    (s.set option value).name = s.name := by
  unfold Section.set
  split
  · rfl
  · split <;> rfl

/-- A new section goes last; a name that is taken keeps its section. -/
def addSection (l : List Section) (name : Str) : List Section :=
  if l.any fun s => s.name == name then l else l ++ [⟨name, []⟩]

def setOption (l : List Section) (name : Str) (option : String) (value : Str) : List Section :=
  l.map fun s => if s.name == name then s.set option value else s

def deleteSection (l : List Section) (name : Str) : List Section :=
  l.filter fun s => s.name != name

theorem addSection_fresh (l : List Section) (name : Str) (h : name ∉ l.map Section.name) :
    addSection l name = l ++ [⟨name, []⟩] := by
  have hany : (l.any fun s => s.name == name) = false := by
    simp only [List.any_eq_false, beq_iff_eq]
    intro s hs hn
    exact h (List.mem_map.mpr ⟨s, hs, hn⟩)
  simp [addSection, hany]

theorem setOption_append_last (l : List Section) (s : Section) (option : String) (value : Str)
    (h : s.name ∉ l.map Section.name) :
    setOption (l ++ [s]) s.name option value = l ++ [s.set option value] := by
  have hl : setOption l s.name option value = l := by
    refine (List.map_congr_left (fun t ht => ?_)).trans (List.map_id l)
    have hne : (t.name == s.name) = false := by
      simp only [beq_eq_false_iff_ne, ne_eq]
      intro hn
      exact h (List.mem_map.mpr ⟨t, ht, hn⟩)
    simp [hne]
  have happ : setOption (l ++ [s]) s.name option value =
      setOption l s.name option value ++ [s.set option value] := by
    simp [setOption]
  rw [happ, hl]

theorem deleteSection_sublist (l : List Section) (name : Str) :
    (deleteSection l name).Sublist l := List.filter_sublist

/-! ### Reading back -/

/-- Rewriting entries without changing what `p` sees of them. -/
theorem find_map {α : Type} (p : α → Bool) (f : α → α) (h : ∀ a, p (f a) = p a) (l : List α) :
    (l.map f).find? p = (l.find? p).map f := by
  rw [List.find?_map]
  have hcomp : p ∘ f = p := funext h
  rw [hcomp]

theorem Section.get_set_self (s : Section) (option : String) (value : Str) :
    (s.set option value).get option = value := by
  unfold Section.set Section.get
  by_cases hv : value = []
  · have hnone : (s.options.filter fun o => o.1 != option).find? (fun o => o.1 == option) = none := by
      rw [List.find?_eq_none]
      intro o ho
      simpa using (List.mem_filter.mp ho).2
    rw [if_pos hv, hnone, hv]
    rfl
  · rw [if_neg hv]
    split
    · rename_i hany
      obtain ⟨o, hfound⟩ := Option.isSome_iff_exists.mp
        (List.find?_isSome.mpr (List.any_eq_true.mp hany))
      have hname : o.1 = option := by simpa only [beq_iff_eq] using List.find?_some hfound
      rw [find_map _ _ (fun a => by split <;> simp_all), hfound]
      simp [hname]
    · rename_i hany
      have hnone : s.options.find? (fun o => o.1 == option) = none := by
        rw [List.find?_eq_none]
        intro o ho hname
        exact hany (List.any_eq_true.mpr ⟨o, ho, hname⟩)
      simp [List.find?_append, hnone]

theorem Section.get_set_other (s : Section) (o option : String) (value : Str) (h : o ≠ option) :
    (s.set option value).get o = s.get o := by
  unfold Section.set Section.get
  by_cases hv : value = []
  · rw [if_pos hv]
    simp only [List.find?_filter]
    congr 3
    funext p
    by_cases hp : p.1 = o
    · simp [hp, h]
    · simp [hp]
  · rw [if_neg hv]
    split
    · rw [find_map _ _ (fun a => by split <;> simp_all), Option.map_map]
      cases hfound : s.options.find? fun p => p.1 == o with
      | none => rfl
      | some p =>
        have hname : p.1 = o := by simpa only [beq_iff_eq] using List.find?_some hfound
        simp [hname, h]
    · have hlast : (option == o) = false := by simp [Ne.symm h]
      simp [List.find?_append, hlast]

/-- The section that answers to a name. -/
def findSection (l : List Section) (name : Str) : Option Section :=
  l.find? fun s => s.name == name

theorem findSection_setOption (l : List Section) (name : Str) (option : String) (value : Str) :
    findSection (setOption l name option value) name =
      (findSection l name).map fun s => s.set option value := by
  unfold findSection setOption
  rw [find_map _ _ (fun s => by split <;> simp)]
  cases hfound : l.find? fun s => s.name == name with
  | none => rfl
  | some s => simp only [Option.map_some, if_pos (List.find?_some hfound)]

theorem findSection_addSection (l : List Section) (name : Str) :
    ∃ s, findSection (addSection l name) name = some s := by
  unfold findSection addSection
  rw [← Option.isSome_iff_exists, List.find?_isSome]
  split
  · rename_i hany
    exact List.any_eq_true.mp hany
  · exact ⟨⟨name, []⟩, by simp⟩

end Sysmngr.Uci
