import Mathlib.Data.List.Count
import Mathlib.Tactic.Common

/-!
# File descriptors

The table of a process gives the file open under each descriptor. A new file takes the
lowest free descriptor, `dup2` a given one. A forked process starts with a copy, so what
its parent has open stays open until both have closed it.
-/

namespace Sysmngr.Descriptors

variable {F : Type}

abbrev Table (F : Type) := List (Option F)

def file (t : Table F) (fd : ℕ) : Option F := t.getD fd none

def install : Table F → ℕ → F → Table F
  | [], 0, f => [some f]
  | [], fd + 1, f => none :: install [] fd f
  | _ :: t, 0, f => some f :: t
  | o :: t, fd + 1, f => o :: install t fd f

def lowest : Table F → ℕ
  | [] => 0
  | none :: _ => 0
  | some _ :: t => lowest t + 1

def close (t : Table F) (fd : ℕ) : Table F := t.set fd none

def dup2 (t : Table F) (old new : ℕ) : Table F :=
  match file t old with
  | none => t
  | some f => install t new f

def openFile (t : Table F) (f : F) : Table F × ℕ := (install t (lowest t) f, lowest t)

/-- The read end is opened first. -/
def pipe (t : Table F) (readEnd writeEnd : F) : Table F × ℕ × ℕ :=
  let r := openFile t readEnd
  let w := openFile r.1 writeEnd
  (w.1, r.2, w.2)

def closeAll (p : F → Bool) (t : Table F) : Table F := t.map fun o => o.filter fun f => !p f

def Holds (t : Table F) (f : F) : Prop := ∃ fd, file t fd = some f

instance [DecidableEq F] (t : Table F) (f : F) : Decidable (Holds t f) :=
  decidable_of_iff (some f ∈ t) (by
    simp only [Holds, file, List.mem_iff_getElem?]
    refine exists_congr fun fd => ?_
    rw [List.getD_eq_getElem?_getD]
    cases t[fd]? with
    | none => simp
    | some o => simp)

/-- How many descriptors have a file that passes the test. -/
def openCount (p : F → Bool) (t : Table F) : ℕ := t.countP fun o => o.any p

/-! ### What is open under a descriptor -/

@[simp] theorem file_nil (fd : ℕ) : file ([] : Table F) fd = none := by
  simp [file]

@[simp] theorem file_cons_zero (o : Option F) (t : Table F) : file (o :: t) 0 = o := rfl

@[simp] theorem file_cons_succ (o : Option F) (t : Table F) (fd : ℕ) :
    file (o :: t) (fd + 1) = file t fd := rfl

theorem file_install (t : Table F) (fd : ℕ) (f : F) (i : ℕ) :
    file (install t fd f) i = if i = fd then some f else file t i := by
  induction fd generalizing t i with
  | zero =>
    cases t <;> cases i <;> simp [install]
  | succ fd ih =>
    cases t <;> cases i <;> simp [install, ih]

theorem file_close (t : Table F) (fd i : ℕ) :
    file (close t fd) i = if i = fd then none else file t i := by
  induction t generalizing fd i with
  | nil => simp [close]
  | cons o t ih =>
    cases fd <;> cases i <;> simp [close]
    exact ih _ _

theorem file_lowest (t : Table F) : file t (lowest t) = none := by
  induction t with
  | nil => rfl
  | cons o t ih =>
    cases o with
    | none => rfl
    | some f => exact ih

theorem file_dup2 (t : Table F) (old new : ℕ) (f : F) (h : file t old = some f) (i : ℕ) :
    file (dup2 t old new) i = if i = new then some f else file t i := by
  rw [dup2, h]
  exact file_install t new f i

theorem file_closeAll (p : F → Bool) (t : Table F) (fd : ℕ) :
    file (closeAll p t) fd = (file t fd).filter fun f => !p f := by
  induction t generalizing fd with
  | nil => simp [closeAll]
  | cons o t ih =>
    cases fd with
    | zero => rfl
    | succ fd => exact ih fd

/-! ### A pipe -/

theorem pipe_distinct (t : Table F) (r w : F) : (pipe t r w).2.1 ≠ (pipe t r w).2.2 := by
  intro heq
  have hfree := file_lowest (openFile t r).1
  have hread := file_install t (lowest t) r (lowest t)
  rw [if_pos rfl] at hread
  have hsame : lowest (openFile t r).1 = lowest t := heq.symm
  rw [hsame] at hfree
  exact absurd (hfree.symm.trans hread) (by simp)

theorem pipe_read_free (t : Table F) (r w : F) : file t (pipe t r w).2.1 = none := file_lowest t

theorem pipe_write_free (t : Table F) (r w : F) : file t (pipe t r w).2.2 = none := by
  have hfree := file_lowest (openFile t r).1
  rw [openFile, file_install] at hfree
  split at hfree
  · simp at hfree
  · exact hfree

theorem file_pipe (t : Table F) (r w : F) (fd : ℕ) :
    file (pipe t r w).1 fd =
      if fd = (pipe t r w).2.2 then some w
      else if fd = (pipe t r w).2.1 then some r
      else file t fd := by
  have hread := file_install t (lowest t) r fd
  have hwrite := file_install (openFile t r).1 (lowest (openFile t r).1) w fd
  exact hwrite.trans (by rw [openFile, hread]; rfl)

theorem file_pipe_eq_some (t : Table F) (r w : F) (fd : ℕ) (f : F) :
    file (pipe t r w).1 fd = some f ↔
      (fd = (pipe t r w).2.2 ∧ f = w) ∨ (fd = (pipe t r w).2.1 ∧ f = r) ∨ file t fd = some f := by
  have hread := pipe_read_free t r w
  have hwrite := pipe_write_free t r w
  have hne := pipe_distinct t r w
  rw [file_pipe]
  by_cases hw : fd = (pipe t r w).2.2
  · subst hw
    simp [hwrite, Ne.symm hne, eq_comm]
  · by_cases hr : fd = (pipe t r w).2.1
    · subst hr
      simp [hread, hne, eq_comm]
    · simp [hw, hr]

theorem file_close_eq_some (t : Table F) (fd i : ℕ) (f : F) :
    file (close t fd) i = some f ↔ i ≠ fd ∧ file t i = some f := by
  rw [file_close]
  split <;> simp_all

/-! ### Counting -/

theorem openCount_eq_zero (p : F → Bool) (t : Table F)
    (h : ∀ fd f, file t fd = some f → p f = false) : openCount p t = 0 := by
  refine List.countP_eq_zero.mpr fun o ho => ?_
  obtain ⟨fd, hfd⟩ := List.mem_iff_getElem?.mp ho
  have hfile : file t fd = o := by
    rw [file, List.getD_eq_getElem?_getD, hfd]
    rfl
  cases o with
  | none => exact Bool.false_ne_true
  | some f => simp [h fd f hfile]

theorem openCount_install (p : F → Bool) (t : Table F) (fd : ℕ) (f : F) (h : file t fd = none) :
    openCount p (install t fd f) = openCount p t + if p f then 1 else 0 := by
  induction fd generalizing t with
  | zero =>
    cases t with
    | nil => simp [install, openCount, List.countP_cons]
    | cons o t =>
      obtain rfl : o = none := h
      simp [install, openCount, List.countP_cons]
  | succ fd ih =>
    cases t with
    | nil =>
      have hrest := ih [] (file_nil fd)
      simpa [install, openCount, List.countP_cons] using hrest
    | cons o t =>
      have hrest := ih t h
      simp only [install, openCount, List.countP_cons] at hrest ⊢
      omega

theorem openCount_close (p : F → Bool) (t : Table F) (fd : ℕ) (f : F) (h : file t fd = some f) :
    openCount p (close t fd) + (if p f then 1 else 0) = openCount p t := by
  induction t generalizing fd with
  | nil => simp at h
  | cons o t ih =>
    cases fd with
    | zero =>
      obtain rfl : o = some f := h
      simp [close, openCount, List.countP_cons]
    | succ fd =>
      have hrest := ih fd h
      simp only [close, openCount, List.set_cons_succ, List.countP_cons] at hrest ⊢
      omega

theorem openCount_pipe (p : F → Bool) (t : Table F) (r w : F) :
    openCount p (pipe t r w).1 =
      openCount p t + (if p r then 1 else 0) + if p w then 1 else 0 := by
  have hread := openCount_install p t (lowest t) r (file_lowest t)
  have hwrite := openCount_install p (openFile t r).1 (lowest (openFile t r).1) w (file_lowest _)
  exact hwrite.trans (congrArg (· + _) hread)

end Sysmngr.Descriptors
