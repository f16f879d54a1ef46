import Mathlib.Data.List.Nodup
import Sysmngr.Descriptors
import Sysmngr.Machine

/-!
# The pipes of the tasks in flight (`fwbank.c`)

A task's pipe is made before the fork, so a child starts with the ends of every task that
is in flight; it closes its own pair and no other. The finish callback reads until no
process has the write end.
-/

namespace Sysmngr.Fwbank
open Descriptors Machine

/-! ### Processes and their files -/

/-- `loop` are the files of `uloop`; the pipe `popen` makes is no task's. -/
inductive OpenFile where
  | other (n : ℕ)
  | loop
  | readEnd (n : ℕ)
  | writeEnd (n : ℕ)
  deriving DecidableEq, Repr

def OpenFile.isEnd : OpenFile → Bool
  | .readEnd _ | .writeEnd _ => true
  | .other _ | .loop => false

/-- A task's process, and the shell it starts with all that runs under it. -/
inductive Role where
  | child
  | script
  deriving DecidableEq, Repr

structure TaskProcess where
  task : ℕ
  role : Role
  table : Table OpenFile
  deriving DecidableEq, Repr

/-- The pipe of a `sysmngr_task_data_t`; tasks are told apart by it, numbered in the order
of their forks. -/
structure ForkedTask where
  pipe : ℕ
  pipeFds : ℕ × ℕ
  deriving DecidableEq, Repr

/-- The daemon's descriptors, the tasks whose process callback is registered, the one whose
finish callback is in its read loop, and the records that were freed with their pipe open. -/
structure OpenPipes where
  table : Table OpenFile
  tasks : List ForkedTask
  reading : Option ForkedTask
  lost : List ForkedTask
  procs : List TaskProcess
  pipes : ℕ

def OpenPipes.start (table : Table OpenFile) : OpenPipes := ⟨table, [], none, [], [], 0⟩

inductive PipeEvent where
  | taskFork (pipeOk forkOk : Bool)
  | popen (task : ℕ)
  | exit (task : ℕ) (role : Role)
  | timeout (task : ℕ)
  | finish (task : ℕ)
  | endOfFile
  | readError
  deriving DecidableEq, Repr

/-! ### What each does to the descriptors -/

def uloopDone (t : Table OpenFile) : Table OpenFile := closeAll (· == .loop) t

/-- The child up to `popen`: `stdin` and `stderr` are closed, the write end becomes
`stdout` and the pair is closed. -/
def taskCallbackTable (t : Table OpenFile) (pipeFds : ℕ × ℕ) : Table OpenFile :=
  let t := close (close (uloopDone t) 0) 2
  close (close (dup2 t pipeFds.2 1) pipeFds.1) pipeFds.2

/-- A failed fork frees the record and leaves the pipe open. -/
def sysmngrTaskForkPipes (s : OpenPipes) (pipeOk forkOk : Bool) : OpenPipes :=
  if pipeOk then
    let r := pipe s.table (.readEnd s.pipes) (.writeEnd s.pipes)
    let task : ForkedTask := ⟨s.pipes, r.2⟩
    if forkOk then
      { s with
        table := r.1
        tasks := task :: s.tasks
        procs := ⟨s.pipes, .child, taskCallbackTable r.1 r.2⟩ :: s.procs
        pipes := s.pipes + 1 }
    else { s with table := r.1, lost := task :: s.lost, pipes := s.pipes + 1 }
  else s

def OpenPipes.ends (s : OpenPipes) (task : ℕ) (role : Role) : OpenPipes :=
  { s with procs := s.procs.filter fun p => !(p.task == task && p.role == role) }

def OpenPipes.process (s : OpenPipes) (task : ℕ) (role : Role) : Option TaskProcess :=
  s.procs.find? fun p => p.task == task && p.role == role

/-- The read loop is over, at the end of the output or by an error. -/
def OpenPipes.read (s : OpenPipes) : OpenPipes :=
  match s.reading with
  | none => s
  | some t => { s with table := close s.table t.pipeFds.1, reading := none }

def pipeStep (s : OpenPipes) : PipeEvent → OpenPipes × Unit
  | .taskFork pipeOk forkOk => (sysmngrTaskForkPipes s pipeOk forkOk, ())
  | .popen task =>
    match s.process task .child with
    | none => (s, ())
    | some p => ({ s with procs := ⟨task, .script, install p.table 1 (.other 0)⟩ :: s.procs }, ())
  | .exit task role => (s.ends task role, ())
  | .timeout task => (s.ends task .child, ())
  | .finish task =>
    match s.tasks.find? fun t => t.pipe == task with
    | none => (s, ())
    | some t =>
      ({ s with
          table := close s.table t.pipeFds.2
          tasks := s.tasks.erase t
          reading := some t }, ())
  | .endOfFile => (s.read, ())
  | .readError => (s.read, ())

/-- `read()` returns 0 once no process has the write end. -/
def EndOfFile (s : OpenPipes) (t : ForkedTask) : Prop :=
  ¬Holds s.table (.writeEnd t.pipe) ∧ ∀ p ∈ s.procs, ¬Holds p.table (.writeEnd t.pipe)

/-- While a callback waits in `read()` the daemon forks nothing, kills nothing and runs no
other callback. -/
def PipeEvent.Possible (s : OpenPipes) : PipeEvent → Prop
  | .taskFork _ _ => s.reading = none
  | .popen task => (s.process task .child).isSome ∧ (s.process task .script).isNone
  | .exit task role => (s.process task role).isSome
  | .timeout task => s.reading = none ∧ (s.process task .child).isSome
  | .finish task =>
    s.reading = none ∧ (∃ t ∈ s.tasks, t.pipe = task) ∧ (s.process task .child).isNone
  | .endOfFile => ∃ t ∈ s.reading, EndOfFile s t
  | .readError => s.reading.isSome

instance (s : OpenPipes) (t : ForkedTask) : Decidable (EndOfFile s t) :=
  inferInstanceAs (Decidable (¬Holds s.table (.writeEnd t.pipe) ∧
    ∀ p ∈ s.procs, ¬Holds p.table (.writeEnd t.pipe)))

instance (s : OpenPipes) : ∀ e : PipeEvent, Decidable (e.Possible s)
  | .taskFork _ _ => inferInstanceAs (Decidable (s.reading = none))
  | .popen task => inferInstanceAs (Decidable
      ((s.process task .child).isSome = true ∧ (s.process task .script).isNone = true))
  | .exit task role => inferInstanceAs (Decidable ((s.process task role).isSome = true))
  | .timeout task => inferInstanceAs (Decidable
      (s.reading = none ∧ (s.process task .child).isSome = true))
  | .finish task => inferInstanceAs (Decidable (s.reading = none ∧
      (∃ t ∈ s.tasks, t.pipe = task) ∧ (s.process task .child).isNone = true))
  | .endOfFile => inferInstanceAs (Decidable (∃ t ∈ s.reading, EndOfFile s t))
  | .readError => inferInstanceAs (Decidable (s.reading.isSome = true))

/-- What the daemon itself does, rather than one of the processes. -/
def PipeEvent.ofDaemon : PipeEvent → Bool
  | .popen _ | .exit _ _ => false
  | .taskFork _ _ | .timeout _ | .finish _ | .endOfFile | .readError => true

def PipeEvent.failedFork : PipeEvent → Bool
  | .taskFork pipeOk forkOk => pipeOk && !forkOk
  | _ => false

/-- `procd` starts the daemon with its three standard descriptors. -/
structure Started (table : Table OpenFile) : Prop where
  std : ∀ fd < 3, ∃ n, file table fd = some (.other n)
  noEnd : ∀ fd f, file table fd = some f → f.isEnd = false

def OpenPipes.writers (s : OpenPipes) : List ForkedTask := s.tasks ++ s.lost

def OpenPipes.readers (s : OpenPipes) : List ForkedTask := s.reading.toList ++ s.writers

/-- The process has the write end of that pipe: of its own as its `stdout`, of an older
one from its parent. -/
def Inherits (p : TaskProcess) (n : ℕ) : Prop := (p.task = n ∧ p.role = .child) ∨ n < p.task

/-! ### A child's descriptors -/

theorem file_taskCallbackTable (t : Table OpenFile) (r w : ℕ) (n : ℕ)
    (hw : file t w = some (.writeEnd n)) (hr3 : 3 ≤ r) (hw3 : 3 ≤ w) (fd : ℕ) (m : ℕ) :
    file (taskCallbackTable t (r, w)) fd = some (.writeEnd m) ↔
      (fd = 1 ∧ m = n) ∨ (3 ≤ fd ∧ fd ≠ r ∧ fd ≠ w ∧ file t fd = some (.writeEnd m)) := by
  let u := close (close (uloopDone t) 0) 2
  have hu : ∀ i, file u i = if i = 2 then none else if i = 0 then none else
      (file t i).filter fun f => !(f == .loop) := by
    intro i
    rw [file_close, file_close, uloopDone, file_closeAll]
  have hopen : file u w = some (.writeEnd n) := by
    rw [hu, if_neg (by omega), if_neg (by omega), hw]
    rfl
  have hfile : file (taskCallbackTable t (r, w)) fd = if fd = w then none else
      if fd = r then none else if fd = 1 then some (.writeEnd n) else file u fd := by
    rw [taskCallbackTable, file_close, file_close, file_dup2 u w 1 _ hopen]
  have hkept : file u fd = some (.writeEnd m) ↔
      fd ≠ 0 ∧ fd ≠ 2 ∧ file t fd = some (.writeEnd m) := by
    rw [hu]
    split
    · simp_all
    · split
      · simp_all
      · rw [Option.filter_eq_some_iff]
        simp_all
  rw [hfile]
  by_cases h1 : fd = 1
  · subst h1
    rw [if_neg (by omega), if_neg (by omega), if_pos rfl]
    simp [eq_comm]
  · rw [if_neg h1]
    split
    · simp_all
    · split
      · simp_all
      · rw [hkept]
        constructor
        · rintro ⟨h0, h2, hf⟩
          exact Or.inr ⟨by omega, ‹_›, ‹_›, hf⟩
        · rintro (⟨hf, _⟩ | ⟨h3, _, _, hf⟩)
          · exact absurd hf h1
          · exact ⟨by omega, by omega, hf⟩

/-! ### The daemon's descriptors -/

/-- The ends open in the daemon are those of its tasks, each under the record's descriptor. -/
structure DaemonEnds (s : OpenPipes) : Prop where
  std : ∀ fd < 3, ∃ n, file s.table fd = some (.other n)
  readEnds : ∀ fd n, file s.table fd = some (.readEnd n) ↔
    ∃ t ∈ s.readers, t.pipe = n ∧ t.pipeFds.1 = fd
  writeEnds : ∀ fd n, file s.table fd = some (.writeEnd n) ↔
    ∃ t ∈ s.writers, t.pipe = n ∧ t.pipeFds.2 = fd
  distinct : (s.readers.map ForkedTask.pipe).Nodup
  below : ∀ t ∈ s.readers, t.pipe < s.pipes
  counted : openCount OpenFile.isEnd s.table = 2 * s.writers.length + s.reading.toList.length

theorem DaemonEnds.high {s : OpenPipes} (hs : DaemonEnds s) {fd : ℕ} {f : OpenFile}
    (hf : file s.table fd = some f) (hend : f.isEnd = true) : 3 ≤ fd := by
  by_contra hlow
  obtain ⟨n, hn⟩ := hs.std fd (Nat.lt_of_not_le hlow)
  rw [← Option.some.inj (hn.symm.trans hf)] at hend
  exact Bool.false_ne_true hend

theorem DaemonEnds.free_high {s : OpenPipes} (hs : DaemonEnds s) {fd : ℕ}
    (hf : file s.table fd = none) : 3 ≤ fd := by
  by_contra hlow
  obtain ⟨n, hn⟩ := hs.std fd (Nat.lt_of_not_le hlow)
  exact absurd (hn.symm.trans hf) (by simp)

theorem daemonEnds_start (table : Table OpenFile) (h : Started table) :
    DaemonEnds (.start table) := by
  refine ⟨h.std, fun fd n => ?_, fun fd n => ?_, List.nodup_nil, fun t ht => ?_, ?_⟩
  · refine iff_of_false (fun hf => Bool.noConfusion (show true = false from h.noEnd fd _ hf)) ?_
    rintro ⟨t, ht, _⟩
    exact absurd ht (List.not_mem_nil)
  · refine iff_of_false (fun hf => Bool.noConfusion (show true = false from h.noEnd fd _ hf)) ?_
    rintro ⟨t, ht, _⟩
    exact absurd ht (List.not_mem_nil)
  · exact absurd ht (List.not_mem_nil)
  · exact openCount_eq_zero _ table h.noEnd

/-- A new pipe, kept by a task in flight or lost with its record. -/
theorem daemonEnds_pipe {s s' : OpenPipes} (hs : DaemonEnds s) (hr : s.reading = none)
    (htable : s'.table = (pipe s.table (.readEnd s.pipes) (.writeEnd s.pipes)).1)
    (hreading : s'.reading = none) (hpipes : s'.pipes = s.pipes + 1)
    (hwriters : s'.writers.Perm
      (⟨s.pipes, (pipe s.table (.readEnd s.pipes) (.writeEnd s.pipes)).2⟩ :: s.writers)) :
    DaemonEnds s' := by
  have hreaders : s.readers = s.writers := by
    rw [OpenPipes.readers, hr]
    rfl
  have hreaders' : s'.readers = s'.writers := by
    rw [OpenPipes.readers, hreading]
    rfl
  have hrfree := pipe_read_free s.table (.readEnd s.pipes) (.writeEnd s.pipes)
  have hwfree := pipe_write_free s.table (.readEnd s.pipes) (.writeEnd s.pipes)
  have hne := pipe_distinct s.table (.readEnd s.pipes) (.writeEnd s.pipes)
  have hfile := file_pipe_eq_some s.table (.readEnd s.pipes) (.writeEnd s.pipes)
  have hcount := openCount_pipe OpenFile.isEnd s.table (.readEnd s.pipes) (.writeEnd s.pipes)
  generalize hp : pipe s.table (.readEnd s.pipes) (.writeEnd s.pipes) = r at *
  obtain ⟨table, rfd, wfd⟩ := r
  simp only at hrfree hwfree hne hfile hcount htable hwriters
  have hmem : ∀ t, t ∈ s'.writers ↔ t = ⟨s.pipes, rfd, wfd⟩ ∨ t ∈ s.writers := fun t => by
    rw [hwriters.mem_iff, List.mem_cons]
  refine ⟨fun fd hfd => ?_, fun fd n => ?_, fun fd n => ?_, ?_, fun t ht => ?_, ?_⟩
  · obtain ⟨n, hn⟩ := hs.std fd hfd
    have hw := hs.free_high hwfree
    have hr := hs.free_high hrfree
    exact ⟨n, by rw [htable, hfile]; exact Or.inr (Or.inr hn)⟩
  · have hold := hs.readEnds fd n
    rw [hreaders] at hold
    rw [htable, hfile, hreaders', hold]
    simp only [hmem, exists_eq_or_imp]
    simp [eq_comm, and_comm]
  · have hold := hs.writeEnds fd n
    rw [htable, hfile, hold]
    simp only [hmem, exists_eq_or_imp]
    simp [eq_comm, and_comm]
  · rw [hreaders', (hwriters.map ForkedTask.pipe).nodup_iff, List.map_cons, List.nodup_cons]
    refine ⟨fun hm => ?_, hreaders ▸ hs.distinct⟩
    obtain ⟨t, ht, hpipe⟩ := List.mem_map.mp hm
    exact absurd hpipe (Nat.ne_of_lt (hs.below t (hreaders ▸ ht)))
  · rw [hreaders', hmem] at ht
    rw [hpipes]
    rcases ht with rfl | ht
    · exact Nat.lt_succ_self _
    · exact Nat.lt_succ_of_lt (hs.below t (hreaders ▸ ht))
  · have hold := hs.counted
    rw [hr] at hold
    rw [htable, hcount, hold, hreading, hwriters.length_eq]
    simp [OpenFile.isEnd]
    omega

/-- Closing the write end of a task that starts to be read. -/
theorem daemonEnds_finish {s : OpenPipes} (hs : DaemonEnds s) (hr : s.reading = none)
    (t : ForkedTask) (ht : t ∈ s.tasks) :
    DaemonEnds { s with
      table := close s.table t.pipeFds.2, tasks := s.tasks.erase t, reading := some t } := by
  have hreaders : s.readers = s.writers := by
    rw [OpenPipes.readers, hr]
    rfl
  have hwriter : t ∈ s.writers := List.mem_append_left _ ht
  have hopen : file s.table t.pipeFds.2 = some (.writeEnd t.pipe) :=
    (hs.writeEnds _ _).mpr ⟨t, hwriter, rfl, rfl⟩
  have hperm : (t :: (s.tasks.erase t ++ s.lost)).Perm s.writers :=
    (List.perm_cons_erase ht).symm.append_right s.lost
  have hlength := hperm.length_eq
  have hdistinct := hs.distinct
  rw [hreaders, ← (hperm.map ForkedTask.pipe).nodup_iff, List.map_cons,
    List.nodup_cons] at hdistinct
  have hother : ∀ u ∈ s.tasks.erase t ++ s.lost, u.pipe ≠ t.pipe := fun u hu heq =>
    hdistinct.1 (heq ▸ List.mem_map_of_mem hu)
  have hmem : ∀ u, u ∈ s.writers ↔ u = t ∨ u ∈ s.tasks.erase t ++ s.lost := fun u => by
    rw [← hperm.mem_iff, List.mem_cons]
  refine ⟨fun fd hfd => ?_, fun fd n => ?_, fun fd n => ?_, ?_, fun u hu => ?_, ?_⟩
  · obtain ⟨n, hn⟩ := hs.std fd hfd
    have hhigh := hs.high hopen rfl
    exact ⟨n, (file_close_eq_some ..).mpr ⟨by omega, hn⟩⟩
  · have hold := hs.readEnds fd n
    simp only [hreaders, hmem] at hold
    rw [file_close_eq_some, hold]
    simp only [OpenPipes.readers, OpenPipes.writers, Option.toList_some, List.singleton_append,
      List.mem_cons]
    refine and_iff_right_of_imp ?_
    rintro hex rfl
    have hclash := hold.mpr hex
    rw [hopen] at hclash
    simp at hclash
  · have hold := hs.writeEnds fd n
    simp only [hmem] at hold
    rw [file_close_eq_some, hold]
    constructor
    · rintro ⟨hne, u, rfl | hu, hn, hfd⟩
      · exact absurd hfd.symm hne
      · exact ⟨u, hu, hn, hfd⟩
    · rintro ⟨u, hu, hn, hfd⟩
      refine ⟨fun heq => hother u hu ?_, u, Or.inr hu, hn, hfd⟩
      have hsame := hold.mpr ⟨u, Or.inr hu, hn, hfd⟩
      rw [heq, hopen] at hsame
      rw [hn]
      simpa [eq_comm] using hsame
  · simp only [OpenPipes.readers, OpenPipes.writers, Option.toList_some, List.singleton_append,
      List.map_cons]
    exact List.nodup_cons.mpr hdistinct
  · refine hs.below u ?_
    rw [hreaders, hmem]
    exact List.mem_cons.mp hu
  · have hclosed := openCount_close OpenFile.isEnd s.table _ _ hopen
    have hold := hs.counted
    rw [hr] at hold
    simp only [OpenPipes.writers, Option.toList_some, Option.toList_none, List.length_cons,
      List.length_nil] at hclosed hold hlength ⊢
    simp only [OpenFile.isEnd, if_true] at hclosed
    omega

theorem read_some {s : OpenPipes} {t : ForkedTask} (hr : s.reading = some t) :
    s.read = { s with table := close s.table t.pipeFds.1, reading := none } := by
  rw [OpenPipes.read, hr]

theorem read_none {s : OpenPipes} (hr : s.reading = none) : s.read = s := by
  rw [OpenPipes.read, hr]

theorem daemonEnds_read {s : OpenPipes} (hs : DaemonEnds s) : DaemonEnds s.read := by
  cases hr : s.reading with
  | none => exact (read_none hr).symm ▸ hs
  | some t =>
    rw [read_some hr]
    have hreaders : s.readers = t :: s.writers := by
      rw [OpenPipes.readers, hr]
      rfl
    have hopen : file s.table t.pipeFds.1 = some (.readEnd t.pipe) :=
      (hs.readEnds _ _).mpr ⟨t, hreaders ▸ List.mem_cons_self, rfl, rfl⟩
    have hdistinct := hs.distinct
    rw [hreaders, List.map_cons, List.nodup_cons] at hdistinct
    refine ⟨fun fd hfd => ?_, fun fd n => ?_, fun fd n => ?_, hdistinct.2, fun u hu => ?_, ?_⟩
    · obtain ⟨n, hn⟩ := hs.std fd hfd
      have hhigh := hs.high hopen rfl
      exact ⟨n, (file_close_eq_some ..).mpr ⟨by omega, hn⟩⟩
    · have hold := hs.readEnds fd n
      simp only [hreaders, List.mem_cons] at hold
      rw [file_close_eq_some, hold]
      constructor
      · rintro ⟨hne, u, rfl | hu, hn, hfd⟩
        · exact absurd hfd.symm hne
        · exact ⟨u, hu, hn, hfd⟩
      · rintro ⟨u, hu, hn, hfd⟩
        refine ⟨fun heq => hdistinct.1 (List.mem_map.mpr ⟨u, hu, ?_⟩), u, Or.inr hu, hn, hfd⟩
        have hsame := hold.mpr ⟨u, Or.inr hu, hn, hfd⟩
        rw [heq, hopen] at hsame
        rw [hn]
        simpa [eq_comm] using hsame
    · rw [file_close_eq_some, hs.writeEnds]
      refine and_iff_right_of_imp ?_
      rintro hex rfl
      have hclash := (hs.writeEnds _ n).mpr hex
      rw [hopen] at hclash
      simp at hclash
    · exact hs.below u (hreaders ▸ List.mem_cons_of_mem _ hu)
    · have hclosed := openCount_close OpenFile.isEnd s.table _ _ hopen
      have hold := hs.counted
      rw [hr] at hold
      simp only [OpenFile.isEnd, if_true, Option.toList_some, List.length_singleton] at hclosed hold
      simp only [OpenPipes.writers, Option.toList_none, List.length_nil] at hold ⊢
      omega

theorem daemonEnds_procs {s : OpenPipes} (hs : DaemonEnds s) (procs : List TaskProcess) :
    DaemonEnds { s with procs := procs } :=
  ⟨hs.std, hs.readEnds, hs.writeEnds, hs.distinct, hs.below, hs.counted⟩

theorem daemonEnds_step {s : OpenPipes} (hs : DaemonEnds s) (e : PipeEvent) (he : e.Possible s) :
    DaemonEnds (pipeStep s e).1 := by
  cases e with
  | taskFork pipeOk forkOk =>
    cases pipeOk with
    | false => exact hs
    | true =>
      cases forkOk with
      | true => exact daemonEnds_pipe hs he rfl he rfl (List.Perm.refl _)
      | false => exact daemonEnds_pipe hs he rfl he rfl List.perm_middle
  | popen task =>
    rw [pipeStep]
    split
    · exact hs
    · exact daemonEnds_procs hs _
  | exit task role => exact daemonEnds_procs hs _
  | timeout task => exact daemonEnds_procs hs _
  | finish task =>
    rw [pipeStep]
    split
    · exact hs
    · rename_i t ht
      exact daemonEnds_finish hs he.1 t (List.mem_of_find?_eq_some ht)
  | endOfFile => exact daemonEnds_read hs
  | readError => exact daemonEnds_read hs

/-! ### The descriptors of the processes -/

/-- A process has the write ends it inherits, of the pipes the daemon has open and of
those it will make. -/
structure ProcessEnds (s : OpenPipes) : Prop where
  numbered : ∀ p ∈ s.procs, p.task < s.pipes
  own : ∀ p ∈ s.procs, p.role = .child → ∀ fd,
    file p.table fd = some (.writeEnd p.task) ↔ fd = 1
  held : ∀ p ∈ s.procs, ∀ n, (∃ t ∈ s.readers, t.pipe = n) ∨ s.pipes ≤ n →
    (Holds p.table (.writeEnd n) ↔ Inherits p n)
  reaped : ∀ t ∈ s.reading, ∀ p ∈ s.procs, ¬(p.task = t.pipe ∧ p.role = .child)

theorem processEnds_start (table : Table OpenFile) : ProcessEnds (.start table) :=
  ⟨fun _ hp => absurd hp List.not_mem_nil, fun _ hp => absurd hp List.not_mem_nil,
    fun _ hp => absurd hp List.not_mem_nil, fun _ ht => absurd ht (by simp [OpenPipes.start])⟩

/-- The ends of a child: its own, and those its parent had open. -/
theorem child_ends {s : OpenPipes} (hs : DaemonEnds s) (fd m : ℕ) :
    file (taskCallbackTable (pipe s.table (.readEnd s.pipes) (.writeEnd s.pipes)).1
        (pipe s.table (.readEnd s.pipes) (.writeEnd s.pipes)).2) fd = some (.writeEnd m) ↔
      (fd = 1 ∧ m = s.pipes) ∨ file s.table fd = some (.writeEnd m) := by
  have hr := hs.free_high (pipe_read_free s.table (.readEnd s.pipes) (.writeEnd s.pipes))
  have hw := hs.free_high (pipe_write_free s.table (.readEnd s.pipes) (.writeEnd s.pipes))
  have hrfree := pipe_read_free s.table (.readEnd s.pipes) (.writeEnd s.pipes)
  have hwfree := pipe_write_free s.table (.readEnd s.pipes) (.writeEnd s.pipes)
  have hfile := file_pipe_eq_some s.table (.readEnd s.pipes) (.writeEnd s.pipes)
  generalize pipe s.table (.readEnd s.pipes) (.writeEnd s.pipes) = r at *
  obtain ⟨table, rfd, wfd⟩ := r
  have hopen : file table wfd = some (.writeEnd s.pipes) :=
    (hfile wfd _).mpr (Or.inl ⟨rfl, rfl⟩)
  rw [file_taskCallbackTable table rfd wfd s.pipes hopen hr hw, hfile]
  refine or_congr_right ⟨?_, fun hold => ?_⟩
  · rintro ⟨_, hfr, hfw, ⟨heq, _⟩ | ⟨heq, _⟩ | hold⟩
    · exact absurd heq hfw
    · exact absurd heq hfr
    · exact hold
  · refine ⟨hs.high hold rfl, ?_, ?_, Or.inr (Or.inr hold)⟩
    · rintro rfl
      exact absurd (hrfree.symm.trans hold) (by simp)
    · rintro rfl
      exact absurd (hwfree.symm.trans hold) (by simp)

theorem processEnds_fork {s : OpenPipes} (hd : DaemonEnds s) (hs : ProcessEnds s)
    (hr : s.reading = none) (forkOk : Bool) :
    ProcessEnds (sysmngrTaskForkPipes s true forkOk) := by
  have hreaders : s.readers = s.writers := by
    rw [OpenPipes.readers, hr]
    rfl
  have hnew : ∀ s' : OpenPipes, (∀ t, t ∈ s'.readers → t.pipe = s.pipes ∨ t ∈ s.readers) →
      s'.pipes = s.pipes + 1 → ∀ n, (∃ t ∈ s'.readers, t.pipe = n) ∨ s'.pipes ≤ n →
      n = s.pipes ∨ (∃ t ∈ s.readers, t.pipe = n) ∨ s.pipes ≤ n := by
    rintro s' hmem hpipes n (⟨t, ht, rfl⟩ | hle)
    · exact (hmem t ht).imp_right fun h => Or.inl ⟨t, h, rfl⟩
    · exact Or.inr (Or.inr (by omega))
  have hold : ∀ p ∈ s.procs, ∀ n, n = s.pipes ∨ (∃ t ∈ s.readers, t.pipe = n) ∨ s.pipes ≤ n →
      (Holds p.table (.writeEnd n) ↔ Inherits p n) := by
    rintro p hp n (rfl | h)
    · exact hs.held p hp _ (Or.inr (Nat.le_refl _))
    · exact hs.held p hp n h
  cases forkOk with
  | false =>
    refine ⟨fun p hp => Nat.lt_succ_of_lt (hs.numbered p hp), hs.own,
      fun p hp n hn => hold p hp n (hnew _ (fun t ht => ?_) rfl n hn), ?_⟩
    · simp only [sysmngrTaskForkPipes, OpenPipes.readers, OpenPipes.writers, hr, if_true,
        Bool.false_eq_true, if_false, Option.toList_none, List.nil_append, List.mem_append,
        List.mem_cons] at ht ⊢
      rcases ht with ht | rfl | ht
      · exact Or.inr (Or.inl ht)
      · exact Or.inl rfl
      · exact Or.inr (Or.inr ht)
    · intro t ht
      exact absurd (show t ∈ s.reading from ht) (by simp [hr])
  | true =>
    have hchild := child_ends hd
    refine ⟨fun p hp => ?_, fun p hp => ?_, fun p hp n hn => ?_, fun t ht => ?_⟩
    · rcases List.mem_cons.mp hp with rfl | hp
      · exact Nat.lt_succ_self _
      · exact Nat.lt_succ_of_lt (hs.numbered p hp)
    · rcases List.mem_cons.mp hp with rfl | hp
      · intro _ fd
        refine (hchild fd s.pipes).trans ⟨?_, fun h => Or.inl ⟨h, rfl⟩⟩
        rintro (⟨h, _⟩ | h)
        · exact h
        · obtain ⟨t, ht, hpipe, _⟩ := (hd.writeEnds fd _).mp h
          have hlt := hd.below t (hreaders ▸ ht)
          omega
      · exact hs.own p hp
    · have hn' := hnew _ (fun t ht => by
        simp only [sysmngrTaskForkPipes, OpenPipes.readers, OpenPipes.writers, hr, if_true,
          Option.toList_none, List.nil_append, List.mem_append, List.mem_cons] at ht ⊢
        rcases ht with (rfl | ht) | ht
        · exact Or.inl rfl
        · exact Or.inr (Or.inl ht)
        · exact Or.inr (Or.inr ht)) rfl n hn
      rcases List.mem_cons.mp hp with rfl | hp
      · have hholds : Holds s.table (.writeEnd n) ↔ ∃ t ∈ s.readers, t.pipe = n := by
          simp only [Holds, hd.writeEnds, hreaders]
          constructor
          · rintro ⟨fd, t, ht, h, _⟩
            exact ⟨t, ht, h⟩
          · rintro ⟨t, ht, h⟩
            exact ⟨_, t, ht, h, rfl⟩
        simp only [Holds, hchild, exists_or, Inherits, and_true, exists_eq_left] at hholds ⊢
        rw [hholds, eq_comm]
        refine or_congr_right ⟨?_, fun hlt => ?_⟩
        · rintro ⟨t, ht, rfl⟩
          exact hd.below t ht
        · rcases hn' with rfl | h | hle
          · exact absurd hlt (Nat.lt_irrefl _)
          · exact h
          · exact absurd hlt (Nat.not_lt.mpr hle)
      · exact hold p hp n hn'
    · exact absurd (show t ∈ s.reading from ht) (by simp [hr])

theorem process_some {s : OpenPipes} {task : ℕ} {role : Role} {p : TaskProcess}
    (h : s.process task role = some p) : p ∈ s.procs ∧ p.task = task ∧ p.role = role := by
  refine ⟨List.mem_of_find?_eq_some h, ?_⟩
  simpa using List.find?_some h

theorem process_none_iff (s : OpenPipes) (task : ℕ) (role : Role) :
    s.process task role = none ↔ ∀ p ∈ s.procs, ¬(p.task = task ∧ p.role = role) := by
  simp [OpenPipes.process]

theorem mem_ends (s : OpenPipes) (task : ℕ) (role : Role) (p : TaskProcess) :
    p ∈ (s.ends task role).procs ↔ p ∈ s.procs ∧ ¬(p.task = task ∧ p.role = role) := by
  simp [OpenPipes.ends, imp_iff_not_or]

/-- The shell has what the child has, but for the child's `stdout`. -/
theorem processEnds_popen {s : OpenPipes} (hs : ProcessEnds s) (p : TaskProcess)
    (hp : p ∈ s.procs) (hrole : p.role = .child) :
    ProcessEnds { s with
      procs := ⟨p.task, .script, install p.table 1 (.other 0)⟩ :: s.procs } := by
  have hmem : ∀ q, q ∈ (⟨p.task, .script, install p.table 1 (.other 0)⟩ :: s.procs) ↔
      q = ⟨p.task, .script, install p.table 1 (.other 0)⟩ ∨ q ∈ s.procs := fun q => List.mem_cons
  refine ⟨fun q hq => ?_, fun q hq => ?_, fun q hq n hn => ?_, fun t ht q hq => ?_⟩ <;>
    rcases (hmem q).mp hq with rfl | hq
  · exact hs.numbered p hp
  · exact hs.numbered q hq
  · intro hscript
    cases hscript
  · exact hs.own q hq
  · have hown := hs.own p hp hrole
    have hheld := hs.held p hp n hn
    have hstdout := (hown 1).mpr rfl
    simp only [Holds, file_install, Inherits, hrole, and_true, and_false, false_or,
      reduceCtorEq] at hheld ⊢
    constructor
    · rintro ⟨fd, hfd⟩
      split at hfd
      · simp at hfd
      · rename_i hne
        rcases hheld.mp ⟨fd, hfd⟩ with rfl | hlt
        · exact absurd ((hown fd).mp hfd) hne
        · exact hlt
    · intro hlt
      obtain ⟨fd, hfd⟩ := hheld.mpr (Or.inr hlt)
      refine ⟨fd, ?_⟩
      rw [if_neg, hfd]
      rintro rfl
      rw [hstdout] at hfd
      simp only [Option.some.injEq, OpenFile.writeEnd.injEq] at hfd
      omega
  · exact hs.held q hq n hn
  · simp
  · exact hs.reaped t ht q hq

theorem processEnds_ends {s : OpenPipes} (hs : ProcessEnds s) (task : ℕ) (role : Role) :
    ProcessEnds (s.ends task role) := by
  have hmem : ∀ p ∈ (s.ends task role).procs, p ∈ s.procs := fun p hp =>
    ((mem_ends s task role p).mp hp).1
  exact ⟨fun p hp => hs.numbered p (hmem p hp), fun p hp => hs.own p (hmem p hp),
    fun p hp => hs.held p (hmem p hp), fun t ht p hp => hs.reaped t ht p (hmem p hp)⟩

theorem processEnds_read {s : OpenPipes} (hs : ProcessEnds s) : ProcessEnds s.read := by
  cases hr : s.reading with
  | none => exact (read_none hr).symm ▸ hs
  | some t =>
    rw [read_some hr]
    refine ⟨hs.numbered, hs.own, fun p hp n hn => hs.held p hp n (hn.imp_left ?_), ?_⟩
    · rintro ⟨u, hu, rfl⟩
      exact ⟨u, List.mem_append_right _ hu, rfl⟩
    · rintro u hu
      exact absurd hu (by simp)

theorem processEnds_step {s : OpenPipes} (hd : DaemonEnds s) (hs : ProcessEnds s) (e : PipeEvent)
    (he : e.Possible s) : ProcessEnds (pipeStep s e).1 := by
  cases e with
  | taskFork pipeOk forkOk =>
    cases pipeOk with
    | false => exact hs
    | true => exact processEnds_fork hd hs he forkOk
  | popen task =>
    rw [pipeStep]
    split
    · exact hs
    · rename_i p hp
      obtain ⟨hmem, rfl, hrole⟩ := process_some hp
      exact processEnds_popen hs p hmem hrole
  | exit task role => exact processEnds_ends hs task role
  | timeout task => exact processEnds_ends hs task .child
  | finish task =>
    rw [pipeStep]
    split
    · exact hs
    · rename_i t ht
      have hmem := List.mem_of_find?_eq_some ht
      have htask : t.pipe = task := by simpa using List.find?_some ht
      refine ⟨hs.numbered, hs.own, fun p hp n hn => hs.held p hp n (hn.imp_left ?_), ?_⟩
      · rintro ⟨u, hu, rfl⟩
        simp only [OpenPipes.readers, OpenPipes.writers, Option.toList_some, List.mem_append,
          List.mem_cons, List.not_mem_nil, or_false] at hu ⊢
        rcases hu with rfl | hu | hu
        · exact ⟨u, Or.inr (Or.inl hmem), rfl⟩
        · exact ⟨u, Or.inr (Or.inl (List.mem_of_mem_erase hu)), rfl⟩
        · exact ⟨u, Or.inr (Or.inr hu), rfl⟩
      · rintro u hu
        obtain rfl := Option.mem_some_iff.mp hu
        rw [htask]
        exact (process_none_iff s task .child).mp (Option.isNone_iff_eq_none.mp he.2.2)
  | endOfFile => exact processEnds_read hs
  | readError => exact processEnds_read hs

/-! ### Runs -/

theorem ends_invariant (table : Table OpenFile) (h : Started table) (es : List PipeEvent)
    (hes : Along pipeStep (fun s e => e.Possible s) (.start table) es) :
    DaemonEnds (run pipeStep (.start table) es).1 ∧
      ProcessEnds (run pipeStep (.start table) es).1 :=
  run_invariant pipeStep _ (fun s => DaemonEnds s ∧ ProcessEnds s)
    (fun _ e hs he => ⟨daemonEnds_step hs.1 e he, processEnds_step hs.1 hs.2 e he⟩) _ es
    ⟨daemonEnds_start table h, processEnds_start table⟩ hes

theorem lost_read (s : OpenPipes) : s.read.lost.length = s.lost.length := by
  rw [OpenPipes.read]
  split <;> rfl

theorem lost_step (s : OpenPipes) (e : PipeEvent) :
    (pipeStep s e).1.lost.length = s.lost.length + if e.failedFork then 1 else 0 := by
  cases e with
  | taskFork pipeOk forkOk => cases pipeOk <;> cases forkOk <;> rfl
  | popen task => rw [pipeStep]; split <;> rfl
  | exit task role => rfl
  | timeout task => rfl
  | finish task => rw [pipeStep]; split <;> rfl
  | endOfFile => exact lost_read s
  | readError => exact lost_read s

theorem lost_run (s : OpenPipes) (es : List PipeEvent) :
    (run pipeStep s es).1.lost.length = s.lost.length + es.countP PipeEvent.failedFork := by
  induction es generalizing s with
  | nil => rfl
  | cons e es ih =>
    rw [run_cons_state, ih, lost_step, List.countP_cons]
    omega

/-- The pipe ends open in the daemon are two for every task in flight, the read end of the
one that is read, and two for every fork that failed, which nothing closes. -/
theorem open_ends_accounted (table : Table OpenFile) (h : Started table) (es : List PipeEvent)
    (hes : Along pipeStep (fun s e => e.Possible s) (.start table) es) :
    openCount OpenFile.isEnd (run pipeStep (.start table) es).1.table =
      2 * (run pipeStep (.start table) es).1.tasks.length +
        (run pipeStep (.start table) es).1.reading.toList.length +
        2 * es.countP PipeEvent.failedFork := by
  have hcount := (ends_invariant table h es hes).1.counted
  have hlost := lost_run (.start table) es
  rw [hcount, OpenPipes.writers, List.length_append, hlost]
  simp only [OpenPipes.start, List.length_nil]
  omega

/-- A callback reads the end of its task's output exactly when no process of a task that was
forked after it is left. -/
theorem end_of_file_iff (table : Table OpenFile) (h : Started table) (es : List PipeEvent)
    (hes : Along pipeStep (fun s e => e.Possible s) (.start table) es) (t : ForkedTask)
    (ht : (run pipeStep (.start table) es).1.reading = some t) :
    EndOfFile (run pipeStep (.start table) es).1 t ↔
      ∀ p ∈ (run pipeStep (.start table) es).1.procs, p.task ≤ t.pipe := by
  obtain ⟨hd, hp⟩ := ends_invariant table h es hes
  generalize (run pipeStep (.start table) es).1 = s at *
  have hreader : t ∈ s.readers := by
    rw [OpenPipes.readers, ht]
    exact List.mem_cons_self
  have hdaemon : ¬Holds s.table (.writeEnd t.pipe) := by
    rintro ⟨fd, hfd⟩
    obtain ⟨u, hu, hpipe, _⟩ := (hd.writeEnds fd _).mp hfd
    have hdistinct := hd.distinct
    rw [OpenPipes.readers, ht, Option.toList_some, List.singleton_append, List.map_cons,
      List.nodup_cons] at hdistinct
    exact hdistinct.1 (hpipe ▸ List.mem_map_of_mem hu)
  rw [EndOfFile, and_iff_right hdaemon]
  refine forall₂_congr fun p hpmem => ?_
  rw [hp.held p hpmem t.pipe (Or.inl ⟨t, hreader, rfl⟩), Inherits, not_or, Nat.not_lt]
  exact and_iff_right (hp.reaped t ht p hpmem)

/-- The callback of `t` waits, and `p` is a process of a task forked after it. -/
structure WaitsFor (t : ForkedTask) (p : TaskProcess) (s : OpenPipes) : Prop where
  daemon : DaemonEnds s
  processes : ProcessEnds s
  reading : s.reading = some t
  running : p ∈ s.procs
  later : t.pipe < p.task

theorem WaitsFor.not_end {t : ForkedTask} {p : TaskProcess} {s : OpenPipes} (hs : WaitsFor t p s) :
    ¬EndOfFile s t := by
  have hreader : t ∈ s.readers := by
    rw [OpenPipes.readers, hs.reading]
    exact List.mem_cons_self
  have hheld := hs.processes.held p hs.running t.pipe (Or.inl ⟨t, hreader, rfl⟩)
  exact fun heof => heof.2 p hs.running (hheld.mpr (Or.inr hs.later))

theorem WaitsFor.idle {t : ForkedTask} {p : TaskProcess} {s : OpenPipes} (hs : WaitsFor t p s)
    (e : PipeEvent) (he : e.Possible s) (hread : e ≠ .readError) : e.ofDaemon = false := by
  have hbusy : s.reading ≠ none := by
    rw [hs.reading]
    simp
  cases e with
  | popen task => rfl
  | exit task role => rfl
  | taskFork pipeOk forkOk => exact absurd he hbusy
  | timeout task => exact absurd he.1 hbusy
  | finish task => exact absurd he.1 hbusy
  | endOfFile =>
    obtain ⟨u, hu, heof⟩ := he
    obtain rfl := Option.some.inj (hs.reading.symm.trans hu)
    exact absurd heof hs.not_end
  | readError => exact absurd rfl hread

theorem WaitsFor.step {t : ForkedTask} {p : TaskProcess} {s : OpenPipes} (hs : WaitsFor t p s)
    (e : PipeEvent) (he : e.Possible s) (hread : e ≠ .readError)
    (hne : e ≠ .exit p.task p.role) : WaitsFor t p (pipeStep s e).1 := by
  have hidle := hs.idle e he hread
  have hd := daemonEnds_step hs.daemon e he
  have hp := processEnds_step hs.daemon hs.processes e he
  cases e with
  | popen task =>
    refine ⟨hd, hp, ?_, ?_, hs.later⟩ <;> rw [pipeStep] <;> split
    · exact hs.reading
    · exact hs.reading
    · exact hs.running
    · exact List.mem_cons_of_mem _ hs.running
  | exit task role =>
    refine ⟨hd, hp, hs.reading, (mem_ends s task role p).mpr ⟨hs.running, ?_⟩, hs.later⟩
    rintro ⟨rfl, rfl⟩
    exact hne rfl
  | taskFork pipeOk forkOk => cases hidle
  | timeout task => cases hidle
  | finish task => cases hidle
  | endOfFile => cases hidle
  | readError => cases hidle

/-- While a process of a later task runs and `read()` does not fail, the callback waits, and
the daemon does nothing: the timer that would kill that process does not run either. -/
theorem waits_for_later_process (table : Table OpenFile) (h : Started table) (es : List PipeEvent)
    (hes : Along pipeStep (fun s e => e.Possible s) (.start table) es) (t : ForkedTask)
    (ht : (run pipeStep (.start table) es).1.reading = some t) (p : TaskProcess)
    (hp : p ∈ (run pipeStep (.start table) es).1.procs) (hlater : t.pipe < p.task)
    (more : List PipeEvent)
    (hmore : Along pipeStep
      (fun s e => e.Possible s ∧ e ≠ .readError ∧ e ≠ .exit p.task p.role)
      (run pipeStep (.start table) es).1 more) :
    (∀ e ∈ more, e.ofDaemon = false) ∧
      (run pipeStep (run pipeStep (.start table) es).1 more).1.reading = some t := by
  obtain ⟨hd, hpe⟩ := ends_invariant table h es hes
  have hstart : WaitsFor t p (run pipeStep (.start table) es).1 := ⟨hd, hpe, ht, hp, hlater⟩
  have hidle := along_of_invariant pipeStep _ (fun _ e => e.ofDaemon = false) (WaitsFor t p)
    (fun s e hs he => hs.step e he.1 he.2.1 he.2.2) (fun s e hs he => hs.idle e he.1 he.2.1) _
    more hstart hmore
  have hend := run_invariant pipeStep _ (WaitsFor t p)
    (fun s e hs he => hs.step e he.1 he.2.1 he.2.2) _ more hstart hmore
  exact ⟨along_mem pipeStep _ _ more hidle, hend.reading⟩

/-! ### Tasks that overlap -/

def procdTable : Table OpenFile := [some (.other 0), some (.other 1), some (.other 2), some .loop]

theorem procdTable_started : Started procdTable := by
  refine ⟨fun fd hfd => ⟨fd, ?_⟩, fun fd f hf => ?_⟩
  · match fd, hfd with
    | 0, _ => rfl
    | 1, _ => rfl
    | 2, _ => rfl
  · match fd, hf with
    | 0, hf => exact Option.some.inj hf ▸ rfl
    | 1, hf => exact Option.some.inj hf ▸ rfl
    | 2, hf => exact Option.some.inj hf ▸ rfl
    | 3, hf => exact Option.some.inj hf ▸ rfl
    | n + 4, hf => simp [procdTable] at hf

/-- A fork fails and a task is forked while the first is in flight, which then ends. -/
def overlap : List PipeEvent :=
  [.taskFork true true, .taskFork true false, .taskFork true true, .popen 2, .exit 0 .child,
    .finish 0]

theorem overlap_open :
    openCount OpenFile.isEnd (run pipeStep (.start procdTable) overlap).1.table = 5 :=
  open_ends_accounted procdTable procdTable_started overlap (by decide)

theorem overlap_no_end :
    ¬EndOfFile (run pipeStep (.start procdTable) overlap).1 ⟨0, 4, 5⟩ := fun h =>
  absurd ((end_of_file_iff procdTable procdTable_started overlap (by decide) ⟨0, 4, 5⟩
    (by decide)).mp h) (by decide)

/-- What the shell of the third task has open. -/
def thirdScript : TaskProcess :=
  ⟨2, .script, [none, some (.other 0), none, none, some (.readEnd 0), some (.writeEnd 0),
    some (.readEnd 1), some (.writeEnd 1), none, none]⟩

theorem overlap_wait : (run pipeStep (run pipeStep (.start procdTable) overlap).1
    [.exit 2 .child]).1.reading = some ⟨0, 4, 5⟩ :=
  (waits_for_later_process procdTable procdTable_started overlap (by decide) ⟨0, 4, 5⟩
    (by decide) thirdScript (by decide) (by decide) [.exit 2 .child] (by decide)).2

end Sysmngr.Fwbank
