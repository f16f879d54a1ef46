import Sysmngr.FileTree
import Sysmngr.Monitor.LogFile
import Sysmngr.Paths

/-!
# What setting FilePath does to other files

The handlers look at the text of the new path and not at what has that name. Moving the
log there replaces a file that stands there, as `rename` does, and where the old path is
that of a directory, all that is in it is moved.
-/

namespace Sysmngr.Monitor
open Text Uci FileTree Paths

/-- The file system a handler meets: the name a path leads to, what stands under the names,
and a rename that succeeds only where it can. -/
structure LogDisk (ν φ : Type) extends LogEnv where
  entryOf : Str → List ν
  tree : Tree ν φ
  renames : ∀ old new, renameOk old new = true → tree.Renamable (entryOf old) (entryOf new)

section Frame
variable {ν φ : Type} [DecidableEq ν] [DecidableEq φ]

def ownLog (n : Names) (s : LogState) : Str := (s.uci n.package "file_path").getD n.logPath

def treeAfterSet (n : Names) (disk : LogDisk ν φ) (s : LogState) (value : Str) : Tree ν φ :=
  if h : disk.fileExists (ownLog n s) = true ∧ disk.renameOk (ownLog n s) value = true then
    disk.tree.rename (disk.entryOf (ownLog n s)) (disk.entryOf value) (disk.renames _ _ h.2)
  else disk.tree

/-- Every file but the own previous log is still there, under its name or another. -/
def KeepsOtherFiles (n : Names) (disk : LogDisk ν φ) (s : LogState) (value : Str) : Prop :=
  ∀ name f, disk.tree.node name = some (.file f) → name ≠ disk.entryOf (ownLog n s) →
    ∃ name', (treeAfterSet n disk s value).node name' = some (.file f)

/-- What stands elsewhere keeps its place, what stands at the previous path is moved with
everything below it, if there is a log, and a file at the new path is kept exactly if there
is no log to move or it is the log. -/
structure MovesLogOnly (n : Names) (disk : LogDisk ν φ) (s : LogState) (value : Str) : Prop where
  others : ∀ name node, disk.tree.node name = some node →
    ¬disk.entryOf (ownLog n s) <+: name → name ≠ disk.entryOf value →
    (treeAfterSet n disk s value).node name = some node
  moved : disk.fileExists (ownLog n s) = true → ∀ rest node,
    disk.tree.node (disk.entryOf (ownLog n s) ++ rest) = some node →
    (treeAfterSet n disk s value).node (disk.entryOf value ++ rest) = some node
  unmoved : disk.fileExists (ownLog n s) = false → treeAfterSet n disk s value = disk.tree
  target : ∀ f, disk.tree.node (disk.entryOf value) = some (.file f) →
    ((treeAfterSet n disk s value).node (disk.entryOf value) = some (.file f) ↔
      disk.fileExists (ownLog n s) = false ∨
        disk.tree.node (disk.entryOf (ownLog n s)) = some (.file f))

theorem set_renames (n : Names) (env : LogEnv) (s : LogState) (value : Str)
    (hset : (setFilePath n env s value .valueSet).1 = none)
    (hexists : env.fileExists (ownLog n s) = true) : env.renameOk (ownLog n s) value = true := by
  unfold ownLog at hexists ⊢
  simp only [setFilePath, if_pos hexists] at hset
  by_contra hfail
  rw [Bool.not_eq_true] at hfail
  rw [hfail] at hset
  exact absurd hset (Option.some_ne_none _)

/-- A successful write keeps every file but one at the new path, which is replaced by the
log if there is one, and moves what stands at the old path. -/
theorem set_moves_log_only (n : Names) (disk : LogDisk ν φ) (s : LogState) (value : Str)
    (hset : (setFilePath n disk.toLogEnv s value .valueSet).1 = none) :
    MovesLogOnly n disk s value := by
  cases hexists : disk.fileExists (ownLog n s) with
  | false =>
    have hsame : treeAfterSet n disk s value = disk.tree :=
      dif_neg fun h => Bool.false_ne_true (hexists.symm.trans h.1)
    refine ⟨fun name node hn _ _ => by rw [hsame, hn], fun h => ?_, fun _ => hsame, fun f hf => ?_⟩
    · exact absurd (hexists.symm.trans h) Bool.false_ne_true
    · rw [hsame]
      exact iff_of_true hf (Or.inl hexists)
  | true =>
    have hrename := set_renames n disk.toLogEnv s value hset hexists
    have hrenamable := disk.renames _ _ hrename
    have hmoved : treeAfterSet n disk s value = disk.tree.rename (disk.entryOf (ownLog n s))
        (disk.entryOf value) hrenamable := dif_pos ⟨hexists, hrename⟩
    refine ⟨fun name node hn hold hnew => ?_, fun _ rest node hn => ?_, fun h => ?_,
      fun f _ => ?_⟩
    · rw [hmoved]
      exact disk.tree.rename_keeps _ _ hrenamable name node hn hold hnew
    · rw [hmoved]
      exact disk.tree.rename_moves _ _ hrenamable rest node hn
    · exact absurd (h.symm.trans hexists) Bool.false_ne_true
    · rw [hmoved, disk.tree.rename_new _ _ hrenamable, hexists]
      simp

end Frame

def path (text : String) : List Str := segments text.toList

def logEntries : List (List Str × Node Str) :=
  [([], .dir), (path "/var", .dir), (path "/var/log", .dir), (path "/log", .dir),
    (path "/var/log/critical_memory.log", .file "memory".toList),
    (path "/var/log/critical_cpu.log", .file "cpu".toList)]

def logTree : Tree Str Str := .ofList logEntries (by decide)

/-- Both logs are there, and a free name or that of a file is renamed to. -/
def bothLogs : LogDisk Str Str where
  validateString := fun _ => true
  fileExists := fun p => (logTree.node (segments p)).isSome
  renameOk := fun old new => decide (segments new ≠ [] ∧ (logTree.node (segments old)).isSome ∧
    logTree.node (segments new) ≠ some .dir ∧
    logTree.node (segments new).dropLast = some .dir ∧ ¬segments old <+: (segments new).dropLast)
  entryOf := segments
  tree := logTree
  renames := by
    intro old new hok
    obtain ⟨hne, hthere, hfree, hdir, hmoves⟩ := of_decide_eq_true hok
    have hsplit := List.dropLast_append_getLast hne
    rw [← hsplit] at hfree ⊢
    exact logTree.renamable_of_free _ _ _ hthere hfree hdir hmoves

def directoryAsLog : LogState :=
  ⟨Named.set (fun _ _ => none) "memory" "file_path" "/var/log".toList, []⟩

/-- The log is moved, and so is a directory that the path has been set to. -/
theorem log_moved_to_new_path :
    (treeAfterSet memoryNames bothLogs emptyLogState "/log/memory".toList).node
        (path "/log/memory") = some (.file "memory".toList) ∧
      (treeAfterSet memoryNames bothLogs directoryAsLog "/log/all".toList).node
        (path "/log/all/critical_cpu.log") = some (.file "cpu".toList) :=
  ⟨(set_moves_log_only memoryNames bothLogs emptyLogState "/log/memory".toList
      (by decide)).moved (by decide) [] _ (by decide),
    (set_moves_log_only memoryNames bothLogs directoryAsLog "/log/all".toList
      (by decide)).moved (by decide) ["critical_cpu.log".toList] _ (by decide)⟩

theorem cpu_log_named (name : List Str) (h : logTree.node name = some (.file "cpu".toList)) :
    name = path "/var/log/critical_cpu.log" := by
  have hmem := lookup_mem logEntries name _ h
  simpa [logEntries] using hmem

/-- The log of the memory monitor is moved onto that of the CPU monitor, which is lost. -/
theorem other_log_replaced :
    ¬∀ (n : Names), n = memoryNames ∨ n = cpuNames → ∀ (disk : LogDisk Str Str) (s : LogState)
      (value : Str), (setFilePath n disk.toLogEnv s value .valueCheck).1 = none →
      (setFilePath n disk.toLogEnv s value .valueSet).1 = none →
      KeepsOtherFiles n disk s value := by
  intro hall
  have hkeeps := hall memoryNames (Or.inl rfl) bothLogs emptyLogState cpuNames.logPath
    (by decide) (by decide)
  obtain ⟨name, hname⟩ := hkeeps (path "/var/log/critical_cpu.log") "cpu".toList (by decide)
    (by decide)
  let old := path "/var/log/critical_memory.log"
  let new := path "/var/log/critical_cpu.log"
  have hmoved : logTree.moved old new name = some (.file "cpu".toList) := hname
  have hdiffer : ¬(old = new ∨ sameFile (logTree.node old) (logTree.node new) = true) := by decide
  by_cases hnew : new <+: name
  · obtain ⟨rest, rfl⟩ := hnew
    rw [logTree.moved_new old new rest hdiffer] at hmoved
    have hold : old <+: new := ⟨rest, cpu_log_named _ hmoved⟩
    exact absurd hold (by decide)
  · rw [Tree.moved, if_neg hdiffer, if_neg hnew] at hmoved
    split at hmoved
    · exact absurd hmoved (by simp)
    · exact hnew (cpu_log_named name hmoved ▸ List.prefix_rfl)

end Sysmngr.Monitor
