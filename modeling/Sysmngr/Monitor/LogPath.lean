import Sysmngr.Monitor.LogFile
import Sysmngr.Paths

/-!
# Where an accepted FilePath leads

The check compares the first eight characters with `/var/log` and the first five with
`/log/`, and refuses `..`. The first comparison stops in front of the slash.
-/

namespace Sysmngr.Monitor
open Text Uci Words Paths

def LOG_DIRS : List (List Str) := [["var".toList, "log".toList], ["log".toList]]

/-- The path names something strictly inside `/var/log/` or `/log/`. -/
def InsideLogs (path : Str) : Prop := ∃ dir ∈ LOG_DIRS, Inside dir path

/-- One of the two prefixes, each with its slash, and something behind it that is more
than slashes and dots. -/
def NamesLog (path : Str) : Prop :=
  ∃ rest, (path = "/var/log/".toList ++ rest ∨ path = "/log/".toList ++ rest) ∧
    ∃ c ∈ rest, c ≠ '/' ∧ c ≠ '.'

theorem segments_varlog (rest : Str) :
    segments ("/var/log/".toList ++ rest) = ["var".toList, "log".toList] ++ segments rest :=
  segments_append_slash "/var/log".toList rest

theorem segments_log (rest : Str) :
    segments ("/log/".toList ++ rest) = ["log".toList] ++ segments rest :=
  segments_append_slash "/log".toList rest

theorem strstr_suffix (s t w : Str) (h : strstr (s ++ t) w = false) : strstr t w = false := by
  rw [strstr, decide_eq_false_iff_not] at h ⊢
  exact fun hin => h (hin.trans (List.suffix_append s t).isInfix)

/-- Behind `/var/log` without a slash the path is the directory or a sibling. -/
theorem not_inside_of_no_slash (t : Str) (ht : ∀ rest, t ≠ '/' :: rest) :
    ¬InsideLogs ("/var/log".toList ++ t) := by
  rintro ⟨dir, hdir, rest, hne, heq⟩
  have hfirst : ∃ w more, segments ("/var/log".toList ++ t) = "var".toList :: w :: more ∧
      (w = "log".toList → more = []) := by
    -- the second segment is `log` and ends the path, or is longer than `log`
    cases t with
    | nil => exact ⟨"log".toList, [], rfl, fun _ => rfl⟩
    | cons c r =>
      have hc : c ≠ '/' := fun h => ht r (congrArg (· :: r) h)
      obtain ⟨w, more, hw, hmore⟩ := segments_longer "log".toList c r (by decide)
        (List.cons_ne_nil _ _) hc
      have hsplit := segments_append_slash "/var".toList ("log".toList ++ c :: r)
      rw [hmore] at hsplit
      refine ⟨"log".toList ++ w, more, hsplit, fun hlog => ?_⟩
      rw [List.append_right_eq_self] at hlog
      exact absurd hlog hw
  obtain ⟨w, more, hsegments, hlog⟩ := hfirst
  rw [hsegments] at heq
  simp only [LOG_DIRS, List.mem_cons, List.not_mem_nil, or_false] at hdir
  rcases hdir with rfl | rfl
  · obtain ⟨hw, hmore⟩ := List.cons.inj (List.cons.inj heq).2
    rw [hlog hw] at hmore
    exact hne hmore.symm
  · exact absurd (List.cons.inj heq).1 (by decide)

theorem inside_iff_of_slash (path rest : Str)
    (h : path = "/var/log/".toList ++ rest ∨ path = "/log/".toList ++ rest) :
    InsideLogs path ↔ segments rest ≠ [] := by
  constructor
  · rintro ⟨dir, hdir, inner, hne, heq⟩
    simp only [LOG_DIRS, List.mem_cons, List.not_mem_nil, or_false] at hdir
    rcases h with rfl | rfl
    · rw [segments_varlog] at heq
      rcases hdir with rfl | rfl
      · rw [List.append_cancel_left_eq] at heq
        rwa [heq]
      · exact absurd (List.cons.inj heq).1 (by decide)
    · rw [segments_log] at heq
      rcases hdir with rfl | rfl
      · exact absurd (List.cons.inj heq).1 (by decide)
      · rw [List.append_cancel_left_eq] at heq
        rwa [heq]
  · intro hne
    rcases h with rfl | rfl
    · exact ⟨_, List.mem_cons_self .., segments rest, hne, segments_varlog rest⟩
    · exact ⟨_, List.mem_cons_of_mem _ (List.mem_cons_self ..), segments rest, hne,
        segments_log rest⟩

/-- An accepted path leads strictly inside one of the directories exactly when it has the
directory's slash and more than slashes and dots behind it. -/
theorem accepted_inside_iff (n : Names) (env : LogEnv) (s : LogState) (value : Str)
    (h : (setFilePath n env s value .valueCheck).1 = none) :
    InsideLogs value ↔ NamesLog value := by
  obtain ⟨hpre, hdots⟩ := valueCheck_reads n env s value h
  have hrest : ∀ rest, (value = "/var/log/".toList ++ rest ∨ value = "/log/".toList ++ rest) →
      strstr rest "..".toList = false := by
    rintro rest (rfl | rfl)
    · exact strstr_suffix _ _ _ hdots
    · exact strstr_suffix _ _ _ hdots
  constructor
  · intro hinside
    have hslash : ∃ rest, value = "/var/log/".toList ++ rest ∨ value = "/log/".toList ++ rest := by
      rcases hpre with ⟨t, rfl⟩ | ⟨t, rfl⟩
      · by_contra hnone
        refine not_inside_of_no_slash t (fun rest ht => hnone ⟨rest, Or.inl ?_⟩) hinside
        rw [ht]
        rfl
      · exact ⟨t, Or.inr rfl⟩
    obtain ⟨rest, hvalue⟩ := hslash
    exact ⟨rest, hvalue, (segments_ne_nil_iff rest (hrest rest hvalue)).mp
      ((inside_iff_of_slash value rest hvalue).mp hinside)⟩
  · rintro ⟨rest, hvalue, hchar⟩
    exact (inside_iff_of_slash value rest hvalue).mpr
      ((segments_ne_nil_iff rest (hrest rest hvalue)).mpr hchar)

theorem default_log_inside : InsideLogs memoryNames.logPath :=
  (accepted_inside_iff memoryNames plainLogEnv emptyLogState memoryNames.logPath (by decide)).mpr
    ⟨"critical_memory.log".toList, Or.inl rfl, 'c', List.mem_cons_self .., by decide⟩

theorem sibling_accepted :
    ¬∀ (n : Names) (env : LogEnv) (s : LogState) (value : Str),
      (setFilePath n env s value .valueCheck).1 = none → InsideLogs value := by
  intro hall
  have hinside := hall memoryNames plainLogEnv emptyLogState "/var/logs/x".toList (by decide)
  refine not_inside_of_no_slash "s/x".toList (fun rest h => ?_) hinside
  exact absurd (List.cons.inj h).1 (by decide)

end Sysmngr.Monitor
