import Sysmngr.Processes.Model

/-!
# The line of `/proc/<pid>/stat`

The kernel prints the name of a process between parentheses as it is, with any blanks,
digits and parentheses in it, then a letter for its state and numbers only. The last
closing parenthesis and the conversion string find the fields again.
-/

namespace Sysmngr.Processes
open Text Scanf

/-! ### What the kernel prints -/

/-- The fields in the order of proc(5), those after `vsize` in one list. Those that are
stored have the C type of the variable, those that are skipped may be any numbers. -/
structure KernelStat where
  pid : ℤ
  comm : Str
  state : Char
  ppid : ℤ
  pgrp : ℤ
  session : ℤ
  ttyNr : ℤ
  tpgid : ℤ
  flags : ℤ
  minflt : ℤ
  cminflt : ℤ
  majflt : ℤ
  cmajflt : ℤ
  utime : UInt64
  stime : UInt64
  cutime : ℤ
  cstime : ℤ
  priority : Int32
  nice : ℤ
  numThreads : ℤ
  itrealvalue : ℤ
  starttime : ℤ
  vsize : UInt64
  more : List ℤ
  comm_nul : NUL ∉ comm
  state_letter : state.isAlpha = true

def KernelStat.numbers (k : KernelStat) : List ℤ :=
  [k.ppid, k.pgrp, k.session, k.ttyNr, k.tpgid, k.flags, k.minflt, k.cminflt, k.majflt, k.cmajflt,
    k.utime.toNat, k.stime.toNat, k.cutime, k.cstime, k.priority.toInt, k.nice, k.numThreads,
    k.itrealvalue, k.starttime, k.vsize.toNat]

def KernelStat.fields (k : KernelStat) : Str :=
  k.state :: (spaced k.numbers ++ (spaced k.more ++ "\n".toList))

def KernelStat.line (k : KernelStat) : Str :=
  printInt k.pid ++ " (".toList ++ k.comm ++ ')' :: ' ' :: k.fields

/-- What the daemon is to make of the line: the name keeps 31 bytes. -/
def KernelStat.stat (k : KernelStat) : Stat :=
  ⟨snprintf 32 k.comm, k.state, k.utime.toNat, k.stime.toNat, k.priority.toInt, k.vsize.toNat⟩

/-! ### The name -/

theorem spaced_chars (zs : List ℤ) : ∀ c ∈ spaced zs, c = ' ' ∨ c.isDigit = true ∨ c = '-' := by
  intro c hc
  obtain ⟨z, -, hz⟩ := List.mem_flatMap.mp hc
  rcases List.mem_cons.mp hz with rfl | hz
  · exact Or.inl rfl
  · exact Or.inr (printInt_chars z c hz)

theorem fields_chars (k : KernelStat) :
    ∀ c ∈ k.fields, c.isAlpha = true ∨ c.isDigit = true ∨ c = ' ' ∨ c = '-' ∨ c = '\n' := by
  intro c hc
  have hspaced : ∀ zs, c ∈ spaced zs → c.isAlpha = true ∨ c.isDigit = true ∨ c = ' ' ∨ c = '-' ∨
      c = '\n' := by
    intro zs h
    rcases spaced_chars zs c h with h | h | h
    · exact Or.inr (Or.inr (Or.inl h))
    · exact Or.inr (Or.inl h)
    · exact Or.inr (Or.inr (Or.inr (Or.inl h)))
  rcases List.mem_cons.mp hc with rfl | hc
  · exact Or.inl k.state_letter
  · rcases List.mem_append.mp hc with hc | hc
    · exact hspaced _ hc
    · rcases List.mem_append.mp hc with hc | hc
      · exact hspaced _ hc
      · exact Or.inr (Or.inr (Or.inr (Or.inr (List.mem_singleton.mp hc))))

theorem notMem_fields (k : KernelStat) (c : Char) (h : c.isAlpha = false ∧ c.isDigit = false)
    (hc : c ≠ ' ' ∧ c ≠ '-' ∧ c ≠ '\n') : c ∉ k.fields := by
  intro hm
  rcases fields_chars k c hm with ha | hd | hs
  · exact Bool.noConfusion (h.1.symm.trans ha)
  · exact Bool.noConfusion (h.2.symm.trans hd)
  · rcases hs with hs | hs | hs
    · exact hc.1 hs
    · exact hc.2.1 hs
    · exact hc.2.2 hs

theorem notMem_printInt (z : ℤ) (c : Char) (h : c.isDigit = false ∧ c ≠ '-') : c ∉ printInt z := by
  intro hm
  rcases printInt_chars z c hm with hd | hd
  · exact Bool.noConfusion (h.1.symm.trans hd)
  · exact h.2 hd

theorem line_nul (k : KernelStat) : NUL ∉ k.line := by
  have hpid := notMem_printInt k.pid NUL (by decide)
  have hfields := notMem_fields k NUL (by decide) (by decide)
  have hcomm := k.comm_nul
  simp only [KernelStat.line, List.mem_append, List.mem_cons, not_or]
  exact ⟨⟨⟨hpid, by decide⟩, hcomm⟩, by decide, by decide, hfields⟩

theorem rsplit (d : Char) (a b : Str) (hb : d ∉ b) :
    (a ++ d :: b).rdropWhile (· != d) = a ++ [d] ∧ (a ++ d :: b).rtakeWhile (· != d) = b := by
  have hrev : (a ++ d :: b).reverse = b.reverse ++ d :: a.reverse := by simp
  have hpos : ∀ c ∈ b.reverse, (c != d) = true := by
    intro c hc
    simp only [bne_iff_ne, ne_eq]
    rintro rfl
    exact hb (List.mem_reverse.mp hc)
  constructor
  · rw [List.rdropWhile, hrev, List.dropWhile_append_of_pos hpos]
    simp
  · rw [List.rtakeWhile, hrev, List.takeWhile_append_of_pos hpos]
    simp

/-! ### The fields -/

def storedDirectives : List Directive :=
  [.skipNumber, .skipNumber, .skipNumber, .skipNumber, .skipWord, .skipWord, .skipWord, .skipWord,
    .skipWord, .skipWord, .ulong, .ulong, .skipNumber, .skipNumber, .int, .skipNumber, .skipWord,
    .skipWord, .skipWord, .ulong]

theorem statFormat_eq :
    statFormat = .char :: ((storedDirectives.flatMap fun d => [.blank, d]) ++ [.blank]) := rfl

theorem strtoul_printInt (n : UInt64) : strtoul (printInt n.toNat) = n.toNat := by
  have hlt := n.toNat_lt
  have hpos : ¬((n.toNat : ℤ) < 0) := by omega
  simp only [strtoul, printInt, if_neg hpos, Int.natAbs_natCast, signedDigits_printNat, if_pos hlt]

theorem toInt_strtol_printInt (z : Int32) : toInt (strtol (printInt z.toInt)) = z.toInt := by
  have hlo := Int32.le_toInt z
  have hhi := Int32.toInt_lt z
  rw [strtol_printInt _ (by omega) (by omega)]
  exact toInt_of_mem _ hlo hhi

theorem sscanf_fields (k : KernelStat) : sscanf statFormat k.fields =
    [.char k.state, .ulong k.utime.toNat, .ulong k.stime.toNat, .int k.priority.toInt,
      .ulong k.vsize.toNat] := by
  have hnumeric : ∀ d ∈ storedDirectives, d.Numeric := by
    unfold Directive.Numeric
    decide
  have hnewline : ∀ c ∈ "\n".toList.head?, isspace c = true := by
    rintro c hc
    obtain rfl : '\n' = c := Option.some.inj hc
    rfl
  have hmore := spaced_head k.more "\n".toList hnewline
  have hread := sscanf_spaced storedDirectives hnumeric [.blank] k.numbers rfl
    (spaced k.more ++ "\n".toList) hmore
  rw [statFormat_eq, KernelStat.fields, sscanf, hread]
  simp only [KernelStat.numbers, storedDirectives, List.zipWith_cons_cons, List.zipWith_nil_left,
    Directive.stores, strtoul_printInt, toInt_strtol_printInt, List.flatten_cons,
    List.flatten_nil, List.nil_append, List.append_nil, List.cons_append, sscanf]

theorem readStat_line (k : KernelStat) (h : k.line.length ≤ 1023) :
    readStat k.line = some k.stat := by
  have hbuf : cstr (snprintf 1024 k.line) = k.line := by
    rw [snprintf_of_le 1024 _ h]
    exact cstr_of_notMem _ (line_nul k)
  obtain ⟨hhead, hrest⟩ := rsplit ')' (printInt k.pid ++ " (".toList ++ k.comm) (' ' :: k.fields)
    (by
      have hfields := notMem_fields k ')' (by decide) (by decide)
      simp only [List.mem_cons, not_or]
      exact ⟨by decide, hfields⟩)
  have hname : (printInt k.pid ++ " (".toList ++ k.comm).dropWhile (· != '(') = '(' :: k.comm := by
    have hpid : ∀ c ∈ printInt k.pid ++ [' '], (c != '(') = true := by
      intro c hc
      simp only [bne_iff_ne, ne_eq]
      rintro rfl
      rcases List.mem_append.mp hc with hc | hc
      · exact notMem_printInt k.pid '(' (by decide) hc
      · exact absurd (List.mem_singleton.mp hc) (by decide)
    have hsplit : printInt k.pid ++ " (".toList ++ k.comm =
        (printInt k.pid ++ [' ']) ++ '(' :: k.comm := by simp
    rw [hsplit, List.dropWhile_append_of_pos hpid]
    simp
  have hmem : ')' ∈ k.line := by simp [KernelStat.line]
  simp only [readStat, hbuf, if_pos hmem]
  rw [KernelStat.line, hhead, hrest, List.dropLast_concat, hname]
  simp only [List.drop_succ_cons, List.drop_zero, sscanf_fields, KernelStat.stat]

/-- The daemon recovers what the kernel printed, whatever the name contains, and makes
the entry of it. -/
theorem stat_line_recovered (k : KernelStat) (h : k.line.length ≤ 1023) :
    readStat k.line = some k.stat ∧
      ∀ d : Dirent, d.isProcess = true → d.statExists = true → d.stat = some k.line →
        readProcess d = some (makeEntry d k.stat) := by
  have hread := readStat_line k h
  refine ⟨hread, fun d hprocess hexists hstat => ?_⟩
  simp only [readProcess, hprocess, hexists, hstat, Bool.and_self, if_true, Option.bind_some, hread,
    Option.map_some]

/-- A name with the closing parenthesis and numbers of a line of its own. -/
def mimicStat : KernelStat where
  pid := 7
  comm := "a) S 1 (2".toList
  state := 'R'
  ppid := 1
  pgrp := 7
  session := 7
  ttyNr := 0
  tpgid := -1
  flags := 4194560
  minflt := 10
  cminflt := 0
  majflt := 0
  cmajflt := 0
  utime := 18446744073709551615
  stime := 5
  cutime := 0
  cstime := 0
  priority := -2
  nice := 0
  numThreads := 1
  itrealvalue := 0
  starttime := 300
  vsize := 1048576
  more := [64, 18446744073709551615]
  comm_nul := by decide
  state_letter := by decide

def mimicDirent : Dirent := ⟨"7".toList, true, some mimicStat.line, none, true⟩

theorem stat_line_recovered_sample :
    readStat mimicStat.line =
        some ⟨"a) S 1 (2".toList, 'R', 18446744073709551615, 5, -2, 1048576⟩ ∧
      readProcess mimicDirent = some (makeEntry mimicDirent mimicStat.stat) := by
  obtain ⟨hread, hentry⟩ := stat_line_recovered mimicStat (by decide +kernel)
  exact ⟨hread, hentry mimicDirent (by decide) rfl rfl⟩

end Sysmngr.Processes
