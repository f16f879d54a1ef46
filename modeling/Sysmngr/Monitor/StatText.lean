import Sysmngr.Libbbfdm
import Sysmngr.Lines
import Sysmngr.Monitor.Model
import Sysmngr.Monitor.Settings
import Sysmngr.Processes.StatLine

/-!
# The text of `/proc/stat` (`processes.c`)

The counters are read from the first line that starts with `cpu` and has four numbers at
least. The kernel prints ten on the first line; 127 characters of it are read, and where
they do not hold eight the rest keep what they were.
-/

namespace Sysmngr.Monitor
open Text Lines Scanf

/-! ### Reading the file -/

def eight : List Directive :=
  [.ulong, .ulong, .ulong, .ulong, .ulong, .ulong, .ulong, .ulong]

def asUnsigned : Value → Option UInt64
  | .ulong n => some (UInt64.ofNat n)
  | _ => none

/-- `sscanf(line, "cpu %llu ...")`. -/
def scanCpuLine (line : Str) : List UInt64 :=
  if "cpu".toList.isPrefixOf line then
    (sscanf (eight.flatMap fun d => [.blank, d]) (line.drop 3)).filterMap asUnsigned
  else []

def lineBuffer (lib : Libbbfdm) (line : Str) : Str :=
  cstr (lib.removeNewLine.apply (store (List.replicate 128 NUL) line))

/-- What `sscanf` finds on each line of the file; none that cannot be opened. -/
def scanStat (lib : Libbbfdm) : Option Str → List (List UInt64)
  | none => []
  | some text => (fgetsAll 128 text.length text).map fun line => scanCpuLine (lineBuffer lib line)

/-! ### What the kernel prints -/

structure Counters where
  usr : UInt64
  nic : UInt64
  sys : UInt64
  idle : UInt64
  iowait : UInt64
  irq : UInt64
  softirq : UInt64
  steal : UInt64
  deriving DecidableEq

def Counters.line (k : Counters) : List UInt64 :=
  [k.usr, k.nic, k.sys, k.idle, k.iowait, k.irq, k.softirq, k.steal]

def Counters.sysTime (k : Counters) : ℕ := k.sys.toNat + k.irq.toNat + k.softirq.toNat

def Counters.idleTime (k : Counters) : ℕ := k.idle.toNat + k.iowait.toNat

def Counters.busyTime (k : Counters) : ℕ :=
  k.usr.toNat + k.nic.toNat + k.sys.toNat + k.irq.toNat + k.softirq.toNat + k.steal.toNat

def Counters.totalTime (k : Counters) : ℕ := k.busyTime + k.idleTime

def Counters.numbers (k : Counters) : List ℤ := k.line.map fun n => (n.toNat : ℤ)

/-- The line up to the eighth counter. -/
def Counters.text (k : Counters) : Str := "cpu ".toList ++ spaced k.numbers

/-- The eight counters, the numbers printed after them and the lines that follow. -/
structure KernelCpu where
  counters : Counters
  more : List ℤ
  rest : Str
  rest_nul : NUL ∉ rest

def KernelCpu.text (k : KernelCpu) : Str :=
  k.counters.text ++ (spaced k.more ++ '\n' :: k.rest)

example : (⟨⟨1, 2, 3, 4, 5, 6, 7, 8⟩, [0, 0], [], List.not_mem_nil⟩ : KernelCpu).text =
    "cpu  1 2 3 4 5 6 7 8 0 0\n".toList := by decide

/-- What `sscanf` finds in the first 127 characters of the line. -/
def Counters.seen (k : Counters) : List UInt64 := scanCpuLine (k.text.take 127)

/-- The line up to the eighth counter is among the 127 characters that are read. -/
def KernelCpu.Fits (k : KernelCpu) : Prop := k.counters.text.length ≤ 127

instance (k : KernelCpu) : Decidable k.Fits := inferInstanceAs (Decidable (_ ≤ _))

/-! ### One line -/

theorem lineBuffer_eq (lib : Libbbfdm) (line : Str) (h : NUL ∉ line) :
    lineBuffer lib line = withoutNewline line := lib.cstr_removeNewLine _ line h

theorem fgets_prefix (n : ℕ) (s : Str) : (fgets n s).1 <+: s := by
  induction n generalizing s with
  | zero => exact List.nil_prefix
  | succ n ih =>
    cases s with
    | nil => exact List.nil_prefix
    | cons c s =>
      rw [fgets]
      split
      · exact ⟨s, rfl⟩
      · exact List.prefix_cons_inj c |>.mpr (ih s)

theorem spaced_newline (zs : List ℤ) : '\n' ∉ spaced zs ∧ NUL ∉ spaced zs := by
  have hchars := Processes.spaced_chars zs
  constructor <;>
    · intro hm
      rcases hchars _ hm with h | h | h <;> exact absurd h (by decide)

theorem Counters.text_plain (k : Counters) : '\n' ∉ k.text ∧ NUL ∉ k.text := by
  obtain ⟨hnl, hnul⟩ := spaced_newline k.numbers
  constructor <;>
    · rw [Counters.text, List.mem_append, not_or]
      exact ⟨by decide, by assumption⟩

/-- Eight counters and whatever follows them after a blank. -/
theorem scanCpuLine_text (k : Counters) (r : Str) (hr : ∀ c ∈ r.head?, isspace c = true) :
    scanCpuLine (k.text ++ r) = k.line := by
  have hnumeric : ∀ d ∈ eight, d.Numeric := by
    unfold Directive.Numeric
    decide
  have hread := sscanf_spaced eight hnumeric [] k.numbers rfl r hr
  have hprefix : "cpu".toList.isPrefixOf (k.text ++ r) = true := rfl
  have hdrop : (k.text ++ r).drop 3 = ' ' :: (spaced k.numbers ++ r) := rfl
  have hblank : ∀ s, sscanf (eight.flatMap fun d => [.blank, d]) (' ' :: s) =
      sscanf (eight.flatMap fun d => [.blank, d]) s := fun s => rfl
  rw [List.append_nil] at hread
  rw [scanCpuLine, if_pos hprefix, hdrop, hblank, hread]
  simp [eight, Counters.numbers, Counters.line, Directive.stores, Processes.strtoul_printInt,
    sscanf, asUnsigned]

theorem scanStat_first (lib : Libbbfdm) (text : Str) (h : text ≠ []) :
    ∃ rest, scanStat lib (some text) = scanCpuLine (lineBuffer lib (fgets 127 text).1) :: rest := by
  obtain ⟨fuel, hfuel⟩ := Nat.exists_eq_succ_of_ne_zero (List.length_pos_iff.mpr h).ne'
  exact ⟨_, by rw [scanStat, hfuel, fgetsAll_succ _ _ _ h, List.map_cons]⟩

theorem KernelCpu.text_ne_nil (k : KernelCpu) : k.text ≠ [] :=
  List.append_ne_nil_of_left_ne_nil (List.cons_ne_nil _ _) _

theorem Counters.seen_of_le (k : Counters) (h : k.text.length ≤ 127) : k.seen = k.line := by
  have hread := scanCpuLine_text k [] (by simp)
  rw [List.append_nil] at hread
  rw [seen, List.take_of_length_le h, hread]

/-- The counters, where they fit, with what `fgets` reads behind them. -/
theorem scanCpuLine_fits (lib : Libbbfdm) (k : KernelCpu) (h : k.Fits) :
    scanCpuLine (lineBuffer lib (fgets 127 k.text).1) = k.counters.line := by
  obtain ⟨hnl, hnul⟩ := k.counters.text_plain
  obtain ⟨m, hm⟩ : ∃ m, 127 = k.counters.text.length + m :=
    ⟨127 - k.counters.text.length, (Nat.add_sub_of_le h).symm⟩
  have hread := fgets_append m k.counters.text (spaced k.more ++ '\n' :: k.rest) hnl
  have hpre := fgets_prefix m (spaced k.more ++ '\n' :: k.rest)
  have hhead : ∀ c ∈ (spaced k.more ++ '\n' :: k.rest).head?, isspace c = true :=
    spaced_head k.more _ fun c hc => by
      obtain rfl : '\n' = c := by simpa using hc
      rfl
  have hplain : NUL ∉ spaced k.more ++ '\n' :: k.rest := by
    rw [List.mem_append, List.mem_cons, not_or, not_or]
    exact ⟨(spaced_newline k.more).2, by decide, k.rest_nul⟩
  rw [KernelCpu.text, hm, hread]
  generalize (fgets m (spaced k.more ++ '\n' :: k.rest)).1 = t at hpre
  have htail : ∀ u, u <+: t → ∀ c ∈ u.head?, isspace c = true := by
    intro u hu c hc
    obtain ⟨v, hv⟩ := hu.trans hpre
    refine hhead c ?_
    rw [← hv, List.head?_append, Option.mem_def.mp hc]
    rfl
  have hnul' : NUL ∉ k.counters.text ++ t := by
    rw [List.mem_append, not_or]
    exact ⟨hnul, fun hm => hplain (hpre.subset hm)⟩
  rw [lineBuffer_eq lib _ hnul', withoutNewline]
  split
  · rename_i hlast
    cases ht : t with
    | nil =>
      rw [ht, List.append_nil] at hlast
      exact absurd (List.mem_of_getLast? hlast) hnl
    | cons c t' =>
      rw [List.dropLast_append_of_ne_nil (List.cons_ne_nil _ _), ← ht]
      exact scanCpuLine_text _ _ (htail _ (List.dropLast_prefix t))
  · exact scanCpuLine_text _ _ (htail t (List.prefix_refl t))

/-- What is read of the file is what the first 127 characters of the line hold. -/
theorem scanCpuLine_first (lib : Libbbfdm) (k : KernelCpu) :
    scanCpuLine (lineBuffer lib (fgets 127 k.text).1) = k.counters.seen := by
  by_cases h : k.Fits
  · rw [scanCpuLine_fits lib k h, k.counters.seen_of_le h]
  obtain ⟨hnl, hnul⟩ := k.counters.text_plain
  have hlen : (k.counters.text.take 127).length = 127 :=
    List.length_take_of_le (Nat.le_of_not_le h)
  have hread : (fgets 127 k.text).1 = k.counters.text.take 127 := by
    have hcut := fgets_append 0 (k.counters.text.take 127)
      (k.counters.text.drop 127 ++ (spaced k.more ++ '\n' :: k.rest))
      fun hm => hnl (List.mem_of_mem_take hm)
    rw [hlen, ← List.append_assoc, List.take_append_drop] at hcut
    rw [KernelCpu.text, hcut]
    exact List.append_nil _
  have hplain : '\n' ∉ k.counters.text.take 127 ∧ NUL ∉ k.counters.text.take 127 :=
    ⟨fun hm => hnl (List.mem_of_mem_take hm), fun hm => hnul (List.mem_of_mem_take hm)⟩
  rw [hread, lineBuffer_eq lib _ hplain.2, withoutNewline,
    if_neg fun hlast => hplain.1 (List.mem_of_getLast? hlast)]
  rfl

/-! ### A line that is cut -/

theorem number_digits (d : Str) (h : ∀ c ∈ d, c.isDigit = true) :
    number d = if d = [] then none else some (d, []) := by
  cases d with
  | nil => rfl
  | cons c d =>
    have hlead : leadingDigits (c :: d) = c :: d := by
      simpa using leadingDigits_append (c :: d) [] h (by simp)
    have hc := h c List.mem_cons_self
    have hsign := isDigit_ne_sign c hc
    simp [number, isDigit_not_isspace c hc, hsign, hlead]

/-- The number that some of the first digits of another one stand for, not all of them. -/
def FirstDigits (n v : ℕ) : Prop := ∃ u, u <+: printNat n ∧ u ≠ [] ∧ u ≠ printNat n ∧ v = strtoul u

theorem strtoul_cut (n : ℕ) (hn : n < 2 ^ 64) (u : Str) (hu : u <+: printNat n) (hne : u ≠ [])
    (hcut : u ≠ printNat n) : strtoul u < n := by
  obtain ⟨hle, heq⟩ := digitsValue_take (printNat n) u.length
  rw [← List.prefix_iff_eq_take.mp hu, digitsValue_printNat] at hle heq
  have hdigits : ∀ c ∈ u, c.isDigit = true := fun c hc => printNat_isDigit n c (hu.subset hc)
  have hdecimal : decimal u = some (digitsValue u) := (decimal_eq_some u _).mpr ⟨hne, hdigits, rfl⟩
  rw [strtoul_decimal u _ hdecimal (by omega)]
  refine Nat.lt_of_le_of_ne hle fun hsame => ?_
  rcases heq.mp hsame with hlen | hzero
  · exact hcut (hu.eq_of_length_le hlen)
  · have hone := hu.length_le
    rw [hzero] at hone hcut hu
    have hpos := List.length_pos_iff.mpr hne
    exact hcut (hu.eq_of_length_le hpos)

theorem FirstDigits.lt {n v : ℕ} (h : FirstDigits n v) (hn : n < 2 ^ 64) : v < n := by
  obtain ⟨u, hu, hne, hcut, rfl⟩ := h
  exact strtoul_cut n hn u hu hne hcut

theorem sscanf_none (ns : List ℕ) :
    sscanf (ns.flatMap fun _ => [.blank, .ulong]) [] = [] := by
  cases ns <;> rfl

/-- Of printed numbers cut short fewer are read, or of the last one the first digits. -/
theorem sscanf_cut (ns : List ℕ) (t : Str)
    (ht : t <+: spaced (ns.map fun n : ℕ => (n : ℤ))) (hne : t ≠ spaced (ns.map fun n : ℕ => (n : ℤ))) :
    ∃ us : List ℕ, sscanf (ns.flatMap fun _ => [.blank, .ulong]) t = us.map Value.ulong ∧
      (us.length < ns.length ∨
        us.length = ns.length ∧ ∃ n ∈ ns.getLast?, ∃ v ∈ us.getLast?, FirstDigits n v) := by
  induction ns generalizing t with
  | nil => exact absurd (List.prefix_nil.mp ht) hne
  | cons n ns ih =>
    have hprint : printInt (n : ℤ) = printNat n := by
      rw [printInt, if_neg (by omega), Int.natAbs_natCast]
    have hsplit : spaced ((n :: ns).map fun n : ℕ => (n : ℤ)) =
        ' ' :: (printInt n ++ spaced (ns.map fun n : ℕ => (n : ℤ))) := by
      simp [spaced]
    rw [hsplit] at ht hne
    rcases List.prefix_cons_iff.mp ht with rfl | ⟨u, rfl, hu⟩
    · exact ⟨[], rfl, Or.inl (Nat.succ_pos _)⟩
    have hblank : sscanf ((n :: ns).flatMap fun _ => [.blank, .ulong]) (' ' :: u) =
        sscanf (.ulong :: ns.flatMap fun _ => [.blank, .ulong]) (u.dropWhile isspace) := rfl
    rw [hblank]
    by_cases hwhole : printInt (n : ℤ) <+: u
    · -- The number is whole, and what is cut comes later.
      obtain ⟨t, rfl⟩ := hwhole
      have ht' := List.prefix_append_right_inj _ |>.mp hu
      have hne' : t ≠ spaced (ns.map fun n : ℕ => (n : ℤ)) := fun h => hne (by rw [h])
      have hhead : ∀ c ∈ t.head?, isspace c = true := by
        intro c hc
        obtain ⟨v, hv⟩ := ht'
        refine spaced_head (ns.map fun n : ℕ => (n : ℤ)) [] (by simp) c ?_
        rw [List.append_nil, ← hv, List.head?_append, Option.mem_def.mp hc]
        rfl
      rw [printInt_blanks, sscanf_printInt .ulong ⟨by decide, by decide⟩ _ n t hhead]
      simp only [Directive.stores, List.cons_append, List.nil_append, List.length_cons]
      obtain ⟨us, heq, hcut⟩ := ih t ht' hne'
      refine ⟨strtoul (printInt n) :: us, by rw [heq]; rfl, ?_⟩
      rcases hcut with hlt | ⟨hlen, m, hm, v, hv, hlt⟩
      · exact Or.inl (Nat.succ_lt_succ hlt)
      · refine Or.inr ⟨congrArg (· + 1) hlen, m, ?_, v, ?_, hlt⟩
        · rw [List.getLast?_cons, Option.mem_def.mp hm]
          rfl
        · rw [List.getLast?_cons, Option.mem_def.mp hv]
          rfl
    · have hpart : u <+: printNat n :=
        hprint ▸ (List.prefix_or_prefix_of_prefix hu (List.prefix_append _ _)).resolve_right hwhole
      have hdigits : ∀ c ∈ u, c.isDigit = true := fun c hc =>
        printNat_isDigit n c (hpart.subset hc)
      have hdrop : u.dropWhile isspace = u := by
        cases u with
        | nil => rfl
        | cons c u => exact List.dropWhile_cons_of_neg (by
            simp [isDigit_not_isspace c (hdigits c List.mem_cons_self)])
      rw [hdrop, sscanf, number_digits u hdigits]
      by_cases hnil : u = []
      · rw [if_pos hnil]
        exact ⟨[], rfl, Or.inl (Nat.succ_pos _)⟩
      · rw [if_neg hnil]
        refine ⟨[strtoul u], congrArg (Value.ulong (strtoul u) :: ·) (sscanf_none ns), ?_⟩
        cases ns with
        | cons m ns => exact Or.inl (by simp)
        | nil =>
          refine Or.inr ⟨rfl, n, rfl, strtoul u, rfl, ?_⟩
          exact ⟨u, hpart, hnil, fun h => hwhole (by rw [hprint, ← h]), rfl⟩

theorem printNat_le_twenty (n : UInt64) : (printInt (n.toNat : ℤ)).length ≤ 20 := by
  have hlt := n.toNat_lt
  rw [printInt, if_neg (by omega), Int.natAbs_natCast]
  exact printNat_length_le _ 20 (by decide) (by omega)

/-- Four numbers are within reach in any case. -/
theorem scan_four (k : Counters) (t : Str) (ht : t <+: spaced k.numbers) (hlen : 123 ≤ t.length) :
    4 ≤ (sscanf (eight.flatMap fun d => [.blank, d]) t).length := by
  let first : List ℤ := [k.usr.toNat, k.nic.toNat, k.sys.toNat, k.idle.toNat]
  let last : List ℤ := [k.iowait.toNat, k.irq.toNat, k.softirq.toNat, k.steal.toNat]
  have hsplit : spaced k.numbers = spaced first ++ spaced last := by
    simp [spaced, Counters.numbers, Counters.line, first, last]
  have hshort : (spaced first).length ≤ 84 := by
    have h1 := printNat_le_twenty k.usr
    have h2 := printNat_le_twenty k.nic
    have h3 := printNat_le_twenty k.sys
    have h4 := printNat_le_twenty k.idle
    simp only [spaced, first, List.flatMap_cons, List.flatMap_nil, List.append_nil,
      List.cons_append, List.length_cons, List.length_append]
    omega
  rw [hsplit] at ht
  obtain ⟨r, rfl⟩ : spaced first <+: t :=
    (List.prefix_or_prefix_of_prefix (List.prefix_append _ _) ht).resolve_right fun h => by
      have := h.length_le
      omega
  have hr := List.prefix_append_right_inj _ |>.mp ht
  have hhead : ∀ c ∈ r.head?, isspace c = true := by
    intro c hc
    obtain ⟨v, hv⟩ := hr
    refine spaced_head last [] (by simp) c ?_
    rw [List.append_nil, ← hv, List.head?_append, Option.mem_def.mp hc]
    rfl
  have hread := sscanf_spaced [.ulong, .ulong, .ulong, .ulong] (by unfold Directive.Numeric; decide)
    ([.ulong, .ulong, .ulong, .ulong].flatMap fun d => [.blank, d]) first rfl r hhead
  have height : (eight.flatMap fun d => [Directive.blank, d]) =
      ([.ulong, .ulong, .ulong, .ulong].flatMap fun d => [.blank, d]) ++
        ([.ulong, .ulong, .ulong, .ulong].flatMap fun d => [.blank, d]) := rfl
  rw [height, hread, List.length_append]
  exact Nat.le_add_right_of_le (Nat.le_refl 4)

/-- Of a line whose eighth counter is cut four numbers are read at least, and not the eighth
one or its first digits only. -/
theorem Counters.seen_cut (k : Counters) (h : 127 < k.text.length) :
    4 ≤ k.seen.length ∧
      (k.seen[7]? = none ∨ ∃ v, k.seen[7]? = some v ∧ FirstDigits k.steal.toNat v.toNat) := by
  let t := (spaced k.numbers).take 123
  have hnumbers : 123 < (spaced k.numbers).length := by
    rw [Counters.text, List.length_append] at h
    have hcpu : "cpu ".toList.length = 4 := rfl
    omega
  have hseen : k.seen = (sscanf (eight.flatMap fun d => [.blank, d]) t).filterMap asUnsigned := rfl
  have hprefix : t <+: spaced k.numbers := List.take_prefix _ _
  have htlen : t.length = 123 := List.length_take_of_le (Nat.le_of_lt hnumbers)
  have hne : t ≠ spaced k.numbers := fun heq => by
    rw [heq] at htlen
    omega
  have hfour := scan_four k t hprefix htlen.ge
  have hnumbers' : k.numbers = (k.line.map UInt64.toNat).map fun n : ℕ => (n : ℤ) :=
    List.map_map.symm
  obtain ⟨us, hus, hcut⟩ := sscanf_cut (k.line.map UInt64.toNat) t (hnumbers' ▸ hprefix)
    (hnumbers' ▸ hne)
  have hsame : sscanf (eight.flatMap fun d => [.blank, d]) t = us.map Value.ulong := hus
  have hvals : (us.map Value.ulong).filterMap asUnsigned = us.map UInt64.ofNat := by
    rw [List.filterMap_map]
    exact congrFun (List.filterMap_eq_map (f := UInt64.ofNat)) us
  rw [hsame, List.length_map] at hfour
  rw [hseen, hsame, hvals]
  refine ⟨by rwa [List.length_map], ?_⟩
  rw [List.getElem?_map]
  rcases hcut with hlt | ⟨hlen8, n, hn, v, hv, hdigits⟩
  · have hshort : us.length ≤ 7 := Nat.le_of_lt_succ hlt
    exact Or.inl (by rw [List.getElem?_eq_none hshort]; rfl)
  · obtain rfl : k.steal.toNat = n := Option.some.inj hn
    have hseven : us[7]? = some v := by
      rw [List.getLast?_eq_getElem?] at hv
      rw [← Option.mem_def.mp hv, hlen8]
      rfl
    have hlt := hdigits.lt k.steal.toNat_lt
    have hsteal := k.steal.toNat_lt
    refine Or.inr ⟨UInt64.ofNat v, by rw [hseven]; rfl, ?_⟩
    rwa [UInt64.toNat_ofNat', Nat.mod_eq_of_lt (by omega)]

theorem Counters.four_seen (k : Counters) : 4 ≤ k.seen.length := by
  by_cases h : k.text.length ≤ 127
  · rw [k.seen_of_le h]
    exact Nat.le_add_right 4 4
  · exact (k.seen_cut (Nat.lt_of_not_le h)).1

/-! ### The counters -/

/-- The counters that jiffies hold. -/
def Jiffies.counters (j : Jiffies) : Counters :=
  ⟨j.usr, j.nic, j.sys, j.idle, j.iowait, j.irq, j.softirq, j.steal⟩

theorem Jiffies.total_counters (j : Jiffies) : j.total.counters = j.counters := rfl

/-- The counters held after a reading of the file, if it could be opened: where its first
characters show no number they are as they were. -/
def Counters.after (held : Counters) : Option KernelCpu → Counters
  | none => held
  | some k =>
    { usr := k.counters.seen.getD 0 held.usr
      nic := k.counters.seen.getD 1 held.nic
      sys := k.counters.seen.getD 2 held.sys
      idle := k.counters.seen.getD 3 held.idle
      iowait := k.counters.seen.getD 4 held.iowait
      irq := k.counters.seen.getD 5 held.irq
      softirq := k.counters.seen.getD 6 held.softirq
      steal := k.counters.seen.getD 7 held.steal }

theorem Counters.after_fits (held : Counters) (k : KernelCpu) (h : k.Fits) :
    held.after (some k) = k.counters := by
  rw [after, k.counters.seen_of_le h]
  rfl

theorem getJifVal_text (lib : Libbbfdm) (j : Jiffies) (k : KernelCpu) :
    getJifVal j (scanStat lib (some k.text)) = (j.scan k.counters.seen).total := by
  obtain ⟨rest, hfirst⟩ := scanStat_first lib k.text k.text_ne_nil
  rw [hfirst, scanCpuLine_first lib k, getJifVal, if_pos k.counters.four_seen]

/-- What `sscanf` finds in a file of the kernel, if it can be opened. -/
def statOf (lib : Libbbfdm) (file : Option KernelCpu) : List (List UInt64) :=
  scanStat lib (file.map KernelCpu.text)

theorem getJifVal_counters (lib : Libbbfdm) (j : Jiffies) (file : Option KernelCpu) :
    (getJifVal j (statOf lib file)).counters = j.counters.after file := by
  cases file with
  | none => rfl
  | some k =>
    rw [statOf, Option.map_some, getJifVal_text, Counters.after]
    generalize k.counters.seen = vals
    rfl

/-- The times of jiffies are those of their counters, modulo 2^64. -/
structure Shows (j : Jiffies) (k : Counters) : Prop where
  usr : j.usr = k.usr
  sysTime : j.sysTime.toNat = k.sysTime % 2 ^ 64
  idleTime : j.idleTime.toNat = k.idleTime % 2 ^ 64
  busyTime : j.busyTime.toNat = k.busyTime % 2 ^ 64
  totalTime : j.totalTime.toNat = k.totalTime % 2 ^ 64

theorem shows_total (j : Jiffies) : Shows j.total j.counters := by
  have hidle : j.total.idleTime.toNat = j.counters.idleTime % 2 ^ 64 := by
    simp only [Jiffies.total, Jiffies.counters, UInt64.toNat_add, Counters.idleTime]
  have hall : j.total.totalTime.toNat = j.counters.totalTime % 2 ^ 64 := by
    simp only [Jiffies.total, Jiffies.counters, UInt64.toNat_add, Counters.totalTime,
      Counters.busyTime, Counters.idleTime]
    omega
  exact {
    usr := rfl
    sysTime := by
      simp only [Jiffies.total, Jiffies.counters, UInt64.toNat_add, Counters.sysTime]
      omega
    idleTime := hidle
    totalTime := hall
    busyTime := by
      have hbusy : j.total.busyTime = j.total.totalTime - j.total.idleTime := rfl
      rw [hbusy, UInt64.toNat_sub, hall, hidle]
      unfold Counters.totalTime
      omega }

theorem getJifVal_shows (lib : Libbbfdm) (j : Jiffies) (file : Option KernelCpu)
    (h : file = none → Shows j j.counters) :
    Shows (getJifVal j (statOf lib file)) (j.counters.after file) := by
  rw [← getJifVal_counters lib]
  cases file with
  | none => exact h rfl
  | some k =>
    rw [statOf, Option.map_some, getJifVal_text, Jiffies.total_counters]
    exact shows_total (j.scan k.counters.seen)

theorem getJifVal_fits (lib : Libbbfdm) (j : Jiffies) (k : KernelCpu) (h : k.Fits) :
    Shows (getJifVal j (scanStat lib (some k.text))) k.counters := by
  have hshows := getJifVal_shows lib j (some k) fun h => nomatch h
  rwa [Counters.after_fits _ k h] at hshows

def Counters.jiffies (k : Counters) : Jiffies := (Jiffies.zero.scan k.line).total

/-- The eight counters are read as they are, whatever was there before and whatever follows,
exactly when they are among the first 127 characters of the file. Of a longer line `steal`
is left as it was or read as the number its first digits make. -/
theorem stat_text_read_iff (lib : Libbbfdm) (k : KernelCpu) :
    ((∀ j, getJifVal j (scanStat lib (some k.text)) = k.counters.jiffies) ↔
      k.counters.text.length ≤ 127) ∧
    (127 < k.counters.text.length → ∀ j,
      (getJifVal j (scanStat lib (some k.text))).steal = j.steal ∨
        FirstDigits k.counters.steal.toNat
          (getJifVal j (scanStat lib (some k.text))).steal.toNat) := by
  have hcut : 127 < k.counters.text.length → ∀ j,
      (getJifVal j (scanStat lib (some k.text))).steal = j.steal ∨
        FirstDigits k.counters.steal.toNat
          (getJifVal j (scanStat lib (some k.text))).steal.toNat := by
    intro hlong j
    have hsteal : (getJifVal j (scanStat lib (some k.text))).steal =
        k.counters.seen[7]?.getD j.steal := by
      rw [getJifVal_text]
      generalize k.counters.seen = vals
      exact List.getD_eq_getElem?_getD
    rw [hsteal]
    rcases (k.counters.seen_cut hlong).2 with hnone | ⟨v, hv, hdigits⟩
    · exact Or.inl (by rw [hnone]; rfl)
    · exact Or.inr (by rwa [hv])
  refine ⟨⟨fun hall => ?_, fun hfits j => ?_⟩, hcut⟩
  · by_contra hlong
    have hother : k.counters.steal + 1 ≠ k.counters.steal := by simp
    have hread := hall { Jiffies.zero with steal := k.counters.steal + 1 }
    rcases hcut (Nat.lt_of_not_le hlong) { Jiffies.zero with steal := k.counters.steal + 1 } with
      hleft | hdigits
    · rw [hread] at hleft
      exact hother hleft.symm
    · rw [hread] at hdigits
      exact absurd (hdigits.lt k.counters.steal.toNat_lt) (Nat.lt_irrefl _)
  · rw [getJifVal_text, k.counters.seen_of_le hfits]
    rfl

end Sysmngr.Monitor
