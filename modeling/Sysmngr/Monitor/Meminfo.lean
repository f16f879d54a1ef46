import Sysmngr.Lines
import Sysmngr.Monitor.Model
import Sysmngr.Words

/-!
# Reading `/proc/meminfo`

Each line is taken apart by two calls of `strtok`, the first with blanks and colons for
delimiters and the second with blanks. The five values that are looked for are kept in
`unsigned long`s of `w` bits, in which the utilisation is computed.
-/

namespace Sysmngr.Monitor
open Text Lines Words

structure Info (w : ℕ) where
  memTotal : BitVec w
  memFree : BitVec w
  buffers : BitVec w
  cached : BitVec w
  sreclaimable : BitVec w
  deriving DecidableEq

def Info.zero (w : ℕ) : Info w := ⟨0, 0, 0, 0, 0⟩

def isKeyDelim (c : Char) : Bool := c == ' ' || c == ':'

def isValueDelim (c : Char) : Bool := c == ' '

/-- `strcasecmp(s, t) == 0` -/
def strcasecmp (s t : Str) : Bool := s.map Char.toLower == t.map Char.toLower

/-- `strtol(s, NULL, 10)` with a `long` of `w` bits. -/
def strtolBits (w : ℕ) (s : Str) : ℤ :=
  match signedDigits s with
  | (true, n) => max (-(n : ℤ)) (-2 ^ (w - 1))
  | (false, n) => min (n : ℤ) (2 ^ (w - 1) - 1)

section Width
variable {w : ℕ}

def Info.assign (info : Info w) (key : Str) (value : BitVec w) : Info w :=
  if strcasecmp key "MemTotal".toList then { info with memTotal := value }
  else if strcasecmp key "MemFree".toList then { info with memFree := value }
  else if strcasecmp key "Buffers".toList then { info with buffers := value }
  else if strcasecmp key "Cached".toList then { info with cached := value }
  else if strcasecmp key "SReclaimable".toList then { info with sreclaimable := value }
  else info

def readMeminfoLine (info : Info w) (line : Str) : Info w :=
  match nextWord isKeyDelim (cstr line) with
  | none => info
  | some (key, rest) =>
    match nextWord isValueDelim rest with
    | none => info
    | some (value, _) => info.assign key (BitVec.ofInt w (strtolBits w value))

variable (w) in
/-- `none` when the file cannot be opened. -/
def sysmngrMeminfo (content : Option Str) : Option (Info w) :=
  content.map fun text => (fgetsAll 256 text.length text).foldl readMeminfoLine (.zero w)

/-- The quotient as an `unsigned int`; `none` is the trap of a division by 0. -/
def Info.utilization (info : Info w) : Option ℕ :=
  let used := info.memTotal - (info.memFree + info.buffers + info.cached + info.sreclaimable)
  if info.memTotal = 0 then none
  else some (((used * 100#w) / info.memTotal).setWidth 32).toNat

variable (w) in
/-- `calculate_memory_utilization` from the text of the file. -/
def memoryUtilization (content : Option Str) : Option ℕ :=
  match sysmngrMeminfo w content with
  | none => some 0
  | some info => info.utilization

/-! ### Well-formed files -/

/-- `Key: <blanks>value kB`, padded with spaces as the kernel pads. -/
structure MeminfoLine where
  key : Str
  blanks : ℕ
  digits : Str
  key_ne : key ≠ []
  key_plain : ∀ c ∈ key, c ≠ ' ' ∧ c ≠ ':' ∧ c ≠ '\n' ∧ c ≠ NUL
  digits_ne : digits ≠ []
  digits_digit : ∀ c ∈ digits, c.isDigit = true
  length_lt : (key ++ ':' :: (List.replicate blanks ' ' ++ (digits ++ " kB".toList))).length < 255

def MeminfoLine.text (l : MeminfoLine) : Str :=
  l.key ++ ':' :: (List.replicate l.blanks ' ' ++ (l.digits ++ " kB".toList))

def MeminfoLine.value (l : MeminfoLine) : ℕ := digitsValue l.digits

/-- A file of such lines, of which the last one may lack its newline. -/
def meminfoText (newline : Bool) (lines : List MeminfoLine) : Str :=
  (endedLines newline (lines.map MeminfoLine.text)).flatten

/-- The value a file names, 0 if it does not. -/
def named (lines : List MeminfoLine) (name : String) : ℕ :=
  ((lines.find? fun l => strcasecmp l.key name.toList).map MeminfoLine.value).getD 0

def DistinctKeys (lines : List MeminfoLine) : Prop :=
  lines.Pairwise fun a b => strcasecmp a.key b.key = false

instance (lines : List MeminfoLine) : Decidable (DistinctKeys lines) :=
  inferInstanceAs (Decidable (List.Pairwise _ lines))

/-- What is not used for programs: free memory, buffers and caches. -/
def spare (lines : List MeminfoLine) : ℕ :=
  named lines "MemFree" + named lines "Buffers" + named lines "Cached" +
    named lines "SReclaimable"

/-! ### One line -/

theorem MeminfoLine.text_plain (l : MeminfoLine) : ∀ c ∈ l.text, c ≠ '\n' ∧ c ≠ NUL := by
  intro c hc
  have hdigit : ∀ d : Char, d.isDigit = true → d ≠ '\n' ∧ d ≠ NUL := by
    intro d hd
    constructor <;> rintro rfl <;> exact absurd hd (by decide)
  rw [MeminfoLine.text, List.mem_append, List.mem_cons, List.mem_append, List.mem_append] at hc
  rcases hc with hc | rfl | hc | hc | hc
  · exact (l.key_plain c hc).2.2
  · decide
  · rw [List.eq_of_mem_replicate hc]
    decide
  · exact hdigit c (l.digits_digit c hc)
  · have hall : " kB".toList.all (fun d => d != '\n' && d != NUL) = true := rfl
    simpa using List.all_eq_true.mp hall c hc

theorem MeminfoLine.fits (l : MeminfoLine) : Fits 256 l.text where
  ne := List.append_ne_nil_of_right_ne_nil _ (List.cons_ne_nil _ _)
  newline := fun h => (l.text_plain '\n' h).1 rfl
  length := Nat.succ_le_succ l.length_lt

theorem MeminfoLine.cstr_ended (l : MeminfoLine) (newline : Bool) :
    cstr (ended newline l.text) = ended newline l.text := by
  refine cstr_of_notMem _ fun h => ?_
  rcases List.mem_append.mp h with h | h
  · exact (l.text_plain NUL h).2 rfl
  · cases newline
    · exact absurd h List.not_mem_nil
    · exact absurd h (by decide)

theorem readMeminfoLine_text (info : Info w) (l : MeminfoLine) (newline : Bool) :
    readMeminfoLine info (ended newline l.text) =
      info.assign l.key (BitVec.ofInt w (strtolBits w l.digits)) := by
  let behind : Str := "kB".toList ++ if newline then ['\n'] else []
  have hline : ended newline l.text =
      l.key ++ ':' :: (List.replicate l.blanks ' ' ++ (l.digits ++ ' ' :: behind)) := by
    simp only [ended, MeminfoLine.text, behind, List.append_assoc, List.cons_append]
    rfl
  have hkey : ∀ c ∈ l.key, isKeyDelim c = false := by
    intro c hc
    obtain ⟨hblank, hcolon, -⟩ := l.key_plain c hc
    simp [isKeyDelim, hblank, hcolon]
  have hdigits : ∀ c ∈ l.digits, isValueDelim c = false := by
    intro c hc
    rw [isValueDelim, beq_eq_false_iff_ne]
    rintro rfl
    exact absurd (l.digits_digit _ hc) (by decide)
  have hblanks : ∀ c ∈ List.replicate l.blanks ' ', isValueDelim c = true := by
    intro c hc
    rw [List.eq_of_mem_replicate hc]
    rfl
  have hvalue : nextWord isValueDelim (List.replicate l.blanks ' ' ++ (l.digits ++ ' ' :: behind)) =
      some (l.digits, behind) := by
    rw [nextWord_skip isValueDelim _ _ hblanks,
      nextWord_append_break isValueDelim _ _ _ l.digits_ne hdigits rfl]
  rw [readMeminfoLine, l.cstr_ended, hline,
    nextWord_append_break isKeyDelim _ _ _ l.key_ne hkey rfl]
  simp only [hvalue]

/-! ### The five values -/

variable (w) in
/-- The names that are looked for, each with what it is kept in. -/
def FIELDS : List (String × (Info w → BitVec w)) :=
  [("MemTotal", Info.memTotal), ("MemFree", Info.memFree), ("Buffers", Info.buffers),
    ("Cached", Info.cached), ("SReclaimable", Info.sreclaimable)]

theorem names_distinct : ∀ f ∈ FIELDS w, ∀ g ∈ FIELDS w,
    strcasecmp f.1.toList g.1.toList = decide (f.1 = g.1) := by
  have hall : ∀ s ∈ ["MemTotal", "MemFree", "Buffers", "Cached", "SReclaimable"],
      ∀ t ∈ ["MemTotal", "MemFree", "Buffers", "Cached", "SReclaimable"],
      strcasecmp s.toList t.toList = decide (s = t) := by decide +kernel
  have hnames : (FIELDS w).map Prod.fst =
    ["MemTotal", "MemFree", "Buffers", "Cached", "SReclaimable"] := rfl
  intro f hf g hg
  rw [← hnames] at hall
  exact hall f.1 (List.mem_map_of_mem hf) g.1 (List.mem_map_of_mem hg)

theorem strcasecmp_of_match (key : Str) (f g : String × (Info w → BitVec w)) (hf : f ∈ FIELDS w)
    (hg : g ∈ FIELDS w) (h : strcasecmp key f.1.toList = true) :
    strcasecmp key g.1.toList = decide (f.1 = g.1) := by
  rw [← names_distinct f hf g hg, strcasecmp, strcasecmp]
  rw [strcasecmp, beq_iff_eq] at h
  rw [h]

theorem assign_field (info : Info w) (key : Str) (value : BitVec w)
    (f : String × (Info w → BitVec w)) (hf : f ∈ FIELDS w) :
    f.2 (info.assign key value) = if strcasecmp key f.1.toList then value else f.2 info := by
  have hmatch : ∀ g ∈ FIELDS w, strcasecmp key g.1.toList = true →
      strcasecmp key f.1.toList = decide (g.1 = f.1) := fun g hg =>
    strcasecmp_of_match key g f hg hf
  simp only [FIELDS, List.forall_mem_cons, List.not_mem_nil, false_imp_iff, implies_true,
    and_true] at hmatch
  obtain ⟨htotal, hfree, hbuffers, hcached, hsreclaimable⟩ := hmatch
  simp only [FIELDS, List.mem_cons, List.not_mem_nil, or_false] at hf
  unfold Info.assign
  split
  · rename_i hkey
    rw [htotal hkey]
    rcases hf with rfl | rfl | rfl | rfl | rfl <;> rfl
  split
  · rename_i hkey
    rw [hfree hkey]
    rcases hf with rfl | rfl | rfl | rfl | rfl <;> rfl
  split
  · rename_i hkey
    rw [hbuffers hkey]
    rcases hf with rfl | rfl | rfl | rfl | rfl <;> rfl
  split
  · rename_i hkey
    rw [hcached hkey]
    rcases hf with rfl | rfl | rfl | rfl | rfl <;> rfl
  split
  · rename_i hkey
    rw [hsreclaimable hkey]
    rcases hf with rfl | rfl | rfl | rfl | rfl <;> rfl
  · rename_i hnot1 hnot2 hnot3 hnot4 hnot5
    rcases hf with rfl | rfl | rfl | rfl | rfl
    · rw [if_neg hnot1]
    · rw [if_neg hnot2]
    · rw [if_neg hnot3]
    · rw [if_neg hnot4]
    · rw [if_neg hnot5]

/-- Reading the lines one after the other leaves in a field the value of the one line with
its name, or what was there. -/
theorem foldl_assign (lines : List MeminfoLine) (hkeys : DistinctKeys lines) (info : Info w)
    (value : MeminfoLine → BitVec w) (f : String × (Info w → BitVec w)) (hf : f ∈ FIELDS w) :
    f.2 (lines.foldl (fun i l => i.assign l.key (value l)) info) =
      ((lines.find? fun l => strcasecmp l.key f.1.toList).map value).getD (f.2 info) := by
  induction lines generalizing info with
  | nil => rfl
  | cons l rest ih =>
    obtain ⟨hfirst, hrest⟩ := List.pairwise_cons.mp hkeys
    rw [List.foldl_cons, ih hrest, assign_field info l.key (value l) f hf, List.find?_cons]
    cases hl : strcasecmp l.key f.1.toList with
    | false => rfl
    | true =>
      -- no later line has the name, or its key and this one would be equal up to case
      have hnone : rest.find? (fun m => strcasecmp m.key f.1.toList) = none := by
        rw [List.find?_eq_none]
        intro m hm hmatch
        have hboth : strcasecmp l.key m.key = true := by
          rw [strcasecmp, beq_iff_eq] at hl hmatch ⊢
          rw [hl, hmatch]
        exact Bool.noConfusion ((hfirst m hm).symm.trans hboth)
      rw [hnone]
      rfl

/-- Each value that is looked for is read as it stands as long as a `long` holds it. -/
theorem meminfo_field (newline : Bool) (lines : List MeminfoLine) (hkeys : DistinctKeys lines)
    (info : Info w) (hinfo : sysmngrMeminfo w (some (meminfoText newline lines)) = some info)
    (f : String × (Info w → BitVec w)) (hf : f ∈ FIELDS w)
    (hlt : named lines f.1 < 2 ^ (w - 1)) : (f.2 info).toNat = named lines f.1 := by
  have hread : ∀ ls : List MeminfoLine, ∀ i : Info w,
      (endedLines newline (ls.map MeminfoLine.text)).foldl readMeminfoLine i =
        ls.foldl (fun i l => i.assign l.key (BitVec.ofInt w (strtolBits w l.digits))) i := by
    intro ls
    induction ls with
    | nil => exact fun _ => rfl
    | cons l rest ih =>
      intro i
      rw [List.map_cons, endedLines, List.foldl_cons, readMeminfoLine_text, ih, List.foldl_cons]
  have hlines := fgetsAll_endedLines 256 newline (lines.map MeminfoLine.text) _
    (fun line hline => by
      obtain ⟨l, _, rfl⟩ := List.mem_map.mp hline
      exact l.fits) (Nat.le_refl _)
  rw [sysmngrMeminfo, Option.map_some, meminfoText, hlines, hread] at hinfo
  rw [← Option.some.inj hinfo, foldl_assign lines hkeys _ _ f hf]
  have hzero : f.2 (Info.zero w) = 0 := by
    simp only [FIELDS, List.mem_cons, List.not_mem_nil, or_false] at hf
    rcases hf with rfl | rfl | rfl | rfl | rfl <;> rfl
  unfold named at hlt ⊢
  cases hfind : lines.find? fun l => strcasecmp l.key f.1.toList with
  | none =>
    rw [Option.map_none, Option.getD_none, hzero]
    rfl
  | some l =>
    rw [hfind] at hlt
    rw [Option.map_some, Option.getD_some] at hlt ⊢
    have hvalue : strtolBits w l.digits = (l.value : ℤ) := by
      rw [strtolBits, signedDigits_digits l.digits l.digits_ne l.digits_digit]
      have hle : (digitsValue l.digits : ℤ) ≤ 2 ^ (w - 1) - 1 := by
        have hcast : ((digitsValue l.digits : ℕ) : ℤ) < ((2 ^ (w - 1) : ℕ) : ℤ) :=
          Int.ofNat_lt.mpr hlt
        rw [Int.natCast_pow] at hcast
        exact Int.le_sub_one_of_lt hcast
      exact Int.min_eq_left hle
    have hwide : l.value < 2 ^ w :=
      Nat.lt_of_lt_of_le hlt (Nat.pow_le_pow_right (by decide) (Nat.sub_le w 1))
    rw [Option.map_some, Option.getD_some, hvalue, BitVec.ofInt_natCast, BitVec.toNat_ofNat,
      Nat.mod_eq_of_lt hwide]

/-! ### The utilisation -/

/-- What the computation comes to, with the free memory and the rest added up modulo 2^w. -/
theorem utilization_toNat (info : Info w) (t s : ℕ) (ht : info.memTotal.toNat = t)
    (hs : (info.memFree + info.buffers + info.cached + info.sreclaimable).toNat = s) :
    info.utilization =
      if t = 0 then none else some ((2 ^ w + t - s) % 2 ^ w * 100 % 2 ^ w / t % 2 ^ 32) := by
  have hslt : s < 2 ^ w := hs ▸ BitVec.isLt _
  have hzero : info.memTotal = 0 ↔ t = 0 := by
    rw [← ht, ← BitVec.toNat_inj]
    rfl
  have hused : (info.memTotal -
      (info.memFree + info.buffers + info.cached + info.sreclaimable)).toNat =
        (2 ^ w + t - s) % 2 ^ w := by
    rw [BitVec.toNat_sub, ht, hs, Nat.sub_add_comm (Nat.le_of_lt hslt)]
  unfold Info.utilization
  by_cases htz : t = 0
  · rw [if_pos (hzero.mpr htz), if_pos htz]
  · rw [if_neg fun h => htz (hzero.mp h), if_neg htz, BitVec.toNat_setWidth, BitVec.toNat_udiv,
      BitVec.toNat_mul, BitVec.toNat_ofNat, hused, ht, Nat.mul_mod_mod]

theorem percentage_le (t s : ℕ) : 100 * (t - s) / t ≤ 100 :=
  Nat.div_le_of_le_mul (by
    rw [Nat.mul_comm]
    exact Nat.mul_le_mul_right 100 (Nat.sub_le _ _))

theorem utilization_exact (info : Info w) (t s : ℕ) (ht : info.memTotal.toNat = t)
    (hs : (info.memFree + info.buffers + info.cached + info.sreclaimable).toNat = s)
    (hpos : 0 < t) (hle : s ≤ t) (hwidth : 100 * t < 2 ^ w) :
    info.utilization = some (100 * (t - s) / t) := by
  have hused : (2 ^ w + t - s) % 2 ^ w = t - s := by
    rw [Nat.add_sub_assoc hle, Nat.add_mod_left, Nat.mod_eq_of_lt (by omega)]
  have hscaled : (t - s) * 100 % 2 ^ w = 100 * (t - s) := by
    rw [Nat.mul_comm, Nat.mod_eq_of_lt (by omega)]
  have hcut : 100 * (t - s) / t < 2 ^ 32 := Nat.lt_of_le_of_lt (percentage_le t s) (by decide)
  rw [utilization_toNat info t s ht hs, if_neg (Nat.ne_of_gt hpos), hused, hscaled,
    Nat.mod_eq_of_lt hcut]

theorem spare_toNat (info : Info w) (lines : List MeminfoLine)
    (hvalues : ∀ f ∈ FIELDS w, (f.2 info).toNat = named lines f.1) (hlt : spare lines < 2 ^ w) :
    (info.memFree + info.buffers + info.cached + info.sreclaimable).toNat = spare lines := by
  simp only [FIELDS, List.forall_mem_cons, List.not_mem_nil, false_imp_iff, implies_true,
    and_true] at hvalues
  obtain ⟨-, hfree, hbuffers, hcached, hsreclaimable⟩ := hvalues
  unfold spare at hlt ⊢
  have hparts : named lines "MemFree" + named lines "Buffers" < 2 ^ w ∧
    named lines "MemFree" + named lines "Buffers" + named lines "Cached" < 2 ^ w := by omega
  rw [BitVec.toNat_add, BitVec.toNat_add, BitVec.toNat_add, hfree, hbuffers, hcached,
    hsreclaimable, Nat.mod_eq_of_lt hparts.1, Nat.mod_eq_of_lt hparts.2, Nat.mod_eq_of_lt hlt]

structure ReadsMeminfo (newline : Bool) (lines : List MeminfoLine) (info : Info w) : Prop where
  read : sysmngrMeminfo w (some (meminfoText newline lines)) = some info
  values : ∀ f ∈ FIELDS w, (f.2 info).toNat = named lines f.1
  utilization : memoryUtilization w (some (meminfoText newline lines)) =
    some (100 * (named lines "MemTotal" - spare lines) / named lines "MemTotal")
  bound : 100 * (named lines "MemTotal" - spare lines) / named lines "MemTotal" ≤ 100

/-- A well-formed file is read exactly, and the utilisation is the rounded percentage. -/
theorem readsMeminfo (newline : Bool) (lines : List MeminfoLine) (hkeys : DistinctKeys lines)
    (hpos : 0 < named lines "MemTotal") (hspare : spare lines ≤ named lines "MemTotal")
    (hwidth : 100 * named lines "MemTotal" < 2 ^ w) :
    ∃ info : Info w, ReadsMeminfo newline lines info := by
  have hw : w ≠ 0 := by
    rintro rfl
    omega
  have hdouble : 2 ^ w = 2 * 2 ^ (w - 1) := by
    rw [← Nat.pow_succ', Nat.succ_eq_add_one, Nat.sub_add_cancel (Nat.pos_of_ne_zero hw)]
  -- every value is at most the total, so a `long` holds it
  have hsmall : ∀ f ∈ FIELDS w, named lines f.1 < 2 ^ (w - 1) := by
    intro f hf
    unfold spare at hspare
    simp only [FIELDS, List.mem_cons, List.not_mem_nil, or_false] at hf
    rcases hf with rfl | rfl | rfl | rfl | rfl <;> dsimp only <;> omega
  obtain ⟨info, hinfo⟩ : ∃ info, sysmngrMeminfo w (some (meminfoText newline lines)) = some info :=
    ⟨_, rfl⟩
  have hvalues := fun f hf => meminfo_field newline lines hkeys info hinfo f hf (hsmall f hf)
  have htotal := hvalues ("MemTotal", Info.memTotal) (List.mem_cons_self ..)
  have hsum := spare_toNat info lines hvalues (by omega)
  have hutilization := utilization_exact info _ _ htotal hsum hpos hspare hwidth
  refine ⟨info, hinfo, hvalues, ?_, percentage_le _ _⟩
  rw [memoryUtilization, hinfo]
  exact hutilization

end Width

def Info.reading (info : Info 64) : MemInfo :=
  ⟨⟨info.memTotal⟩, ⟨info.memFree⟩, ⟨info.buffers⟩, ⟨info.cached⟩, ⟨info.sreclaimable⟩⟩

/-- With a `long` of 64 bits this is the utilisation the monitor is given. -/
theorem calculateMemoryUtilization_reading (info : Info 64) (h : info.memTotal ≠ 0) :
    info.utilization = some (calculateMemoryUtilization (some info.reading)) := by
  rw [Info.utilization, if_neg h]
  rfl

def meminfoLine (key digits : String) (h : key.toList ≠ [] ∧
    (key.toList.all fun c => c != ' ' && c != ':' && c != '\n' && c != NUL) = true ∧
    digits.toList ≠ [] ∧ digits.toList.all Char.isDigit = true ∧
    key.toList.length + digits.toList.length < 250) : MeminfoLine where
  key := key.toList
  blanks := 1
  digits := digits.toList
  key_ne := h.1
  key_plain := fun c hc => by simpa [and_assoc] using List.all_eq_true.mp h.2.1 c hc
  digits_ne := h.2.2.1
  digits_digit := List.all_eq_true.mp h.2.2.2.1
  length_lt := by
    have hlength := h.2.2.2.2
    have hkB : " kB".toList.length = 3 := rfl
    simp only [List.length_append, List.length_cons, List.length_replicate, hkB]
    omega

def fourLines : List MeminfoLine :=
  [meminfoLine "MemTotal" "2000" (by decide), meminfoLine "SwapCached" "7" (by decide),
    meminfoLine "MemFree" "500" (by decide), meminfoLine "Cached" "250" (by decide)]

theorem readsMeminfo_four : ∃ info : Info 32, ReadsMeminfo false fourLines info :=
  readsMeminfo false fourLines (by decide +kernel) (by decide +kernel) (by decide +kernel)
    (by decide +kernel)

end Sysmngr.Monitor
