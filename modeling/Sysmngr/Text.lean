import Mathlib.Algebra.Ring.Int.Defs
import Mathlib.Algebra.Ring.Nat
import Mathlib.Data.List.Infix
import Mathlib.Tactic.Common

/-!
# C strings and the conversions of the C library

A C string is the list of its characters before the terminating NUL, one `Char`
a byte. Printing (`%u`, `%d`), reading (`strtol`, `strtoul`), the narrowing casts
and the cut `snprintf` makes at the end of its buffer are written once here; the
round trips of printing and reading are what the configuration store rests on.
-/

namespace Sysmngr.Text

abbrev Str := List Char

/-! ### Printing -/

/-- `%u` and `%lu`. -/
def printNat (n : ℕ) : Str := Nat.toDigits 10 n

/-- `%d` and `%ld`. -/
def printInt (z : ℤ) : Str :=
  if z < 0 then '-' :: printNat z.natAbs else printNat z.natAbs

/-- What a buffer of `size` bytes holds after `snprintf` or a bounded copy. -/
def snprintf (size : ℕ) (s : Str) : Str := s.take (size - 1)

theorem toList_ne_nil (s : String) (h : s ≠ "") : s.toList ≠ [] :=
  fun hnil => h (String.toList_eq_nil_iff.mp hnil)

/-! ### Buffers -/

abbrev NUL : Char := '\x00'

def cstr (buf : List Char) : Str := buf.takeWhile (· != NUL)

/-- Overwriting the front of a buffer with a string and its NUL. -/
def store (buf : List Char) (s : Str) : List Char := s ++ NUL :: buf.drop (s.length + 1)

theorem cstr_append (s r : Str) (h : NUL ∉ s) : cstr (s ++ NUL :: r) = s := by
  unfold cstr
  rw [List.takeWhile_append_of_pos]
  · simp
  · intro c hc
    simp only [bne_iff_ne, ne_eq]
    rintro rfl
    exact h hc

theorem cstr_of_notMem (s : Str) (h : NUL ∉ s) : cstr s = s := by
  have hpos : ∀ c ∈ s, (c != NUL) = true := by
    intro c hc
    simp only [bne_iff_ne, ne_eq]
    rintro rfl
    exact h hc
  have happend : cstr (s ++ []) = s ++ cstr [] := List.takeWhile_append_of_pos hpos
  simpa [cstr] using happend

theorem cstr_store (buf : List Char) (s : Str) (h : NUL ∉ s) : cstr (store buf s) = s :=
  cstr_append s _ h

/-! ### Counting and cutting -/

theorem countP_or (p q : Char → Bool) (h : ∀ c, p c = true → q c = false) (s : Str) :
    (s.countP fun c => p c || q c) = s.countP p + s.countP q := by
  induction s with
  | nil => rfl
  | cons c s ih =>
    have hc := h c
    rw [List.countP_cons, List.countP_cons, List.countP_cons, ih]
    cases hp : p c
    · simp only [Bool.false_or, Bool.false_eq_true, if_false]
      omega
    · rw [hp] at hc
      simp only [Bool.true_or, hc rfl, Bool.false_eq_true, if_false, if_true]
      omega

theorem countP_eq_zero_of_notMem (d : Char) (s : Str) (h : d ∉ s) : s.countP (· == d) = 0 := by
  rw [List.countP_eq_zero]
  intro c hc heq
  rw [beq_iff_eq.mp heq] at hc
  exact h hc

theorem notMem_of_countP_eq_zero (d : Char) (s : Str) (h : s.countP (· == d) = 0) : d ∉ s :=
  fun hm => List.countP_eq_zero.mp h d hm (beq_self_eq_true d)

theorem infix_append_cons (d : Char) (w s t : Str) (hd : d ∉ w) :
    w <:+: s ++ d :: t ↔ w <:+: s ∨ w <:+: t := by
  have hempty : ∀ v, d ∉ v → v <+: d :: t → v = [] := by
    intro v hv hpre
    rcases List.prefix_cons_iff.mp hpre with rfl | ⟨r, rfl, -⟩
    · rfl
    · exact absurd (List.mem_cons_self ..) hv
  constructor
  · intro h
    rcases List.infix_append_iff.mp h with hs | ht | ⟨u, v, rfl, hu, hv⟩
    · exact Or.inl hs
    · rcases List.infix_cons_iff.mp ht with hpre | hinf
      · rw [hempty w hd hpre]
        exact Or.inl (List.nil_infix)
      · exact Or.inr hinf
    · have hnil := hempty v (fun hmem => hd (List.mem_append_right _ hmem)) hv
      rw [hnil, List.append_nil]
      exact Or.inl hu.isInfix
  · rintro (h | h)
    · exact h.trans (List.prefix_append ..).isInfix
    · exact h.trans ((List.suffix_cons ..).trans (List.suffix_append ..)).isInfix

theorem idxOf?_append_cons (d : Char) (s t : Str) (hd : d ∉ s) :
    (s ++ d :: t).idxOf? d = some s.length := by
  induction s with
  | nil => rw [List.nil_append, List.idxOf?_cons, if_pos (beq_self_eq_true d)]; rfl
  | cons c s ih =>
    have hc : ¬(c == d) = true := fun h => hd (eq_of_beq h ▸ List.mem_cons_self ..)
    rw [List.cons_append, List.idxOf?_cons, if_neg hc,
      ih fun h => hd (List.mem_cons_of_mem _ h)]
    rfl

theorem append_cons_inj (d : Char) (a b s t : Str) (ha : d ∉ a) (hb : d ∉ b)
    (h : a ++ d :: s = b ++ d :: t) : a = b ∧ s = t := by
  induction a generalizing b with
  | nil =>
    cases b with
    | nil => exact ⟨rfl, (List.cons.inj h).2⟩
    | cons c b =>
      have hc := (List.cons.inj h).1
      exact absurd (List.mem_cons.mpr (Or.inl hc)) hb
  | cons c a ih =>
    cases b with
    | nil =>
      have hc := (List.cons.inj h).1
      exact absurd (List.mem_cons.mpr (Or.inl hc.symm)) ha
    | cons e b =>
      obtain ⟨rfl, hrest⟩ := List.cons.inj h
      obtain ⟨rfl, rfl⟩ := ih b (fun hm => ha (List.mem_cons_of_mem _ hm))
        (fun hm => hb (List.mem_cons_of_mem _ hm)) hrest
      exact ⟨rfl, rfl⟩

/-! ### Reading -/

def isspace (c : Char) : Bool :=
  c = ' ' || c = '\t' || c = '\n' || c = '\r' || c.toNat = 11 || c.toNat = 12

def leadingDigits (s : Str) : Str := s.takeWhile Char.isDigit

def digitsValue (s : Str) : ℕ := Nat.ofDigitChars 10 s 0

/-- Sign and digits that `strtol` and `strtoul` find after leading blanks. -/
def signedDigits (s : Str) : Bool × ℕ :=
  match s.dropWhile isspace with
  | '-' :: r => (true, digitsValue (leadingDigits r))
  | '+' :: r => (false, digitsValue (leadingDigits r))
  | r => (false, digitsValue (leadingDigits r))

/-- `strtol(s, NULL, 10)` with a 64-bit `long`: saturates at both ends. -/
def strtol (s : Str) : ℤ :=
  match signedDigits s with
  | (true, n) => max (-(n : ℤ)) (-2 ^ 63)
  | (false, n) => min (n : ℤ) (2 ^ 63 - 1)

/-- `strtoul(s, NULL, 10)` with a 64-bit `unsigned long`: a minus sign negates
in the unsigned type, an overflow gives `ULONG_MAX`. -/
def strtoul (s : Str) : ℕ :=
  match signedDigits s with
  | (true, n) => if n < 2 ^ 64 then (2 ^ 64 - n) % 2 ^ 64 else 2 ^ 64 - 1
  | (false, n) => if n < 2 ^ 64 then n else 2 ^ 64 - 1

/-! ### Casts -/

/-- `(int)` of a wider integer. -/
def toInt (z : ℤ) : ℤ := Int.bmod z (2 ^ 32)

/-- `(unsigned int)` and `(uint32_t)`. -/
def toUInt (n : ℕ) : ℕ := n % 2 ^ 32

/-- `strstr(s, t) != NULL`. -/
def strstr (s t : Str) : Bool := decide (t <:+: s)

/-! ### Round trips -/

theorem printNat_ne_nil (n : ℕ) : printNat n ≠ [] := Nat.toDigits_ne_nil

theorem printNat_isDigit (n : ℕ) : ∀ c ∈ printNat n, c.isDigit = true :=
  fun _ hc => Nat.isDigit_of_mem_toDigits (by decide) (by decide) hc

theorem printNat_head (n : ℕ) : (printNat n).length = 1 ∨ (printNat n).head? ≠ some '0' := by
  have hdigit : ∀ d < 10, 0 < d → [d.digitChar].head? ≠ some '0' := by decide
  have hpos : ∀ n, 0 < n → (printNat n).head? ≠ some '0' := by
    intro n
    induction n using Nat.strong_induction_on with
    | _ n ih =>
      intro hn
      by_cases hlt : n < 10
      · rw [printNat, Nat.toDigits_of_lt_base hlt]
        exact hdigit n hlt hn
      · have hsmaller := ih (n / 10) (by omega) (by omega)
        rw [printNat] at hsmaller ⊢
        rw [Nat.toDigits_of_base_le (by decide) (by omega),
          List.head?_append_of_ne_nil _ Nat.toDigits_ne_nil]
        exact hsmaller
  rcases Nat.eq_zero_or_pos n with rfl | hn
  · exact Or.inl rfl
  · exact Or.inr (hpos n hn)

theorem printNat_length_le (n k : ℕ) (hk : 0 < k) (h : n < 10 ^ k) :
    (printNat n).length ≤ k :=
  (Nat.length_toDigits_le_iff (by decide) hk).mpr h

@[simp] theorem digitsValue_printNat (n : ℕ) : digitsValue (printNat n) = n :=
  Nat.ofDigitChars_ten_toDigits

theorem leadingDigits_append (s r : Str) (hs : ∀ c ∈ s, c.isDigit = true)
    (hr : ∀ c ∈ r.head?, c.isDigit = false) : leadingDigits (s ++ r) = s := by
  unfold leadingDigits
  rw [List.takeWhile_append_of_pos hs]
  cases r with
  | nil => simp
  | cons c r =>
    have hc : c.isDigit = false := hr c rfl
    simp [hc]

@[simp] theorem leadingDigits_printNat (n : ℕ) : leadingDigits (printNat n) = printNat n := by
  have h := leadingDigits_append (printNat n) [] (printNat_isDigit n) (by simp)
  simpa using h

theorem isDigit_not_isspace (c : Char) (h : c.isDigit = true) : isspace c = false := by
  simp only [Char.isDigit, Bool.and_eq_true, decide_eq_true_eq, ge_iff_le] at h
  obtain ⟨h1, h2⟩ := h
  have h3 : 48 ≤ c.toNat := h1
  have h4 : c.toNat ≤ 57 := h2
  have hne : ∀ d : Char, d.toNat < 48 → c ≠ d := by
    intro d hd hc
    subst hc
    omega
  simp only [isspace, Bool.or_eq_false_iff, decide_eq_false_iff_not]
  refine ⟨⟨⟨⟨⟨hne ' ' (by decide), hne '\t' (by decide)⟩, hne '\n' (by decide)⟩,
    hne '\r' (by decide)⟩, by omega⟩, by omega⟩

theorem isDigit_ne_sign (c : Char) (h : c.isDigit = true) : c ≠ '-' ∧ c ≠ '+' := by
  constructor
  · rintro rfl
    exact absurd h (by decide)
  · rintro rfl
    exact absurd h (by decide)

theorem signedDigits_digits (s : Str) (hne : s ≠ []) (h : ∀ c ∈ s, c.isDigit = true) :
    signedDigits s = (false, digitsValue s) := by
  have hlead : leadingDigits s = s := by
    simpa using leadingDigits_append s [] h (by simp)
  cases s with
  | nil => exact absurd rfl hne
  | cons c r =>
    have hc : c.isDigit = true := h c (List.mem_cons_self ..)
    have hsp := isDigit_not_isspace c hc
    have hsign := isDigit_ne_sign c hc
    have hdrop : (c :: r).dropWhile isspace = c :: r := by simp [hsp]
    unfold signedDigits
    rw [hdrop]
    split
    · rename_i heq
      simp only [List.cons.injEq] at heq
      exact absurd heq.1 hsign.1
    · rename_i heq
      simp only [List.cons.injEq] at heq
      exact absurd heq.1 hsign.2
    · rw [hlead]

theorem signedDigits_printNat (n : ℕ) : signedDigits (printNat n) = (false, n) := by
  rw [signedDigits_digits _ (printNat_ne_nil n) (printNat_isDigit n), digitsValue_printNat]

theorem signedDigits_neg_printNat (n : ℕ) : signedDigits ('-' :: printNat n) = (true, n) := by
  have hdrop : ('-' :: printNat n).dropWhile isspace = '-' :: printNat n := rfl
  simp only [signedDigits, hdrop, leadingDigits_printNat, digitsValue_printNat]

theorem strtol_digits (s : Str) (hne : s ≠ []) (h : ∀ c ∈ s, c.isDigit = true)
    (hlt : digitsValue s < 2 ^ 63) : strtol s = digitsValue s := by
  simp only [strtol, signedDigits_digits s hne h]
  omega

theorem strtol_printInt (z : ℤ) (hlo : -2 ^ 63 ≤ z) (hhi : z < 2 ^ 63) :
    strtol (printInt z) = z := by
  unfold printInt
  split
  · rename_i hz
    simp only [strtol, signedDigits_neg_printNat]
    omega
  · rename_i hz
    simp only [strtol, signedDigits_printNat]
    omega

theorem toInt_of_mem (z : ℤ) (hlo : -2 ^ 31 ≤ z) (hhi : z < 2 ^ 31) : toInt z = z := by
  unfold toInt
  exact Int.bmod_eq_of_le (by omega) (by omega)

theorem toInt_range (z : ℤ) : -2 ^ 31 ≤ toInt z ∧ toInt z < 2 ^ 31 := by
  have hlo := Int.le_bmod (x := z) (m := 2 ^ 32) (by decide)
  have hhi := Int.bmod_lt (x := z) (m := 2 ^ 32) (by decide)
  unfold toInt
  omega

theorem toInt_eq_self_iff (z : ℤ) : toInt z = z ↔ -2 ^ 31 ≤ z ∧ z < 2 ^ 31 :=
  ⟨fun h => h ▸ toInt_range z, fun h => toInt_of_mem z h.1 h.2⟩

theorem toInt_eq_iff (m n : ℕ) : toInt m = toInt n ↔ m % 2 ^ 32 = n % 2 ^ 32 := by
  simp only [toInt, Int.bmod_def]
  omega

theorem printInt_length_le (z : ℤ) (k : ℕ) (hk : 0 < k) (h : z.natAbs < 10 ^ k) :
    (printInt z).length ≤ k + 1 := by
  have hn := printNat_length_le z.natAbs k hk h
  unfold printInt
  split
  · simp only [List.length_cons]
    omega
  · omega

theorem printInt_ne_nil (z : ℤ) : printInt z ≠ [] := by
  unfold printInt
  split
  · exact List.cons_ne_nil _ _
  · exact printNat_ne_nil _

theorem printInt_chars (z : ℤ) : ∀ c ∈ printInt z, c.isDigit = true ∨ c = '-' := by
  intro c hc
  unfold printInt at hc
  split at hc
  · rcases List.mem_cons.mp hc with rfl | hc
    · exact Or.inr rfl
    · exact Or.inl (printNat_isDigit _ c hc)
  · exact Or.inl (printNat_isDigit _ c hc)

theorem snprintf_length_le (size : ℕ) (s : Str) : (snprintf size s).length ≤ size - 1 :=
  List.length_take_le _ _

theorem snprintf_of_le (size : ℕ) (s : Str) (h : s.length ≤ size - 1) : snprintf size s = s :=
  List.take_of_length_le h

/-- A C `int` printed into a 16-byte buffer is read back unchanged. -/
theorem strtol_snprintf_int (z : ℤ) (hlo : -2 ^ 31 ≤ z) (hhi : z < 2 ^ 31) :
    toInt (strtol (snprintf 16 (printInt z))) = z := by
  have hlen : (printInt z).length ≤ 11 := printInt_length_le z 10 (by decide) (by omega)
  rw [snprintf_of_le 16 _ (by omega), strtol_printInt z (by omega) (by omega)]
  exact toInt_of_mem z hlo hhi

/-- `(uint32_t)strtoul` of what `%d` prints for a 32-bit value gives the value
back over the whole unsigned range: the sign of `%d` is undone modulo 2^32. -/
theorem strtoul_printInt_toInt (n : ℕ) (h : n < 2 ^ 32) :
    toUInt (strtoul (printInt (toInt n))) = n := by
  have hb : toInt n = if n < 2 ^ 31 then (n : ℤ) else (n : ℤ) - 2 ^ 32 := by
    unfold toInt
    split
    · exact Int.bmod_eq_of_le (by omega) (by omega)
    · have hsub := Int.sub_bmod_right (n : ℤ) (2 ^ 32)
      rw [← hsub]
      exact Int.bmod_eq_of_le (by omega) (by omega)
  by_cases hs : n < 2 ^ 31
  · have hp : printInt (toInt n) = printNat n := by
      have hz : ¬((n : ℤ) < 0) := by omega
      rw [hb, if_pos hs, printInt, if_neg hz, Int.natAbs_natCast]
    have hn : n < 2 ^ 64 := by omega
    rw [hp]
    simp only [strtoul, signedDigits_printNat, toUInt, if_pos hn]
    omega
  · have hp : printInt (toInt n) = '-' :: printNat (2 ^ 32 - n) := by
      have hz : (n : ℤ) - 2 ^ 32 < 0 := by omega
      have habs : ((n : ℤ) - 2 ^ 32).natAbs = 2 ^ 32 - n := by omega
      rw [hb, if_neg hs, printInt, if_pos hz, habs]
    have hn : 2 ^ 32 - n < 2 ^ 64 := by omega
    rw [hp]
    simp only [strtoul, signedDigits_neg_printNat, toUInt, if_pos hn]
    omega

theorem printNat_injective : Function.Injective printNat := by
  intro m n h
  have hd := congrArg digitsValue h
  simpa using hd

theorem printInt_injective : Function.Injective printInt := by
  intro a b h
  have hsign : ∀ n r, '-' :: r ≠ printNat n := by
    intro n r heq
    have hm : '-' ∈ printNat n := by rw [← heq]; exact List.mem_cons_self ..
    exact absurd (printNat_isDigit n '-' hm) (by decide)
  unfold printInt at h
  split at h
  · rename_i ha
    split at h
    · rename_i hb
      have hn := printNat_injective (List.cons_inj_right _ |>.mp h)
      omega
    · exact absurd h (hsign _ _)
  · rename_i ha
    split at h
    · exact absurd h.symm (hsign _ _)
    · have hn := printNat_injective h
      omega

/-! ### Unsigned numbers -/

/-- The number a text of digits stands for. -/
def decimal (v : Str) : Option ℕ :=
  if v ≠ [] ∧ v.all Char.isDigit then some (digitsValue v) else none

theorem decimal_eq_some (v : Str) (n : ℕ) :
    decimal v = some n ↔ v ≠ [] ∧ (∀ c ∈ v, c.isDigit = true) ∧ digitsValue v = n := by
  unfold decimal
  split
  · rename_i hv
    refine ⟨fun h => ⟨hv.1, List.all_eq_true.mp hv.2, Option.some.inj h⟩, ?_⟩
    exact fun h => congrArg some h.2.2
  · rename_i hv
    refine iff_of_false (by simp) ?_
    rintro ⟨hne, hdigits, -⟩
    exact hv ⟨hne, List.all_eq_true.mpr hdigits⟩

theorem strtol_decimal (v : Str) (n : ℕ) (h : decimal v = some n) (hn : n < 2 ^ 63) :
    strtol v = n := by
  obtain ⟨hne, hdigits, rfl⟩ := (decimal_eq_some v n).mp h
  exact strtol_digits v hne hdigits hn

theorem strtoul_decimal (v : Str) (n : ℕ) (h : decimal v = some n) (hn : n < 2 ^ 64) :
    strtoul v = n := by
  obtain ⟨hne, hdigits, rfl⟩ := (decimal_eq_some v n).mp h
  simp only [strtoul, signedDigits_digits v hne hdigits, if_pos hn]

end Sysmngr.Text
