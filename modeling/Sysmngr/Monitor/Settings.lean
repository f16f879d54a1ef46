import Sysmngr.Monitor.Model

/-!
# The settings of the monitors

The setters check a value and store its text as it is. A monitor reads the text when it
is started or reloaded, the first 15 characters of it.
-/

namespace Sysmngr.Monitor
open Text Uci

/-! ### Setters -/

/-- The bounds handed to the library's validator of unsigned integers. -/
structure Range where
  min : Option ℕ
  max : Option ℕ

def Range.Contains (r : Range) (n : ℕ) : Prop := (∀ m ∈ r.min, m ≤ n) ∧ ∀ m ∈ r.max, n ≤ m

/-- What `bbfdm_validate_unsignedInt` is documented to accept. -/
def DocumentedUnsignedInt (validate : Range → Str → Bool) : Prop :=
  ∀ r v, validate r v = true ↔ ∃ n, decimal v = some n ∧ n < 2 ^ 32 ∧ r.Contains n

section Setters
variable (validate : Range → Str → Bool)

/-- The check and the write of a value; `none` is the fault 9007 of the check. -/
def setUnsignedInt (package option : String) (range : Range) (uci : Named) (value : Str) :
    Option Named :=
  if validate range value then some (uci.set package option value) else none

def setDeviceInfoMemoryStatusMemoryMonitorPollingInterval : Named → Str → Option Named :=
  setUnsignedInt validate "memory" "polling_interval" ⟨none, none⟩

def setDeviceInfoMemoryStatusMemoryMonitorCriticalRiseThreshold : Named → Str → Option Named :=
  setUnsignedInt validate "memory" "critical_rise_threshold" ⟨none, some 100⟩

def setDeviceInfoMemoryStatusMemoryMonitorCriticalFallThreshold : Named → Str → Option Named :=
  setUnsignedInt validate "memory" "critical_fall_threshold" ⟨none, some 100⟩

def setDeviceInfoProcessStatusCPUPollInterval : Named → Str → Option Named :=
  setUnsignedInt validate "cpu" "poll_interval" ⟨none, none⟩

def setDeviceInfoProcessStatusCPUNumSamples : Named → Str → Option Named :=
  setUnsignedInt validate "cpu" "num_samples" ⟨some 1, some 300⟩

def setDeviceInfoProcessStatusCPUCriticalRiseThreshold : Named → Str → Option Named :=
  setUnsignedInt validate "cpu" "critical_rise_threshold" ⟨none, some 100⟩

def setDeviceInfoProcessStatusCPUCriticalFallThreshold : Named → Str → Option Named :=
  setUnsignedInt validate "cpu" "critical_fall_threshold" ⟨none, some 100⟩

theorem setUnsignedInt_some (hdoc : DocumentedUnsignedInt validate) (package option : String)
    (range : Range) (uci uci' : Named) (value : Str)
    (h : setUnsignedInt validate package option range uci value = some uci') :
    (∃ n, decimal value = some n ∧ n < 2 ^ 32 ∧ range.Contains n) ∧
      uci' = uci.set package option value := by
  unfold setUnsignedInt at h
  split at h
  · rename_i hvalid
    exact ⟨(hdoc range value).mp hvalid, (Option.some.inj h).symm⟩
  · exact absurd h (by simp)

end Setters

/-! ### What is read of a number -/

theorem digitsValue_append (a b : Str) :
    digitsValue (a ++ b) = 10 ^ b.length * digitsValue a + digitsValue b := by
  unfold digitsValue
  rw [Nat.ofDigitChars_append, Nat.ofDigitChars_eq_ofDigitChars_zero]

theorem digitsValue_lt (v : Str) (h : ∀ c ∈ v, c.isDigit = true) :
    digitsValue v < 10 ^ v.length := by
  induction v with
  | nil => decide
  | cons c v ih =>
    have hrest := ih fun d hd => h d (List.mem_cons_of_mem _ hd)
    have hdigit : digitsValue [c] ≤ 9 := by
      have hc := h c (List.mem_cons_self ..)
      simp only [Char.isDigit, Bool.and_eq_true, decide_eq_true_eq] at hc
      have hle : c.toNat ≤ 57 := hc.2
      simp only [digitsValue, Nat.ofDigitChars_cons, Nat.ofDigitChars_nil, Nat.mul_zero,
        Nat.zero_add]
      change c.toNat - 48 ≤ 9
      omega
    have hmul : 10 ^ v.length * digitsValue [c] ≤ 10 ^ v.length * 9 := Nat.mul_le_mul_left _ hdigit
    have hsplit : digitsValue (c :: v) = 10 ^ v.length * digitsValue [c] + digitsValue v :=
      digitsValue_append [c] v
    rw [hsplit, List.length_cons, Nat.pow_succ]
    omega

/-- A number cut short is smaller, unless it is 0. -/
theorem digitsValue_take (v : Str) (k : ℕ) :
    digitsValue (v.take k) ≤ digitsValue v ∧
      (digitsValue (v.take k) = digitsValue v ↔ v.length ≤ k ∨ digitsValue v = 0) := by
  have hsplit : digitsValue v =
      10 ^ (v.drop k).length * digitsValue (v.take k) + digitsValue (v.drop k) := by
    rw [← digitsValue_append, List.take_append_drop]
  have hpos : 0 < 10 ^ (v.drop k).length := Nat.pow_pos (by decide)
  have hle : digitsValue (v.take k) ≤ 10 ^ (v.drop k).length * digitsValue (v.take k) :=
    Nat.le_mul_of_pos_left _ hpos
  refine ⟨by omega, ?_⟩
  constructor
  · intro heq
    by_cases hk : v.length ≤ k
    · exact Or.inl hk
    · right
      have hdrop : (v.drop k).length = v.length - k - 1 + 1 := by
        rw [List.length_drop]
        omega
      rw [hdrop, Nat.pow_succ] at hsplit hle
      have hten : 10 * digitsValue (v.take k) ≤
          10 ^ (v.length - k - 1) * 10 * digitsValue (v.take k) := by
        rw [Nat.mul_assoc]
        exact Nat.le_mul_of_pos_left _ (Nat.pow_pos (by decide))
      omega
  · rintro (hk | hzero)
    · rw [List.take_of_length_le hk]
    · omega

theorem get_number (uci : Named) (package option : String) (default value : Str) (size : ℕ)
    (hne : value ≠ []) :
    (uci.set package option value).get package option default size = value.take (size - 1) := by
  rw [Named.get, Named.set_self _ _ _ _ hne]
  rfl

/-- The number a monitor reads of an accepted text is the one the text stands for, or
what its first 15 characters stand for. -/
theorem read_number (uci : Named) (package option : String) (default value : Str) (n : ℕ)
    (hvalue : decimal value = some n) (hn : n < 2 ^ 32) :
    toUInt (strtoul ((uci.set package option value).get package option default 16)) =
      digitsValue (value.take 15) := by
  obtain ⟨hne, hdigits, rfl⟩ := (decimal_eq_some value n).mp hvalue
  have hle := (digitsValue_take value 15).1
  have hcut : decimal (value.take 15) = some (digitsValue (value.take 15)) := by
    refine (decimal_eq_some _ _).mpr ⟨?_, fun c hc => hdigits c (List.mem_of_mem_take hc), rfl⟩
    obtain ⟨c, rest, rfl⟩ := List.exists_cons_of_ne_nil hne
    exact List.cons_ne_nil _ _
  rw [get_number _ _ _ _ _ _ hne, strtoul_decimal _ _ hcut (by omega), toUInt]
  omega

/-! ### A validator -/

def Range.accepts (r : Range) (v : Str) : Bool :=
  (decimal v).any fun n =>
    decide (n < 2 ^ 32) && r.min.all (fun m => decide (m ≤ n)) && r.max.all fun m => decide (n ≤ m)

theorem accepts_documented : DocumentedUnsignedInt Range.accepts := by
  intro r v
  simp [Range.accepts, Range.Contains, Option.any_eq_true, Option.all_eq_true, and_assoc]

end Sysmngr.Monitor
