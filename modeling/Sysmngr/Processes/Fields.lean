import Sysmngr.Processes.Model

/-!
# The numbers of a process entry

CPU time and size are printed into 32 bytes and copied into fields of 8, which keep the
first seven digits.
-/

namespace Sysmngr.Processes
open Text

/-! ### Fields -/

def Stat.milliseconds (s : Stat) : ℕ := (s.stime / CLK_TCK + s.utime / CLK_TCK) * 1000

def Stat.kilobytes (s : Stat) : ℕ := s.vsize >>> 10

/-- A field filled from a printed number holds the number meant exactly when that has
at most seven digits, if the two are then the same. -/
theorem field_iff (m n : ℕ) (h : n < 10 ^ 7 → m = n) :
    snprintf 8 (snprintf 32 (printNat m)) = printNat n ↔ n < 10 ^ 7 := by
  constructor
  · intro heq
    have hlen := snprintf_length_le 8 (snprintf 32 (printNat m))
    rw [heq] at hlen
    exact (Nat.length_toDigits_le_iff (by decide) (by decide)).mp hlen
  · intro hn
    have hlen := printNat_length_le n 7 (by decide) hn
    rw [h hn, snprintf_of_le 32 _ (by omega), snprintf_of_le 8 _ (by omega)]

theorem cputime_iff (d : Dirent) (s : Stat) :
    (makeEntry d s).cputime = printNat s.milliseconds ↔ s.milliseconds < 10 ^ 7 :=
  field_iff (s.milliseconds % 2 ^ 64) s.milliseconds fun h => Nat.mod_eq_of_lt (by omega)

theorem size_iff (d : Dirent) (s : Stat) :
    (makeEntry d s).size = printNat s.kilobytes ↔ s.kilobytes < 10 ^ 7 :=
  field_iff s.kilobytes s.kilobytes fun _ => rfl

/-! ### Processes over time -/

theorem milliseconds_mono (s s' : Stat) (hu : s.utime ≤ s'.utime) (hs : s.stime ≤ s'.stime) :
    s.milliseconds ≤ s'.milliseconds :=
  Nat.mul_le_mul_right 1000
    (Nat.add_le_add (Nat.div_le_div_right hs) (Nat.div_le_div_right hu))

theorem cputime_mono (d d' : Dirent) (s s' : Stat) (hu : s.utime ≤ s'.utime)
    (hs : s.stime ≤ s'.stime) (hlt : s'.milliseconds < 10 ^ 7) :
    digitsValue (makeEntry d s).cputime ≤ digitsValue (makeEntry d' s').cputime := by
  have hle := milliseconds_mono s s' hu hs
  rw [(cputime_iff d s).mpr (Nat.lt_of_le_of_lt hle hlt), (cputime_iff d' s').mpr hlt,
    digitsValue_printNat, digitsValue_printNat]
  exact hle

def FullNumbers (d : Dirent) (s : Stat) : Prop :=
  (makeEntry d s).cputime = printNat s.milliseconds ∧ (makeEntry d s).size = printNat s.kilobytes

/-- An entry holds both numbers in full exactly when they are below ten million, and
reported CPU time does not decrease towards a time for which it is. -/
theorem entry_numbers_iff (d : Dirent) (s : Stat) :
    (FullNumbers d s ↔ s.milliseconds < 10 ^ 7 ∧ s.kilobytes < 10 ^ 7) ∧
      ∀ (d' : Dirent) (s' : Stat), s.utime ≤ s'.utime → s.stime ≤ s'.stime →
        s'.milliseconds < 10 ^ 7 →
        digitsValue (makeEntry d s).cputime ≤ digitsValue (makeEntry d' s').cputime :=
  ⟨and_congr (cputime_iff d s) (size_iff d s), fun d' s' => cputime_mono d d' s s'⟩

def daemonStat (seconds : ℕ) : Stat := ⟨"daemon".toList, 'S', seconds * CLK_TCK, 0, 20, 2 ^ 20⟩

def daemonDirent : Dirent := ⟨"7".toList, true, none, none, true⟩

theorem entry_numbers_sample :
    FullNumbers daemonDirent (daemonStat 9998) ∧
      digitsValue (makeEntry daemonDirent (daemonStat 9998)).cputime ≤
        digitsValue (makeEntry daemonDirent (daemonStat 9999)).cputime := by
  obtain ⟨hfull, hmono⟩ := entry_numbers_iff daemonDirent (daemonStat 9998)
  exact ⟨hfull.mpr (by decide), hmono daemonDirent (daemonStat 9999) (by decide) (by decide)
    (by decide)⟩

/-- One second later the last digit is lost, and CPU time falls to a tenth. -/
theorem cputime_loses_digit :
    ¬((∀ d s, FullNumbers d s) ∧ ∀ (d d' : Dirent) (s s' : Stat), s.utime ≤ s'.utime →
      s.stime ≤ s'.stime →
      digitsValue (makeEntry d s).cputime ≤ digitsValue (makeEntry d' s').cputime) := by
  rintro ⟨-, hmono⟩
  have h := hmono daemonDirent daemonDirent (daemonStat 9999) (daemonStat 10000) (by decide)
    (by decide)
  exact absurd h (by decide)

end Sysmngr.Processes
