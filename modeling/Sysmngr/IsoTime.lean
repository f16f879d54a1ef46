import Sysmngr.Calendar

/-!
# Reading ISO 8601 times

The second a broken-down time stands for, and the reader of the form of twenty
characters. Years of four digits are those whose printed time reads back as the
second it was printed from.
-/

namespace Sysmngr.Calendar
open Text

/-! ### From the calendar to seconds -/

/-- Day, counted from 1970-01-01, of a year, month (from 0) and day of the month. -/
def daysOf (year mon mday : ℤ) : ℤ :=
  let y := year - (if mon ≤ 1 then 1 else 0)
  let mp := if mon ≤ 1 then mon + 10 else mon - 2
  let yoe := y % 400
  let doy := (153 * mp + 2) / 5 + mday - 1
  y / 400 * 146097 + (365 * yoe + yoe / 4 - yoe / 100 + doy) - 719468

def timegm (tm : Tm) : ℤ :=
  daysOf tm.year tm.mon tm.mday * 86400 + tm.hour * 3600 + tm.min * 60 + tm.sec

example : timegm ⟨45, 34, 20, 22, 8, 2024⟩ = 1727037285 := by decide

/-- A day as its era, year of the era, month from March and day of that month. -/
structure Split (days era yoe mp mday : ℤ) : Prop where
  count : days = era * 146097 + (365 * yoe + yoe / 4 - yoe / 100 + ((153 * mp + 2) / 5 + mday - 1)) -
    719468
  year : 0 ≤ yoe ∧ yoe ≤ 399
  month : 0 ≤ mp ∧ mp ≤ 11
  day : 1 ≤ mday ∧ mday ≤ 31
  printed : civil days = (yoe + era * 400 + (if mp < 10 then 0 else 1),
    if mp < 10 then mp + 2 else mp - 10, mday)

theorem doy_lt (doe yoe : ℤ) (h0 : 0 ≤ doe) (h1 : doe < 146097)
    (hyoe : yoe = (doe - doe / 1460 + doe / 36524 - doe / 146096) / 365) :
    0 ≤ yoe ∧ yoe ≤ 399 ∧ doe - (365 * yoe + yoe / 4 - yoe / 100) ≤ 365 := by
  have hcentury : doe / 36524 = 0 ∨ doe / 36524 = 1 ∨ doe / 36524 = 2 ∨ doe / 36524 = 3 ∨
    doe / 36524 = 4 := by omega
  refine ⟨by omega, by omega, ?_⟩
  rcases hcentury with hc | hc | hc | hc | hc
  · have hyears : yoe / 100 = 0 := by omega
    omega
  · have hyears : yoe / 100 = 1 := by omega
    omega
  · have hyears : yoe / 100 = 2 := by omega
    omega
  · have hyears : yoe / 100 = 3 := by omega
    omega
  · have hyears : yoe / 100 = 3 := by omega
    omega

theorem exists_split (days : ℤ) : ∃ era yoe mp mday, Split days era yoe mp mday := by
  obtain ⟨doe, hdoe⟩ : ∃ doe, (days + 719468) % 146097 = doe := ⟨_, rfl⟩
  obtain ⟨yoe, hyoe⟩ : ∃ yoe, (doe - doe / 1460 + doe / 36524 - doe / 146096) / 365 = yoe := ⟨_, rfl⟩
  obtain ⟨doy, hdoy⟩ : ∃ doy, doe - (365 * yoe + yoe / 4 - yoe / 100) = doy := ⟨_, rfl⟩
  have hlo := doy_range doe yoe (by omega) (by omega) hyoe.symm
  obtain ⟨hy0, hy1, hhi⟩ := doy_lt doe yoe (by omega) (by omega) hyoe.symm
  rw [hdoy] at hlo hhi
  have hmp : 0 ≤ (5 * doy + 2) / 153 ∧ (5 * doy + 2) / 153 ≤ 11 := by omega
  refine ⟨(days + 719468) / 146097, yoe, (5 * doy + 2) / 153,
    doy - (153 * ((5 * doy + 2) / 153) + 2) / 5 + 1, ?_, ⟨hy0, hy1⟩, hmp, ?_, ?_⟩
  · omega
  · omega
  · simp only [civil, hdoe, hyoe, hdoy]
    split <;> simp <;> omega

theorem daysOf_civil (days : ℤ) :
    daysOf (civil days).1 (civil days).2.1 (civil days).2.2 = days := by
  obtain ⟨era, yoe, mp, mday, h⟩ := exists_split days
  obtain ⟨hy0, hy1⟩ := h.year
  obtain ⟨hm0, hm1⟩ := h.month
  have hmod : (yoe + era * 400) % 400 = yoe := by omega
  have hdiv : (yoe + era * 400) / 400 = era := by omega
  rw [h.printed, h.count]
  dsimp only [daysOf]
  by_cases hmp : mp < 10
  · have hmon : ¬mp + 2 ≤ 1 := by omega
    simp only [if_pos hmp, if_neg hmon, add_zero, sub_zero, hmod, hdiv, add_sub_cancel_right]
  · have hmon : mp - 10 ≤ 1 := by omega
    simp only [if_neg hmp, if_pos hmon, add_sub_cancel_right, hmod, hdiv, sub_add_cancel]

theorem timegm_gmtime (t : ℤ) : timegm (gmtime t) = t := by
  have hdays := daysOf_civil (t / 86400)
  simp only [timegm, gmtime, hdays]
  omega

/-- The first second of the year 1000 and of the year 10000. -/
def fourDigitYears (t : ℤ) : Prop := -30610224000 ≤ t ∧ t < 253402300800

instance (t : ℤ) : Decidable (fourDigitYears t) :=
  inferInstanceAs (Decidable (_ ∧ _))

theorem fourDigitYears_iff (t : ℤ) :
    fourDigitYears t ↔ 1000 ≤ (gmtime t).year ∧ (gmtime t).year ≤ 9999 := by
  obtain ⟨era, yoe, mp, mday, h⟩ := exists_split (t / 86400)
  obtain ⟨hy0, hy1⟩ := h.year
  obtain ⟨hm0, hm1⟩ := h.month
  obtain ⟨hd0, hd1⟩ := h.day
  have hcount := h.count
  have hyear : (gmtime t).year = yoe + era * 400 + (if mp < 10 then 0 else 1) := by
    simp only [gmtime, h.printed]
  have hera : era ≤ 1 ∨ era = 2 ∨ (3 ≤ era ∧ era ≤ 23) ∨ era = 24 ∨ 25 ≤ era := by omega
  rw [hyear]
  unfold fourDigitYears
  rcases hera with he | he | he | he | he <;> split <;> omega

theorem gmtime_range (t : ℤ) :
    (0 ≤ (gmtime t).sec ∧ (gmtime t).sec ≤ 59) ∧ (0 ≤ (gmtime t).min ∧ (gmtime t).min ≤ 59) ∧
      (0 ≤ (gmtime t).hour ∧ (gmtime t).hour ≤ 23) ∧
      (1 ≤ (gmtime t).mday ∧ (gmtime t).mday ≤ 31) ∧
      (0 ≤ (gmtime t).mon ∧ (gmtime t).mon ≤ 11) := by
  obtain ⟨era, yoe, mp, mday, h⟩ := exists_split (t / 86400)
  obtain ⟨hm0, hm1⟩ := h.month
  simp only [gmtime, h.printed]
  refine ⟨by omega, by omega, by omega, h.day, ?_⟩
  split <;> omega

/-! ### From the text to the calendar -/

/-- A number of exactly `n` digits in front of a rest. -/
def fixedDigits (n : ℕ) (s : Str) : Option (ℤ × Str) :=
  if (s.take n).length = n ∧ (s.take n).all Char.isDigit = true then
    some ((digitsValue (s.take n) : ℤ), s.drop n)
  else none

def expect (c : Char) : Str → Option Str
  | [] => none
  | d :: s => if d = c then some s else none

/-- The reader of `YYYY-MM-DDThh:mm:ssZ`. -/
def readIso (s : Str) : Option ℤ := do
  let (year, s) ← fixedDigits 4 s
  let s ← expect '-' s
  let (mon, s) ← fixedDigits 2 s
  let s ← expect '-' s
  let (mday, s) ← fixedDigits 2 s
  let s ← expect 'T' s
  let (hour, s) ← fixedDigits 2 s
  let s ← expect ':' s
  let (min, s) ← fixedDigits 2 s
  let s ← expect ':' s
  let (sec, s) ← fixedDigits 2 s
  let s ← expect 'Z' s
  if s = [] then some (timegm ⟨sec, min, hour, mday, mon - 1, year⟩) else none

example : readIso "2024-09-22T20:34:45Z".toList = some 1727037285 := by decide

@[simp] theorem expect_self (c : Char) (s : Str) : expect c (c :: s) = some s := by
  simp [expect]

theorem fixedDigits_append (n : ℕ) (w s : Str) (hlen : w.length = n)
    (hw : ∀ c ∈ w, c.isDigit = true) : fixedDigits n (w ++ s) = some ((digitsValue w : ℤ), s) := by
  have htake : (w ++ s).take n = w := by rw [← hlen, List.take_left]
  have hdrop : (w ++ s).drop n = s := by rw [← hlen, List.drop_left]
  rw [fixedDigits, htake, hdrop, if_pos ⟨hlen, List.all_eq_true.mpr hw⟩]

theorem printInt_nonneg (z : ℤ) (h : 0 ≤ z) : printInt z = printNat z.toNat := by
  have habs : z.natAbs = z.toNat := by omega
  rw [printInt, if_neg (Int.not_lt.mpr h), habs]

theorem printNat_length_iff (n k : ℕ) (hk : 0 < k) : (printNat n).length ≤ k ↔ n < 10 ^ k :=
  Nat.length_toDigits_le_iff (by decide) hk

theorem fixedDigits_printTwo (z : ℤ) (s : Str) (h0 : 0 ≤ z) (h1 : z ≤ 99) :
    fixedDigits 2 (printTwo z ++ s) = some (z, s) := by
  have hdigits := printNat_isDigit z.toNat
  have hvalue := digitsValue_printNat z.toNat
  have hback : (z.toNat : ℤ) = z := by omega
  have htwo := printNat_length_iff z.toNat 2 (by decide)
  have hone := printNat_length_iff z.toNat 1 (by decide)
  have hne := List.length_pos_of_ne_nil (printNat_ne_nil z.toNat)
  rw [printTwo, printInt_nonneg z h0]
  split
  · rw [fixedDigits_append 2 ('0' :: printNat z.toNat) s (by rw [List.length_cons]; omega)
      (List.forall_mem_cons.mpr ⟨by decide, hdigits⟩)]
    have hzero : digitsValue ('0' :: printNat z.toNat) = digitsValue (printNat z.toNat) := by
      simp [digitsValue, Nat.ofDigitChars]
    rw [hzero, hvalue, hback]
  · rw [fixedDigits_append 2 (printNat z.toNat) s (by omega) hdigits, hvalue, hback]

/-- What follows the year in the printed form. -/
def afterYear (tm : Tm) : Str :=
  printTwo (tm.mon + 1) ++ '-' :: (printTwo tm.mday ++ 'T' :: (printTwo tm.hour ++
    ':' :: (printTwo tm.min ++ ':' :: (printTwo tm.sec ++ ['Z']))))

theorem strftimeIso_eq (size : ℕ) (tm : Tm) :
    strftimeIso size tm =
      if (printInt tm.year ++ '-' :: afterYear tm).length < size then
        printInt tm.year ++ '-' :: afterYear tm
      else [] := by
  have htext : printInt tm.year ++ '-' :: printTwo (tm.mon + 1) ++ '-' :: printTwo tm.mday ++
      'T' :: printTwo tm.hour ++ ':' :: printTwo tm.min ++ ':' :: printTwo tm.sec ++ ['Z'] =
      printInt tm.year ++ '-' :: afterYear tm := by
    simp only [afterYear, List.append_assoc, List.cons_append]
  rw [strftimeIso, htext]

theorem printTwo_length (z : ℤ) (h0 : 0 ≤ z) (h1 : z ≤ 99) : (printTwo z).length = 2 := by
  have htwo := printNat_length_iff z.toNat 2 (by decide)
  have hone := printNat_length_iff z.toNat 1 (by decide)
  have hne := List.length_pos_of_ne_nil (printNat_ne_nil z.toNat)
  rw [printTwo, printInt_nonneg z h0]
  split
  · rw [List.length_cons]
    omega
  · omega

theorem afterYear_length (t : ℤ) : (afterYear (gmtime t)).length = 15 := by
  obtain ⟨⟨hs0, hs1⟩, ⟨hn0, hn1⟩, ⟨hh0, hh1⟩, ⟨hd0, hd1⟩, hm0, hm1⟩ := gmtime_range t
  simp only [afterYear, List.length_append, List.length_cons, List.length_nil]
  rw [printTwo_length _ (by omega) (by omega), printTwo_length _ (by omega) (by omega),
    printTwo_length _ hh0 (by omega), printTwo_length _ hn0 (by omega),
    printTwo_length _ hs0 (by omega)]

theorem readIso_year (w : Str) (t : ℤ) (hlen : w.length = 4) (hw : ∀ c ∈ w, c.isDigit = true) :
    readIso (w ++ '-' :: afterYear (gmtime t)) =
      some (timegm { gmtime t with year := (digitsValue w : ℤ) }) := by
  obtain ⟨⟨hs0, hs1⟩, ⟨hn0, hn1⟩, ⟨hh0, hh1⟩, ⟨hd0, hd1⟩, hm0, hm1⟩ := gmtime_range t
  have hyear := fixedDigits_append 4 w ('-' :: afterYear (gmtime t)) hlen hw
  simp only [afterYear] at hyear ⊢
  simp only [readIso, hyear, Option.bind_eq_bind, Option.bind_some, expect_self,
    fixedDigits_printTwo _ _ (show 0 ≤ (gmtime t).mon + 1 by omega) (by omega),
    fixedDigits_printTwo _ _ (show 0 ≤ (gmtime t).mday by omega) (by omega),
    fixedDigits_printTwo _ _ hh0 (by omega), fixedDigits_printTwo _ _ hn0 (by omega),
    fixedDigits_printTwo _ _ hs0 (by omega), if_true, add_sub_cancel_right]

theorem minus_not_digit : ('-' : Char).isDigit = false := by decide

theorem readIso_early_minus (s : Str) (h : '-' ∈ s.take 4) : readIso s = none := by
  have hfirst : fixedDigits 4 s = none := by
    rw [fixedDigits, if_neg]
    rintro ⟨-, hall⟩
    exact Bool.false_ne_true (minus_not_digit.symm.trans (List.all_eq_true.mp hall '-' h))
  rw [readIso, hfirst]
  rfl

theorem readIso_long_year (w s : Str) (hlen : 4 < w.length) (hw : ∀ c ∈ w, c.isDigit = true) :
    readIso (w ++ s) = none := by
  obtain ⟨d, rest, hd⟩ : ∃ d rest, w.drop 4 = d :: rest :=
    List.exists_cons_of_length_pos (by rw [List.length_drop]; omega)
  have hsplit : w ++ s = w.take 4 ++ d :: (rest ++ s) := by
    conv_lhs => rw [← List.take_append_drop 4 w, hd]
    rw [List.append_assoc, List.cons_append]
  have hfirst := fixedDigits_append 4 (w.take 4) (d :: (rest ++ s))
    (by rw [List.length_take]; omega) fun c hc => hw c (List.mem_of_mem_take hc)
  have hdigit : d.isDigit = true := hw d (List.mem_of_mem_drop (hd ▸ List.mem_cons_self ..))
  have hne : d ≠ '-' := by
    rintro rfl
    exact Bool.false_ne_true (minus_not_digit.symm.trans hdigit)
  have hexpect : expect '-' (d :: (rest ++ s)) = none := if_neg hne
  rw [hsplit]
  simp only [readIso, hfirst, Option.bind_eq_bind, Option.bind_some, hexpect, Option.bind_none]

/-- A year that is not of four digits does not read. -/
theorem readIso_odd_year (year : ℤ) (s : Str) (h : ¬(1000 ≤ year ∧ year ≤ 9999)) :
    readIso (printInt year ++ '-' :: s) = none := by
  by_cases hneg : year < 0
  · apply readIso_early_minus
    rw [printInt, if_pos hneg]
    exact List.mem_cons_self ..
  · have hshort := printNat_length_iff year.toNat 3 (by decide)
    have hlong := printNat_length_iff year.toNat 4 (by decide)
    rw [printInt_nonneg year (Int.not_lt.mp hneg)]
    by_cases hsmall : year < 1000
    · apply readIso_early_minus
      obtain ⟨k, hk⟩ : ∃ k, 4 - (printNat year.toNat).length = k + 1 :=
        ⟨3 - (printNat year.toNat).length, by omega⟩
      rw [List.take_append, hk, List.take_succ_cons]
      exact List.mem_append_right _ (List.mem_cons_self ..)
    · apply readIso_long_year _ _ _ (printNat_isDigit _)
      by_contra hle
      have hlt := hlong.mp (Nat.not_lt.mp hle)
      omega

/-- In a buffer the form fits, the printed time reads back exactly in years of four digits. -/
theorem readIso_strftimeIso (size : ℕ) (hsize : 20 < size) (t : ℤ) :
    readIso (strftimeIso size (gmtime t)) = some t ↔ fourDigitYears t := by
  rw [strftimeIso_eq, fourDigitYears_iff]
  constructor
  · intro hread
    by_contra hyear
    split at hread
    · rw [readIso_odd_year _ _ hyear] at hread
      exact Option.some_ne_none _ hread.symm
    · exact Option.some_ne_none _ hread.symm
  · rintro ⟨hlo, hhi⟩
    have hprint := printInt_nonneg (gmtime t).year (by omega)
    have hshort := printNat_length_iff (gmtime t).year.toNat 4 (by decide)
    have hlong := printNat_length_iff (gmtime t).year.toNat 3 (by decide)
    have hback : ((gmtime t).year.toNat : ℤ) = (gmtime t).year := by omega
    have hlen : (printInt (gmtime t).year).length = 4 := by
      rw [hprint]
      omega
    rw [if_pos (by rw [List.length_append, List.length_cons, afterYear_length, hlen]; omega),
      readIso_year _ t hlen fun c hc => printNat_isDigit _ c (hprint ▸ hc), hprint,
      digitsValue_printNat, hback]
    exact congrArg some (timegm_gmtime t)

end Sysmngr.Calendar
