import Sysmngr.Text

/-!
# Broken-down time

`gmtime` on the proleptic Gregorian calendar, by counting days in 400-year eras
that begin on 1 March, and the ISO 8601 form `strftime` prints of it.
-/

namespace Sysmngr.Calendar
open Text

structure Tm where
  sec : ℤ
  min : ℤ
  hour : ℤ
  mday : ℤ
  mon : ℤ
  year : ℤ
  deriving DecidableEq, Repr

/-- Year, month (from 0) and day of the month of a day counted from 1970-01-01. -/
def civil (days : ℤ) : ℤ × ℤ × ℤ :=
  let z := days + 719468
  let era := z / 146097
  let doe := z % 146097
  let yoe := (doe - doe / 1460 + doe / 36524 - doe / 146096) / 365
  let doy := doe - (365 * yoe + yoe / 4 - yoe / 100)
  let mp := (5 * doy + 2) / 153
  let mon := if mp < 10 then mp + 2 else mp - 10
  let year := yoe + era * 400 + (if mon ≤ 1 then 1 else 0)
  (year, mon, doy - (153 * mp + 2) / 5 + 1)

def gmtime (t : ℤ) : Tm :=
  let (year, mon, mday) := civil (t / 86400)
  let s := t % 86400
  ⟨s % 60, s / 60 % 60, s / 3600, mday, mon, year⟩

example : gmtime 1727037285 = ⟨45, 34, 20, 22, 8, 2024⟩ := by decide

/-! ### Ranges and repetition -/

/-- 1970-01-01 was a Thursday; Sunday is 0. -/
def weekday (t : ℤ) : ℤ := (t / 86400 + 4) % 7

/-- 400 years of the calendar, a whole number of weeks. -/
def eraSeconds : ℤ := 146097 * 86400

theorem civil_add_era (days : ℤ) :
    civil (days + 146097) = ((civil days).1 + 400, (civil days).2) := by
  have hera : (days + 146097 + 719468) / 146097 = (days + 719468) / 146097 + 1 := by omega
  have hdoe : (days + 146097 + 719468) % 146097 = (days + 719468) % 146097 := by omega
  have hsum : ∀ y e i : ℤ, y + (e + 1) * 400 + i = y + e * 400 + i + 400 := by omega
  simp only [civil, hera, hdoe, hsum]

theorem gmtime_add_era (t : ℤ) :
    gmtime (t + eraSeconds) = { gmtime t with year := (gmtime t).year + 400 } := by
  have hdays : (t + eraSeconds) / 86400 = t / 86400 + 146097 := by
    unfold eraSeconds
    omega
  have hsec : (t + eraSeconds) % 86400 = t % 86400 := by
    unfold eraSeconds
    omega
  simp only [gmtime, hdays, hsec, civil_add_era]

theorem weekday_add_era (t : ℤ) : weekday (t + eraSeconds) = weekday t := by
  unfold weekday eraSeconds
  omega

theorem doy_range (doe yoe : ℤ) (h0 : 0 ≤ doe) (h1 : doe < 146097)
    (hyoe : yoe = (doe - doe / 1460 + doe / 36524 - doe / 146096) / 365) :
    0 ≤ doe - (365 * yoe + yoe / 4 - yoe / 100) := by
  have hcentury : doe / 36524 = 0 ∨ doe / 36524 = 1 ∨ doe / 36524 = 2 ∨ doe / 36524 = 3 ∨
    doe / 36524 = 4 := by omega
  rcases hcentury with hc | hc | hc | hc | hc
  · have hyears : yoe / 100 = 0 := by omega
    omega
  · have hyears : yoe / 100 = 1 := by omega
    omega
  · have hyears : yoe / 100 = 2 := by omega
    omega
  · have hyears : yoe / 100 = 3 := by omega
    omega
  · have hyears : yoe / 100 = 3 := by omega
    omega

theorem civil_nonneg (days : ℤ) : 0 ≤ (civil days).2.1 ∧ 0 ≤ (civil days).2.2 := by
  simp only [civil]
  generalize hdoe : (days + 719468) % 146097 = doe
  generalize hyoe : (doe - doe / 1460 + doe / 36524 - doe / 146096) / 365 = yoe
  have hdoy := doy_range doe yoe (by omega) (by omega) hyoe.symm
  generalize doe - (365 * yoe + yoe / 4 - yoe / 100) = doy at hdoy
  constructor
  · split <;> omega
  · omega

theorem gmtime_nonneg (t : ℤ) : 0 ≤ (gmtime t).min ∧ 0 ≤ (gmtime t).hour ∧ 0 ≤ (gmtime t).mday ∧
    0 ≤ (gmtime t).mon := by
  obtain ⟨hmon, hmday⟩ := civil_nonneg (t / 86400)
  simp only [gmtime]
  exact ⟨by omega, by omega, hmday, hmon⟩

/-- The fields above the seconds are those of the minute. -/
theorem gmtime_minute (t : ℤ) : gmtime (t / 60 * 60) = { gmtime t with sec := 0 } := by
  have hdays : t / 60 * 60 / 86400 = t / 86400 := by omega
  have hsec : t / 60 * 60 % 86400 % 60 = 0 := by omega
  have hmin : t / 60 * 60 % 86400 / 60 % 60 = t % 86400 / 60 % 60 := by omega
  have hhour : t / 60 * 60 % 86400 / 3600 = t % 86400 / 3600 := by omega
  simp only [gmtime, hdays, hsec, hmin, hhour]

/-! ### Printing -/

def printTwo (z : ℤ) : Str := if z < 10 then '0' :: printInt z else printInt z

/-- `strftime` with `%Y-%m-%dT%H:%M:%SZ` into a buffer of `size` bytes; a text
that does not fit leaves the zeroed buffer empty. -/
def strftimeIso (size : ℕ) (tm : Tm) : Str :=
  let text := printInt tm.year ++ '-' :: printTwo (tm.mon + 1) ++ '-' :: printTwo tm.mday ++
    'T' :: printTwo tm.hour ++ ':' :: printTwo tm.min ++ ':' :: printTwo tm.sec ++ ['Z']
  if text.length < size then text else []

end Sysmngr.Calendar
