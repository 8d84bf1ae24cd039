import Mathlib.Data.Nat.Basic
import Mathlib.Tactic.DeriveFintype

/-!
# Dates and times

Proleptic Gregorian dates as in Python's `datetime.date`, and times of day on top of them. A `Date` carries the
proofs that its month and day exist. Times are compared and shifted by days through `instant`, the number of
microseconds since the first day of year 1.
-/

namespace LlmStore.Calendar

/-- Gregorian leap years. -/
def isLeap (year : ℕ) : Bool := year % 4 == 0 && (year % 100 != 0 || year % 400 == 0)

/-- `monthrange(year, month)[1]`. -/
def daysInMonth (year month : ℕ) : ℕ :=
  if month = 2 then if isLeap year then 29 else 28
  else if month = 4 ∨ month = 6 ∨ month = 9 ∨ month = 11 then 30
  else 31

theorem daysInMonth_pos (year month : ℕ) : 0 < daysInMonth year month := by
  unfold daysInMonth
  split_ifs <;> omega

structure Date where
  year : ℕ
  month : ℕ
  day : ℕ
  month_pos : 1 ≤ month := by decide
  month_le : month ≤ 12 := by decide
  day_pos : 1 ≤ day := by decide
  day_le : day ≤ daysInMonth year month := by decide
  deriving DecidableEq

namespace Date

/-- `date(year, month, day)` of a day that exists. -/
def ofExists {year month day : ℕ} (h : (1 ≤ month ∧ month ≤ 12) ∧ 1 ≤ day ∧ day ≤ daysInMonth year month) : Date :=
  ⟨year, month, day, h.1.1, h.1.2, h.2.1, h.2.2⟩

/-- `d.replace(day=1)`. -/
def firstDay (d : Date) : Date :=
  { d with day := 1, day_pos := le_refl _, day_le := daysInMonth_pos _ _ }

/-- `d.replace(day=monthrange(d.year, d.month)[1])`. -/
def lastDay (d : Date) : Date :=
  { d with day := daysInMonth d.year d.month, day_pos := daysInMonth_pos _ _, day_le := le_refl _ }

/-- `d.replace(day=1) - timedelta(days=1)`: the last day of the month before. -/
def previousMonthLastDay (d : Date) : Date :=
  if h : d.month = 1 then
    { year := d.year - 1, month := 12, day := 31, day_le := by simp [daysInMonth] }
  else
    { year := d.year
      month := d.month - 1
      day := daysInMonth d.year (d.month - 1)
      month_pos := by have := d.month_pos; omega
      month_le := by have := d.month_le; omega
      day_pos := daysInMonth_pos _ _
      day_le := le_refl _ }

/-- Days in the years before `year`. -/
def daysBeforeYear (year : ℕ) : ℕ :=
  let y := year - 1
  y * 365 + y / 4 - y / 100 + y / 400

/-- Days in the months of `year` before `month`. -/
def daysBeforeMonth (year month : ℕ) : ℕ :=
  (List.range (month - 1)).foldl (fun days i => days + daysInMonth year (i + 1)) 0

/-- `d.toordinal()`. -/
def toOrdinal (d : Date) : ℕ := daysBeforeYear d.year + daysBeforeMonth d.year d.month + d.day

end Date

/-- Dates compare by year, month and day. -/
instance : LE Date :=
  ⟨fun a b => a.year < b.year ∨ a.year = b.year ∧ (a.month < b.month ∨ a.month = b.month ∧ a.day ≤ b.day)⟩

theorem Date.le_iff {a b : Date} :
    a ≤ b ↔ a.year < b.year ∨ a.year = b.year ∧ (a.month < b.month ∨ a.month = b.month ∧ a.day ≤ b.day) := Iff.rfl

theorem Date.le_refl (d : Date) : d ≤ d := .inr ⟨rfl, .inr ⟨rfl, Nat.le_refl _⟩⟩

theorem Date.le_trans {a b c : Date} (hab : a ≤ b) (hbc : b ≤ c) : a ≤ c := by
  rw [Date.le_iff] at *
  omega

theorem Date.le_antisymm {a b : Date} (hab : a ≤ b) (hba : b ≤ a) : a = b := by
  obtain ⟨y, m, d, _, _, _, _⟩ := a
  obtain ⟨y', m', d', _, _, _, _⟩ := b
  rw [Date.le_iff] at hab hba
  simp only [Date.mk.injEq]
  dsimp only at hab hba
  omega

theorem Date.firstDay_le (d : Date) : d.firstDay ≤ d := by
  have := d.day_pos
  rw [Date.le_iff]
  exact .inr ⟨rfl, .inr ⟨rfl, this⟩⟩

/-- Of two dates in order, the later one's month begins with the month of the earlier one or after the earlier one. -/
theorem Date.firstDay_of_le {a b : Date} (h : a ≤ b) : b.firstDay = a.firstDay ∨ ¬ b.firstDay ≤ a := by
  by_cases hm : b.year = a.year ∧ b.month = a.month
  · left
    obtain ⟨hy, hmonth⟩ := hm
    simp only [firstDay, hy, hmonth]
  · right
    rw [Date.le_iff] at h ⊢
    have hfirst : b.firstDay.year = b.year ∧ b.firstDay.month = b.month := ⟨rfl, rfl⟩
    omega

/-- Microseconds in a day. -/
def microsPerDay : ℤ := 86400000000

instance neZero_microsPerDay : @NeZero ℕ Zero.ofOfNat0 86400000000 := ⟨by decide⟩

/-- A UTC datetime. -/
structure Datetime where
  date : Date
  micros : Fin 86400000000
  deriving DecidableEq

/-- A point in time: microseconds since the day before the first day of year 1. -/
abbrev Instant := ℤ

def Datetime.instant (t : Datetime) : Instant := (t.date.toOrdinal : ℤ) * microsPerDay + (t.micros.val : ℤ)

/-- `t + timedelta(days=n)`, where that is a datetime. -/
def addDays (t : Instant) (n : ℤ) : Instant := t + n * microsPerDay

/-- A datetime has this instant: it lies in the years 1 to 9999. -/
def Representable (t : Instant) : Prop := microsPerDay ≤ t ∧ t < 3652060 * microsPerDay

instance (t : Instant) : Decidable (Representable t) := by unfold Representable; infer_instance

/-- `t + timedelta(days=n)`; there is none if the sum overflows. A difference that `timedelta` itself refuses leads
beyond the last year, or before the first. -/
def addDays? (t : Instant) (n : ℤ) : Option Instant := if Representable (addDays t n) then some (addDays t n) else none

/-- `t + timedelta(seconds=n)`, where that is a datetime. -/
def addSeconds (t : Instant) (n : ℤ) : Instant := t + n * 1000000

example : (⟨2026, 5, 1, by decide, by decide, by decide, by decide⟩ : Date).toOrdinal = 739737 := by decide

end LlmStore.Calendar
