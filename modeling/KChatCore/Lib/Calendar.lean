import Mathlib

/-!
# `Lib.Calendar` — the proleptic Gregorian calendar, month by month

* `isLeap`, `daysInMonth` — the rules of the calendar.
* `monthStart` — the first day of a month, counted from the first of January 1970. `monthStart_epoch` and
  `monthStart_next` say that it is: from there every month begins where the one before it ends.
* `InMonth` — a day falls into a month.
-/

namespace KChatCore.Lib

/-- A leap year. -/
def isLeap (year : Int) : Bool := year % 4 = 0 && (year % 100 ≠ 0 || year % 400 = 0)

/-- The length of a month. -/
def daysInMonth (year : Int) (month : Nat) : Int :=
  if month = 2 then (if isLeap year then 29 else 28)
  else if month = 4 || month = 6 || month = 9 || month = 11 then 30
  else 31

/-- The month after a month. -/
def nextMonth (year : Int) (month : Nat) : Int × Nat := if month = 12 then (year + 1, 1) else (year, month + 1)

/-- The leap years from the year 1 up to a year, without it. -/
def leapsBefore (year : Int) : Int := (year - 1) / 4 - (year - 1) / 100 + (year - 1) / 400

/-- **The first day of a month**, in days since the first of January 1970. -/
def monthStart (year : Int) (month : Nat) : Int :=
  365 * (year - 1970) + (leapsBefore year - leapsBefore 1970) +
    ((List.range (month - 1)).map fun k => daysInMonth year (k + 1)).sum

theorem monthStart_epoch : monthStart 1970 1 = 0 := by decide

/-- A leap year has a day more. -/
theorem leapsBefore_succ (year : Int) : leapsBefore (year + 1) = leapsBefore year + if isLeap year then 1 else 0 := by
  unfold leapsBefore isLeap
  simp only [Bool.and_eq_true, Bool.or_eq_true, decide_eq_true_eq]
  split_ifs <;> omega

/-- The twelve months make a year. -/
theorem sum_daysInMonth (year : Int) :
    ((List.range 12).map fun k => daysInMonth year (k + 1)).sum = 365 + if isLeap year then 1 else 0 := by
  cases hleap : isLeap year <;> simp [List.range_succ, daysInMonth, hleap]

/-- **Every month begins where the one before it ends.** -/
theorem monthStart_next (year : Int) {month : Nat} (h : 1 ≤ month) (h' : month ≤ 12) :
    monthStart (nextMonth year month).1 (nextMonth year month).2 = monthStart year month + daysInMonth year month := by
  obtain ⟨k, rfl⟩ : ∃ k, month = k + 1 := ⟨month - 1, by omega⟩
  have hsum : ((List.range (k + 1)).map fun k => daysInMonth year (k + 1)).sum =
      ((List.range k).map fun k => daysInMonth year (k + 1)).sum + daysInMonth year (k + 1) := by
    simp [List.range_succ]
  by_cases hlast : k + 1 = 12
  · -- over the end of the year
    obtain rfl : k = 11 := by omega
    rw [sum_daysInMonth] at hsum
    simp only [nextMonth, monthStart, if_true, leapsBefore_succ, Nat.sub_self, List.range_zero, List.map_nil,
      List.sum_nil, Nat.add_sub_cancel]
    omega
  · simp only [nextMonth, monthStart, if_neg hlast, Nat.add_sub_cancel]
    omega

/-- **A day falls into a month.** -/
def InMonth (year : Int) (month : Nat) (day : Int) : Prop :=
  monthStart year month ≤ day ∧ day < monthStart (nextMonth year month).1 (nextMonth year month).2

instance (year : Int) (month : Nat) (day : Int) : Decidable (InMonth year month day) := by
  unfold InMonth
  infer_instance

example : InMonth 2024 2 19782 ∧ ¬ InMonth 2023 2 19417 := by decide

end KChatCore.Lib
