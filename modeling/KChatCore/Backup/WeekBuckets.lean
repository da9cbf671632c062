import KChatCore.Backup.Compaction

/-!
# `Backup.WeekBuckets` — the week that a bucket of the planner stands for

`weekStartMs` shifts a timestamp by four days, cuts it down to whole weeks and shifts it back. The cut rounds towards zero
and the shift stops at the smallest `i64`, so a timestamp before the first Monday of 1970 is rounded up instead of down:
its bucket starts a week late, after the timestamp itself.

* `mondayOf`, `SameWeek` — the week a timestamp lies in.
* `weekStartMs_eq` — how many weeks late the bucket of a timestamp starts.
* `week_buckets_iff` — which timestamps lie in the week of their bucket, and which pairs share one as they should.
-/

namespace KChatCore.Backup

/-- `WEEK_MS`. -/
def weekMs : Int := 7 * dayMs

/-! ## The weeks -/

/-- A Monday, 00:00 UTC: the epoch was a Thursday. -/
def IsMonday (ms : Int) : Prop := ms % weekMs = 4 * dayMs

/-- The timestamp lies in the week that starts at `start`. -/
def InWeek (start tMs : Int) : Prop := start ≤ tMs ∧ tMs < start + weekMs

/-- The two timestamps lie in one week that starts on a Monday. -/
def SameWeek (s t : Int) : Prop := ∃ monday, IsMonday monday ∧ InWeek monday s ∧ InWeek monday t

/-- The Monday of the week a timestamp lies in. -/
def mondayOf (tMs : Int) : Int := (tMs - 4 * dayMs) / weekMs * weekMs + 4 * dayMs

theorem mondayOf_spec (t : Int) : IsMonday (mondayOf t) ∧ InWeek (mondayOf t) t := by
  unfold IsMonday InWeek mondayOf weekMs dayMs
  omega

/-- **The week of a timestamp is one.** -/
theorem eq_mondayOf {t monday : Int} (hmonday : IsMonday monday) (hweek : InWeek monday t) : monday = mondayOf t := by
  unfold IsMonday at hmonday
  unfold InWeek at hweek
  unfold mondayOf
  simp only [weekMs, dayMs] at *
  omega

theorem sameWeek_iff {s t : Int} : SameWeek s t ↔ mondayOf s = mondayOf t := by
  constructor
  · rintro ⟨monday, hmonday, hs, ht⟩
    exact (eq_mondayOf hmonday hs).symm.trans (eq_mondayOf hmonday ht)
  · intro h
    exact ⟨mondayOf t, (mondayOf_spec t).1, h ▸ (mondayOf_spec s).2, (mondayOf_spec t).2⟩

/-! ## The buckets -/

/-- An `i64` to which seven days can be added. -/
def FitsBucketing (tMs : Int) : Prop := -(2 ^ 63) ≤ tMs ∧ tMs + weekMs < 2 ^ 63

/-- The timestamps that are rounded down: those from the first Monday of 1970 on, and before it the Mondays themselves, as
far as the shift is not cut off. -/
def RoundedDown (tMs : Int) : Prop := 4 * dayMs ≤ tMs ∨ (-(2 ^ 63) + 4 * dayMs ≤ tMs ∧ IsMonday tMs)

instance (tMs : Int) : Decidable (RoundedDown tMs) := by
  unfold RoundedDown IsMonday
  infer_instance

/-- How many weeks after its Monday the bucket of a timestamp starts. -/
def weeksLate (tMs : Int) : Int :=
  if RoundedDown tMs then 0
  -- the last days before the smallest `i64` have their Monday below it
  else if mondayOf tMs < -(2 ^ 63) then 2
  else 1

/-- Truncation rounds up below zero, unless there is nothing to round. -/
theorem tdiv_of_neg {a b : Int} (ha : a < 0) (hb : 0 < b) :
    a.tdiv b = a / b + if b ∣ a then 0 else 1 := by
  rw [Int.tdiv_eq_ediv, Int.sign_eq_one_of_pos hb]
  simp only [not_le.mpr ha, false_or]

theorem weekStartMs_of_shift {t : Int} (hlow : -(2 ^ 63) + 4 * dayMs ≤ t) (hhigh : t + weekMs < 2 ^ 63) :
    weekStartMs t = (t - 4 * dayMs).tdiv weekMs * weekMs + 4 * dayMs := by
  have hshift : satSubI64 t (4 * dayMs) = t - 4 * dayMs := by
    simp only [satSubI64, weekMs, dayMs] at *
    omega
  rw [weekStartMs, hshift]
  rfl

/-- The shift stops at the smallest `i64`, which is no whole number of weeks. -/
theorem weekStartMs_of_clip {t : Int} (hclip : t < -(2 ^ 63) + 4 * dayMs) :
    weekStartMs t = -15250284452 * weekMs + 4 * dayMs := by
  have hshift : satSubI64 t (4 * dayMs) = -(2 ^ 63) := by
    simp only [satSubI64, dayMs] at *
    omega
  rw [weekStartMs, hshift]
  decide +kernel

/-- **How late a bucket starts.** -/
theorem weekStartMs_eq {t : Int} (h : FitsBucketing t) : weekStartMs t = mondayOf t + weeksLate t * weekMs := by
  obtain ⟨hlow, hhigh⟩ := h
  by_cases hclip : t < -(2 ^ 63) + 4 * dayMs
  · rw [weekStartMs_of_clip hclip, weeksLate]
    unfold mondayOf
    split_ifs with hdown hfirst <;> simp only [RoundedDown, weekMs, dayMs] at * <;> omega
  · rw [weekStartMs_of_shift (not_lt.mp hclip) hhigh, weeksLate]
    by_cases hepoch : 4 * dayMs ≤ t
    · -- truncation is the floor
      have hpos : 0 ≤ t - 4 * dayMs := by omega
      have hdown : RoundedDown t := Or.inl hepoch
      rw [Int.tdiv_eq_ediv_of_nonneg hpos, if_pos hdown, Int.zero_mul, Int.add_zero]
      rfl
    · -- and below zero it is the ceiling
      have hneg : t - 4 * dayMs < 0 := by omega
      rw [tdiv_of_neg hneg (by decide)]
      unfold mondayOf
      split_ifs with hdvd hdown hfirst hdown hfirst <;>
        simp only [RoundedDown, IsMonday, weekMs, dayMs] at * <;> omega

theorem weeksLate_eq_zero_iff {t : Int} : weeksLate t = 0 ↔ RoundedDown t := by
  unfold weeksLate
  split_ifs with hdown hfirst
  · simp [hdown]
  · simp [hdown]
  · simp [hdown]

/-- **A bucket that starts on time** is the week of the timestamp. -/
theorem week_of_bucket_iff {t : Int} (h : FitsBucketing t) :
    (InWeek (weekStartMs t) t ∧ IsMonday (weekStartMs t)) ↔ RoundedDown t := by
  rw [← weeksLate_eq_zero_iff]
  have hstart := weekStartMs_eq h
  constructor
  · rintro ⟨hweek, hmonday⟩
    have hsame := eq_mondayOf hmonday hweek
    have hweekPos : weekMs ≠ 0 := by decide
    have hlate : weeksLate t * weekMs = 0 := by omega
    exact (mul_eq_zero.mp hlate).resolve_right hweekPos
  · intro hlate
    rw [hlate, Int.zero_mul, Int.add_zero] at hstart
    rw [hstart]
    exact (mondayOf_spec t).symm

/-- **Week bucketing.** A timestamp lies in the week that starts at its bucket key, and that start is a Monday, exactly if
the timestamp is rounded down. Two timestamps have one key exactly when they lie in one week if both buckets start equally
late, and otherwise only if the weeks differ and the delays do not move them onto each other. -/
theorem week_buckets_iff (s t : Int) (hs : FitsBucketing s) (ht : FitsBucketing t) :
    ((weekStartMs t ≤ t ∧ t < weekStartMs t + 7 * dayMs ∧ weekStartMs t % (7 * dayMs) = 4 * dayMs) ↔ RoundedDown t) ∧
      ((weekStartMs s = weekStartMs t ↔ SameWeek s t) ↔
        weeksLate s = weeksLate t ∨
          (¬ SameWeek s t ∧ mondayOf s + weeksLate s * weekMs ≠ mondayOf t + weeksLate t * weekMs)) := by
  refine ⟨?_, ?_⟩
  · rw [← week_of_bucket_iff ht]
    exact and_assoc.symm
  · rw [sameWeek_iff, weekStartMs_eq hs, weekStartMs_eq ht]
    by_cases hlate : weeksLate s = weeksLate t
    · rw [hlate]
      exact ⟨fun _ => Or.inl rfl, fun _ => Int.add_left_inj _⟩
    · -- two timestamps that are late by different weeks cannot agree in both
      have hmove : ¬ (mondayOf s = mondayOf t ∧
          mondayOf s + weeksLate s * weekMs = mondayOf t + weeksLate t * weekMs) := by
        rintro ⟨hmonday, hkey⟩
        have hdelay : weeksLate s * weekMs = weeksLate t * weekMs := by omega
        exact hlate (mul_right_cancel₀ (by decide) hdelay)
      tauto

/-- A Friday and the Monday before it, in the first full week of 1970. -/
theorem first_week_is_a_bucket :
    (weekStartMs 691200000 ≤ 691200000 ∧ 691200000 < weekStartMs 691200000 + 7 * dayMs ∧
      weekStartMs 691200000 % (7 * dayMs) = 4 * dayMs) ∧
      (weekStartMs 345600000 = weekStartMs 691200000 ↔ SameWeek 345600000 691200000) := by
  have hlaws := week_buckets_iff 345600000 691200000 (by unfold FitsBucketing; decide) (by unfold FitsBucketing; decide)
  exact ⟨hlaws.1.mpr (by decide), hlaws.2.mpr (Or.inl (by decide))⟩

/-- The epoch itself, a Thursday, goes into the bucket of the Monday after it, as that Monday does. -/
theorem epoch_bucket_starts_late :
    ¬ (∀ s t : Int, FitsBucketing s → FitsBucketing t →
      (weekStartMs t ≤ t ∧ t < weekStartMs t + 7 * dayMs ∧ weekStartMs t % (7 * dayMs) = 4 * dayMs) ∧
        (weekStartMs s = weekStartMs t ↔ SameWeek s t)) := by
  intro h
  have hstart := (h 0 0 (by unfold FitsBucketing; decide) (by unfold FitsBucketing; decide)).1.1
  exact absurd hstart (by decide)

end KChatCore.Backup
