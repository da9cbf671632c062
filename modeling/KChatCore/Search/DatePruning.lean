import KChatCore.Archive.Rehydration
import KChatCore.Lib.Calendar
import KChatCore.Search.ColdSearch

/-!
# `Search.DatePruning` — which cold buckets a date filter reads

The write side names a bucket by `defaultTimeBucketForMs`, the read side turns the name back into a range of days with
`daysFromCivil` and skips the bucket where the range misses the filter.

* `daysFromCivil_first` — the read side has the calendar right, in every year.
* `bucketOverlapsDateRange_month` — so a month is skipped only where none of its milliseconds pass the filter.
* `parseBucketRangeMs_bucket` — what the read side makes of a name from the write side.
* `prunesExactly_iff` — the write side counts thirty days to the month and 365 to the year. A message is safe from the
  date filter exactly where that count gives the month of the calendar, or a name the read side cannot read.
-/

namespace KChatCore.Search

open Lib Archive

/-! ## Days of the calendar -/

/-- The two branches of the era are one floor division. -/
theorem era_eq (y : Int) : (if 0 ≤ y then y.tdiv 400 else (y - 399).tdiv 400) = y / 400 := by
  split_ifs with h
  · exact Int.tdiv_eq_ediv_of_nonneg h
  · rw [Int.tdiv_eq_ediv]
    have hsign : Int.sign 400 = 1 := rfl
    split_ifs <;> omega

/-- The closed form behind the eras: years counted from March. -/
theorem daysFromCivil_eq (y : Int) {m : Nat} (hm : 1 ≤ m) (hm' : m ≤ 12) : daysFromCivil y m 1 =
    let march := if m ≤ 2 then y - 1 else y
    365 * march + march / 4 - march / 100 + march / 400 + (153 * ((m : Int) + if 2 < m then -3 else 9) + 2) / 5 -
      719468 := by
  unfold daysFromCivil
  dsimp only
  rw [era_eq]
  generalize (if m ≤ 2 then y - 1 else y) = march
  have hdoy : 0 ≤ 153 * ((m : Int) + if 2 < m then -3 else 9) + 2 := by split_ifs <;> omega
  have hyoe : 0 ≤ march - march / 400 * 400 := by omega
  rw [Int.tdiv_eq_ediv_of_nonneg hdoy, Int.tdiv_eq_ediv_of_nonneg hyoe, Int.tdiv_eq_ediv_of_nonneg hyoe]
  omega

/-- **The read side knows the calendar**: the first of every month, in every year. -/
theorem daysFromCivil_first (y : Int) {m : Nat} (hm : 1 ≤ m) (hm' : m ≤ 12) : daysFromCivil y m 1 = monthStart y m := by
  rw [daysFromCivil_eq y hm hm']
  have hepoch : leapsBefore 1970 = 477 := by decide
  unfold monthStart
  rw [hepoch]
  unfold leapsBefore
  -- a leap day matters from March on, where the years of the closed form turn
  have hleap : (if isLeap y then (1 : Int) else 0) = y / 4 - (y - 1) / 4 - (y / 100 - (y - 1) / 100) +
      (y / 400 - (y - 1) / 400) := by
    unfold isLeap
    simp only [Bool.and_eq_true, Bool.or_eq_true, decide_eq_true_eq]
    split_ifs <;> omega
  have hfebruary : daysInMonth y 2 = 28 + if isLeap y then 1 else 0 := by
    unfold daysInMonth
    cases isLeap y <;> rfl
  have hother : ∀ m, m ≠ 2 → daysInMonth y m = if m = 4 || m = 6 || m = 9 || m = 11 then 30 else 31 :=
    fun m hm => if_neg hm
  interval_cases m <;> simp [List.range_succ, hfebruary, hother, hleap] <;> omega

/-! ## Names of buckets -/

/-- The value of a row of digits. -/
def digitsValue (digits : List Char) : Nat := digits.foldl (fun n c => n * 10 + (c.toNat - 48)) 0

theorem digitsValue_append (digits : List Char) (c : Char) :
    digitsValue (digits ++ [c]) = digitsValue digits * 10 + (c.toNat - 48) := by
  unfold digitsValue
  rw [List.foldl_append]
  rfl

theorem digitsValue_toDigits (n : Nat) : digitsValue (Nat.toDigits 10 n) = n := by
  induction n using Nat.strongRecOn with
  | ind n ih =>
      by_cases hsmall : n < 10
      · rw [Nat.toDigits_of_lt_base hsmall]
        show 0 * 10 + _ = n
        rw [Nat.toNat_digitChar_sub_48_of_lt_ten hsmall]
        omega
      · rw [Nat.toDigits_of_base_le (by omega) (by omega), digitsValue_append, ih _ (by omega),
          Nat.toNat_digitChar_sub_48_of_lt_ten (by omega)]
        omega

/-- The characters of a padded number. -/
def paddedDigits (width n : Nat) : List Char :=
  List.replicate (width - (Nat.toDigits 10 n).length) '0' ++ Nat.toDigits 10 n

theorem zeroPadded_toList (width n : Nat) : (zeroPadded width n).toList = paddedDigits width n := by
  unfold zeroPadded
  rw [String.toList_ofList]
  rfl

theorem isDigit_paddedDigits {width n : Nat} {c : Char} (h : c ∈ paddedDigits width n) : c.isDigit = true := by
  rcases List.mem_append.mp h with h | h
  · rw [(List.mem_replicate.mp h).2]
    decide
  · exact Nat.isDigit_of_mem_toDigits (by omega) (by omega) h

theorem length_paddedDigits {width n : Nat} (hwidth : 0 < width) :
    (paddedDigits width n).length = width ↔ n < 10 ^ width := by
  have hle : (Nat.toDigits 10 n).length ≤ width ↔ n < 10 ^ width := Nat.length_toDigits_le_iff (by omega) hwidth
  unfold paddedDigits
  rw [List.length_append, List.length_replicate]
  omega

theorem digitsValue_paddedDigits (width n : Nat) : digitsValue (paddedDigits width n) = n := by
  have hzeros : ∀ k, digitsValue (List.replicate k '0' ++ Nat.toDigits 10 n) = n := by
    intro k
    induction k with
    | zero => exact digitsValue_toDigits n
    | succ k ih => exact ih
  exact hzeros _

/-- **A padded number is read back.** -/
theorem parseUnsigned_paddedDigits (width n : Nat) : parseUnsigned (paddedDigits width n) = some n := by
  have hempty : (paddedDigits width n).isEmpty = false :=
    List.isEmpty_eq_false_iff.mpr (List.append_ne_nil_of_right_ne_nil _ Nat.toDigits_ne_nil)
  have hsign : (paddedDigits width n).head? ≠ some '+' := by
    intro hplus
    have hdigit := isDigit_paddedDigits (List.mem_of_mem_head? hplus)
    exact absurd hdigit (by decide)
  have hall : (paddedDigits width n).all Char.isDigit = true := List.all_eq_true.mpr fun c hc => isDigit_paddedDigits hc
  unfold parseUnsigned
  simp only [if_neg hsign, hempty, hall, Bool.not_true, Bool.or_self, Bool.false_eq_true, if_false]
  exact congrArg some (digitsValue_paddedDigits width n)

/-- The name of a month. -/
def bucketName (year month : Nat) : String := zeroPadded 4 year ++ "-" ++ zeroPadded 2 month

/-- **What the read side makes of the name of a month**: its days, or nothing when the year has five digits. -/
theorem parseBucketRangeMs_bucketName (year : Nat) {month : Nat} (h : 1 ≤ month) (h' : month ≤ 12) :
    parseBucketRangeMs (bucketName year month) =
      if year ≤ 9999 then
        some (monthStart year month * 86400000, monthStart (nextMonth year month).1 (nextMonth year month).2 * 86400000)
      else none := by
  have hname : (bucketName year month).toList = paddedDigits 4 year ++ '-' :: paddedDigits 2 month := by
    unfold bucketName
    rw [String.toList_append, String.toList_append, zeroPadded_toList, zeroPadded_toList, List.append_assoc]
    rfl
  -- the first dash stands behind the year
  have hdash : ∀ c ∈ paddedDigits 4 year, decide (c ≠ '-') = true := by
    intro c hc
    refine decide_eq_true fun heq => ?_
    have hdigit := isDigit_paddedDigits hc
    rw [heq] at hdigit
    exact absurd hdigit (by decide)
  have hbefore : (bucketName year month).toList.takeWhile (fun c => decide (c ≠ '-')) = paddedDigits 4 year := by
    rw [hname, List.takeWhile_append_of_pos hdash, List.takeWhile_cons_of_neg (by decide), List.append_nil]
  have hafter : (bucketName year month).toList.dropWhile (fun c => decide (c ≠ '-')) = '-' :: paddedDigits 2 month := by
    rw [hname, List.dropWhile_append_of_pos hdash, List.dropWhile_cons_of_neg (by decide)]
  have hmonth : (paddedDigits 2 month).length = 2 := (length_paddedDigits (by omega)).mpr (by omega)
  unfold parseBucketRangeMs
  simp only [hbefore, hafter, hmonth, parseUnsigned_paddedDigits, ne_eq, not_true_eq_false, decide_false, Bool.or_false]
  -- four digits are enough up to 9999
  by_cases hyear : year ≤ 9999
  · have hlength : (paddedDigits 4 year).length = 4 := (length_paddedDigits (by omega)).mpr (by omega)
    have hvalid : ¬ ((decide (month < 1) || decide (12 < month)) = true) := by
      simp only [Bool.or_eq_true, decide_eq_true_eq]
      omega
    simp only [hlength, not_true_eq_false, decide_false, Bool.false_eq_true, if_false, if_neg hvalid, if_pos hyear]
    rw [daysFromCivil_first _ h h']
    unfold nextMonth
    split_ifs with hlast
    · rw [daysFromCivil_first _ le_rfl (by omega)]
      rfl
    · rw [daysFromCivil_first _ (by omega) (by omega)]
  · have hlength : (paddedDigits 4 year).length ≠ 4 := by
      rw [ne_eq, length_paddedDigits (by omega)]
      omega
    simp only [hlength, not_false_eq_true, decide_true, if_true, if_neg hyear]

/-! ## What the date filter skips -/

/-- Where the filter of a query meets the days of a month. -/
theorem bucketOverlapsDateRange_bucketName (query : SearchQuery) (year : Nat) {month : Nat} (h : 1 ≤ month)
    (h' : month ≤ 12) :
    bucketOverlapsDateRange (bucketName year month) query.dateFrom query.dateTo = true ↔ 9999 < year ∨
      (∀ dateTo, query.dateTo = some dateTo → monthStart year month * 86400000 ≤ dateTo) ∧
      ∀ dateFrom, query.dateFrom = some dateFrom →
        dateFrom < monthStart (nextMonth year month).1 (nextMonth year month).2 * 86400000 := by
  unfold bucketOverlapsDateRange
  rw [parseBucketRangeMs_bucketName year h h']
  by_cases hyear : year ≤ 9999
  · simp only [if_pos hyear, Bool.and_eq_true, Option.all_eq_true, decide_eq_true_eq, Nat.not_lt.mpr hyear, false_or]
  · simp only [if_neg hyear, Nat.not_le.mp hyear, true_or]

theorem dateFilterMatches_iff (query : SearchQuery) (t : Int) : dateFilterMatches query t = true ↔
    (∀ dateFrom, query.dateFrom = some dateFrom → dateFrom ≤ t) ∧ ∀ dateTo, query.dateTo = some dateTo → t ≤ dateTo := by
  unfold dateFilterMatches
  simp only [Bool.and_eq_true, Option.all_eq_true, decide_eq_true_eq]

/-- The milliseconds of a month. -/
theorem inMonth_iff (year : Int) (month : Nat) (t : Int) : InMonth year month (t / 86400000) ↔
    monthStart year month * 86400000 ≤ t ∧ t < monthStart (nextMonth year month).1 (nextMonth year month).2 * 86400000 := by
  unfold InMonth
  omega

/-- **A month is skipped only where none of it passes the filter.** -/
theorem bucketOverlapsDateRange_month (query : SearchQuery) (year : Nat) {month : Nat} (h : 1 ≤ month) (h' : month ≤ 12)
    {t : Int} (ht : InMonth year month (t / 86400000)) (hpasses : dateFilterMatches query t = true) :
    bucketOverlapsDateRange (bucketName year month) query.dateFrom query.dateTo = true := by
  rw [inMonth_iff] at ht
  rw [dateFilterMatches_iff] at hpasses
  refine (bucketOverlapsDateRange_bucketName query year h h').mpr (.inr ⟨fun dateTo hto => ?_, fun dateFrom hfrom => ?_⟩)
  · exact ht.1.trans (hpasses.2 dateTo hto)
  · exact (hpasses.1 dateFrom hfrom).trans_lt ht.2

/-- The year the write side counts. -/
def bucketYear (t : Int) : Nat := 1970 + (t.tdiv 1000).toNat / 86400 / 365

/-- The month the write side counts. -/
def bucketMonth (t : Int) : Nat := 1 + min ((t.tdiv 1000).toNat / 86400 % 365 / 30) 11

theorem bucketMonth_bounds (t : Int) : 1 ≤ bucketMonth t ∧ bucketMonth t ≤ 12 := by
  unfold bucketMonth
  omega

theorem secs_neg_iff (t : Int) : t.tdiv 1000 < 0 ↔ t ≤ -1000 := by
  rw [Int.tdiv_eq_ediv]
  have hsign : Int.sign 1000 = 1 := rfl
  split_ifs <;> omega

/-- The last second before the epoch is counted as January 1970. -/
theorem bucket_before_epoch {t : Int} (h : -1000 < t) (h' : t < 0) : bucketYear t = 1970 ∧ bucketMonth t = 1 := by
  have hsecs : t.tdiv 1000 = 0 := by
    rw [Int.tdiv_eq_ediv]
    have hsign : Int.sign 1000 = 1 := rfl
    split_ifs <;> omega
  unfold bucketYear bucketMonth
  rw [hsecs]
  exact ⟨rfl, rfl⟩

theorem defaultTimeBucketForMs_eq (t : Int) : defaultTimeBucketForMs t =
    if t ≤ -1000 then "unknown" else bucketName (bucketYear t) (bucketMonth t) := by
  unfold defaultTimeBucketForMs
  simp only [secs_neg_iff]
  rfl

/-- **Pruning by date never loses a message written at `t`**: its bucket is read by every filter it passes, and a bucket
that is skipped has no message that passes. -/
def PrunesExactly (t : Int) : Prop :=
  (∀ query : SearchQuery, dateFilterMatches query t = true →
    bucketOverlapsDateRange (defaultTimeBucketForMs t) query.dateFrom query.dateTo = true) ∧
  ∀ (query : SearchQuery) (year month : Nat), 1 ≤ year → year ≤ 9999 → 1 ≤ month → month ≤ 12 →
    defaultTimeBucketForMs t = bucketName year month →
    bucketOverlapsDateRange (bucketName year month) query.dateFrom query.dateTo = false →
    dateFilterMatches query t = false

/-- The write side names no month, names one past the year 9999, or names the month of the calendar. -/
def CountsTheCalendar (t : Int) : Prop :=
  t ≤ -1000 ∨ 0 ≤ t ∧ (9999 < bucketYear t ∨ InMonth (bucketYear t) (bucketMonth t) (t / 86400000))

/-- The query for one millisecond. -/
def atMs (t : Int) : SearchQuery := ⟨"", none, none, some t, some t, none, .global⟩

theorem dateFilterMatches_atMs (t : Int) : dateFilterMatches (atMs t) t = true := by
  simp [dateFilterMatches, atMs]

/-- **When the date filter loses no message.** -/
theorem prunesExactly_iff (t : Int) : PrunesExactly t ↔ CountsTheCalendar t := by
  obtain ⟨hmonth, hmonth'⟩ := bucketMonth_bounds t
  have hfirst : (∀ query : SearchQuery, dateFilterMatches query t = true →
      bucketOverlapsDateRange (defaultTimeBucketForMs t) query.dateFrom query.dateTo = true) ↔ CountsTheCalendar t := by
    rw [defaultTimeBucketForMs_eq]
    unfold CountsTheCalendar
    split_ifs with hnegative
    · have hunknown : ∀ dateFrom dateTo, bucketOverlapsDateRange "unknown" dateFrom dateTo = true := by
        have hnone : parseBucketRangeMs "unknown" = none := by decide +kernel
        intro dateFrom dateTo
        unfold bucketOverlapsDateRange
        rw [hnone]
      exact ⟨fun _ => .inl hnegative, fun _ _ _ => hunknown _ _⟩
    · constructor
      · intro hreads
        -- the filter that asks for just this millisecond tells whether the month contains it
        have hown := hreads (atMs t) (dateFilterMatches_atMs t)
        rw [bucketOverlapsDateRange_bucketName _ _ hmonth hmonth'] at hown
        rcases hown with hyear | ⟨hstart, hend⟩
        · refine .inr ⟨?_, .inl hyear⟩
          by_contra hneg
          have hepoch := (bucket_before_epoch (by omega) (by omega) : bucketYear t = 1970 ∧ bucketMonth t = 1)
          omega
        · have hin := (inMonth_iff _ _ _).mpr ⟨hstart t rfl, hend t rfl⟩
          refine .inr ⟨?_, .inr hin⟩
          by_contra hneg
          -- before the epoch the month counted is January 1970, which begins after `t`
          obtain ⟨hyear, hjanuary⟩ : bucketYear t = 1970 ∧ bucketMonth t = 1 :=
            bucket_before_epoch (by omega) (by omega)
          have hstart := hstart t rfl
          rw [hyear, hjanuary] at hstart
          have hepoch : monthStart ((1970 : Nat) : Int) 1 = 0 := monthStart_epoch
          omega
      · rintro (hnegative' | ⟨-, hyear | hin⟩) query hpasses
        · exact absurd hnegative' hnegative
        · exact (bucketOverlapsDateRange_bucketName query _ hmonth hmonth').mpr (.inl hyear)
        · exact bucketOverlapsDateRange_month query _ hmonth hmonth' hin hpasses
  -- the second half is the first, read backwards
  refine ⟨fun h => hfirst.mp h.1, fun h => ⟨hfirst.mpr h, ?_⟩⟩
  intro query year month _ _ _ _ hname hskipped
  by_contra hpasses
  have hreads := hfirst.mpr h query (Bool.not_eq_false _ ▸ hpasses)
  rw [hname, hskipped] at hreads
  exact absurd hreads (by decide)

/-- The first of March 1971 is the sixtieth day of its year, and is counted as February. -/
theorem prunesExactly_fails : ¬ ∀ t, PrunesExactly t := by
  intro h
  have hread := (h 36633600000).1 (atMs 36633600000) (by decide)
  have hskipped : bucketOverlapsDateRange (defaultTimeBucketForMs 36633600000) (some 36633600000) (some 36633600000) =
      false := by decide +kernel
  exact absurd (hskipped.symm.trans hread) (by decide)

end KChatCore.Search
