/-
Days as integers, counted from the first of January 1970: the days of the civil calendar and of the week.
-/
import Mathlib.Data.Int.Order.Basic
import Mathlib.Algebra.Order.BigOperators.Group.List
import Mathlib.Algebra.Order.Group.Int
import Mathlib.Order.Monotone.Basic
import Mathlib.Algebra.Order.Ring.Int

namespace Calendar

def isLeap (year : ℤ) : Bool := year % 4 = 0 && (year % 100 ≠ 0 || year % 400 = 0)

def daysInMonth (year : ℤ) (month : ℕ) : ℤ :=
  if month = 2 then (if isLeap year then 29 else 28) else if month ∈ [4, 6, 9, 11] then 30 else 31

/-- The days from the start of the first year to the start of a year. -/
def daysBeforeYear (year : ℤ) : ℤ :=
  let y := year - 1
  y * 365 + y / 4 - y / 100 + y / 400

def daysBeforeMonth (year : ℤ) (month : ℕ) : ℤ :=
  ((List.range (month - 1)).map (fun m => daysInMonth year (m + 1))).sum

/-- The number of a date among the days, 1970-01-01 being day 0. -/
def ofDate (year : ℤ) (month day : ℕ) : ℤ := daysBeforeYear year + daysBeforeMonth year month + day - 719163

/-- The day of the week, Monday being 0. -/
def weekday (day : ℤ) : ℤ := (day + 3) % 7

example : weekday (ofDate 2024 2 29) = 3 := by decide +kernel

/-! ## Months in order -/

theorem daysInMonth_bounds (year : ℤ) (month : ℕ) : 28 ≤ daysInMonth year month ∧ daysInMonth year month ≤ 31 := by
  unfold daysInMonth
  split
  · split <;> omega
  · split <;> omega

theorem daysBeforeMonth_succ (year : ℤ) (month : ℕ) :
    daysBeforeMonth year (month + 2) = daysBeforeMonth year (month + 1) + daysInMonth year (month + 1) := by
  unfold daysBeforeMonth
  rw [Nat.add_sub_cancel, show month + 2 - 1 = month + 1 from rfl, List.range_succ, List.map_append,
    List.sum_append]
  simp

/-- Within a year a month ends before a later one begins. -/
theorem daysBeforeMonth_add_le (year : ℤ) {m m' : ℕ} (hm : 1 ≤ m) (h : m < m') :
    daysBeforeMonth year m + daysInMonth year m ≤ daysBeforeMonth year m' := by
  induction m', h using Nat.le_induction with
  | base =>
    obtain ⟨k, rfl⟩ := Nat.exists_eq_add_of_le' hm
    exact (daysBeforeMonth_succ year k).ge
  | succ n hn ih =>
    obtain ⟨k, rfl⟩ := Nat.exists_eq_add_of_le' (hm.trans (Nat.le_of_succ_le hn))
    have hlen := daysInMonth_bounds year (k + 1)
    rw [daysBeforeMonth_succ]
    omega

def daysInYear (year : ℤ) : ℤ := if isLeap year then 366 else 365

/-- The last month ends with the year. -/
theorem daysBeforeMonth_add_december (year : ℤ) :
    daysBeforeMonth year 12 + daysInMonth year 12 = daysInYear year := by
  unfold daysBeforeMonth daysInMonth daysInYear
  simp [List.range_succ]
  split <;> omega

/-- A month ends within its year. -/
theorem daysBeforeMonth_add_le_year (year : ℤ) {month : ℕ} (hm : 1 ≤ month) (hm12 : month ≤ 12) :
    daysBeforeMonth year month + daysInMonth year month ≤ daysInYear year := by
  have hlen := daysInMonth_bounds year 12
  have hlast := daysBeforeMonth_add_december year
  rcases hm12.lt_or_eq with hlt | rfl
  · have hbefore := daysBeforeMonth_add_le year hm hlt
    omega
  · exact hlast.le

theorem daysBeforeMonth_nonneg (year : ℤ) (month : ℕ) : 0 ≤ daysBeforeMonth year month := by
  unfold daysBeforeMonth
  refine List.sum_nonneg fun x hx => ?_
  obtain ⟨m, -, rfl⟩ := List.mem_map.1 hx
  have hlen := daysInMonth_bounds year (m + 1)
  omega

/-- A year ends where the next one begins. -/
theorem daysBeforeYear_succ (year : ℤ) : daysBeforeYear (year + 1) = daysBeforeYear year + daysInYear year := by
  unfold daysBeforeYear daysInYear isLeap
  simp only [Bool.and_eq_true, Bool.or_eq_true, decide_eq_true_eq, ne_eq, decide_not,
    Bool.not_eq_eq_eq_not, Bool.not_true, decide_eq_false_iff_not]
  split <;> omega

/-- A year ends before a later one begins. -/
theorem daysBeforeYear_add_le {year year' : ℤ} (h : year < year') :
    daysBeforeYear year + daysInYear year ≤ daysBeforeYear year' := by
  have hmono : StrictMono daysBeforeYear := by
    refine strictMono_int_of_lt_succ fun y => ?_
    have hlen : 0 < daysInYear y := by
      unfold daysInYear
      split <;> omega
    rw [daysBeforeYear_succ]
    omega
  exact (daysBeforeYear_succ year).ge.trans (hmono.monotone h)

/-- A month ends before a later one begins. -/
theorem ofDate_first_add_le {year year' : ℤ} {m m' : ℕ} (hm : 1 ≤ m) (hm12 : m ≤ 12)
    (h : year < year' ∨ year = year' ∧ m < m') :
    ofDate year m 1 + daysInMonth year m ≤ ofDate year' m' 1 := by
  unfold ofDate
  rcases h with hyear | ⟨rfl, hmonth⟩
  · have hstart := daysBeforeYear_add_le hyear
    have hbefore := daysBeforeMonth_add_le_year year hm hm12
    have hafter := daysBeforeMonth_nonneg year' m'
    omega
  · have hbefore := daysBeforeMonth_add_le year hm hmonth
    omega

/-- A month begins where the one before it in the year ends. -/
theorem ofDate_next_month (year : ℤ) {m : ℕ} (hm : 1 ≤ m) :
    ofDate year (m + 1) 1 = ofDate year m 1 + daysInMonth year m := by
  obtain ⟨k, rfl⟩ := Nat.exists_eq_add_of_le' hm
  have hsucc : daysBeforeMonth year (k + 1 + 1) = _ := daysBeforeMonth_succ year k
  unfold ofDate
  omega

/-- A year begins where the last month of the year before it ends. -/
theorem ofDate_next_year (year : ℤ) : ofDate (year + 1) 1 1 = ofDate year 12 1 + daysInMonth year 12 := by
  have hyear := daysBeforeYear_succ year
  have hlast := daysBeforeMonth_add_december year
  have hfirst : daysBeforeMonth (year + 1) 1 = 0 := rfl
  unfold ofDate
  omega

/-- A date is the first day of a month only if it is written as the first of that month. -/
theorem ofDate_eq_first {year year' : ℤ} {m m' d : ℕ} (hm : 1 ≤ m) (hm12 : m ≤ 12) (hd : 1 ≤ d)
    (hd' : d ≤ daysInMonth year m) (hm' : 1 ≤ m') (hm12' : m' ≤ 12) (h : ofDate year m d = ofDate year' m' 1) :
    year = year' ∧ m = m' ∧ d = 1 := by
  have hday : ofDate year m d = ofDate year m 1 + (d - 1) := by
    unfold ofDate
    omega
  have hcases : (year = year' ∧ m = m') ∨ (year < year' ∨ year = year' ∧ m < m') ∨
      (year' < year ∨ year' = year ∧ m' < m) := by omega
  rcases hcases with ⟨rfl, rfl⟩ | hlt | hlt
  · exact ⟨rfl, rfl, by omega⟩
  · have hend := ofDate_first_add_le hm hm12 hlt
    omega
  · have hend := ofDate_first_add_le hm' hm12' hlt
    have hlen := daysInMonth_bounds year' m'
    omega

/-! ## The month of a day -/

/-- The year of a day: an estimate from the length of four centuries, and a year more or less. -/
def yearOf (day : ℤ) : ℤ :=
  let estimate := 400 * (day + 719162) / 146097 + 1
  if day < ofDate estimate 1 1 then estimate - 1
  else if day < ofDate (estimate + 1) 1 1 then estimate
  else estimate + 1

/-- The last of the first months of a year that has begun by a day. -/
def lastBegun (year day : ℤ) : ℕ → ℕ
  | 0 => 1
  | month + 1 => if ofDate year (month + 1) 1 ≤ day then month + 1 else lastBegun year day month

def monthOf (day : ℤ) : ℕ := lastBegun (yearOf day) day 12

/-- The months in their order, twelve to a year. -/
def monthIndex (day : ℤ) : ℤ := 12 * yearOf day + monthOf day - 1

example : (yearOf (ofDate 2024 2 29), monthOf (ofDate 2024 2 29)) = (2024, 2) := by decide +kernel

theorem ofDate_january (year : ℤ) : ofDate year 1 1 = daysBeforeYear year - 719162 := by
  have hfirst : daysBeforeMonth year 1 = 0 := rfl
  unfold ofDate
  omega

theorem yearOf_spec (day : ℤ) : ofDate (yearOf day) 1 1 ≤ day ∧ day < ofDate (yearOf day + 1) 1 1 := by
  unfold yearOf
  dsimp only
  simp only [ofDate_january, daysBeforeYear]
  split
  · omega
  · split <;> omega

theorem lastBegun_spec {year day : ℤ} (hyear : ofDate year 1 1 ≤ day) (n : ℕ) :
    1 ≤ lastBegun year day n ∧ lastBegun year day n ≤ max 1 n ∧ ofDate year (lastBegun year day n) 1 ≤ day ∧
      ∀ m, lastBegun year day n < m → m ≤ n → day < ofDate year m 1 := by
  induction n with
  | zero => exact ⟨le_rfl, le_rfl, hyear, fun m hm hm0 => by unfold lastBegun at hm; omega⟩
  | succ n ih =>
    unfold lastBegun
    split
    · rename_i hbegun
      exact ⟨by omega, by omega, hbegun, fun m hm hmn => by omega⟩
    · rename_i hnot
      refine ⟨ih.1, by omega, ih.2.2.1, fun m hm hmn => ?_⟩
      rcases Nat.lt_or_eq_of_le hmn with hlt | rfl
      · exact ih.2.2.2 m hm (by omega)
      · omega

/-- A day lies in its month. -/
theorem monthOf_spec (day : ℤ) : 1 ≤ monthOf day ∧ monthOf day ≤ 12 ∧ ofDate (yearOf day) (monthOf day) 1 ≤ day ∧
    day < ofDate (yearOf day) (monthOf day) 1 + daysInMonth (yearOf day) (monthOf day) := by
  obtain ⟨hyear, hnext⟩ := yearOf_spec day
  obtain ⟨hpos, hle, hbegun, hlater⟩ := lastBegun_spec hyear 12
  have hmonth : monthOf day ≤ 12 := hle
  refine ⟨hpos, hmonth, hbegun, ?_⟩
  rcases Nat.lt_or_eq_of_le hmonth with hlt | heq
  · rw [← ofDate_next_month (yearOf day) (show 1 ≤ monthOf day from hpos)]
    exact hlater _ (Nat.lt_succ_self _) hlt
  · rw [heq, ← ofDate_next_year]
    exact hnext

/-- Later days are not in earlier months. -/
theorem monthIndex_mono {a b : ℤ} (h : a ≤ b) : monthIndex a ≤ monthIndex b := by
  obtain ⟨ha, ha12, hbegun, -⟩ := monthOf_spec a
  obtain ⟨hb, hb12, -, hend⟩ := monthOf_spec b
  by_contra hlt
  have hbefore : yearOf b < yearOf a ∨ yearOf b = yearOf a ∧ monthOf b < monthOf a := by
    unfold monthIndex at hlt
    omega
  have hle := ofDate_first_add_le hb hb12 hbefore
  omega

/-! ## Weeks -/

/-- Of seven days in a row one has a given day of the week. -/
theorem exists_weekday (day : ℤ) {w : ℤ} (hw : 0 ≤ w) (hw7 : w < 7) :
    ∃ t, weekday t = w ∧ day ≤ t ∧ t ≤ day + 6 := by
  refine ⟨day + (w - weekday day) % 7, ?_⟩
  unfold weekday
  omega

/-- Days less than a week apart with the same day of the week are equal. -/
theorem eq_of_weekday {s t day : ℤ} (h : weekday s = weekday t) (hs : day ≤ s) (hs6 : s ≤ day + 6)
    (ht : day ≤ t) (ht6 : t ≤ day + 6) : s = t := by
  unfold weekday at h
  omega

end Calendar
