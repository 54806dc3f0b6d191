/-
Dates shifted by months and by single days. A shift by months keeps the day of the month where the month is
long enough and takes its last day where it is not, so the order of dates is that of their months first.
Dates end with the year 9999, and a shift beyond it fails. What follows for the order of shifted dates does not
depend on the day.
-/
import TradingAgent.Lib.PyDate

namespace PyDate

instance : LT PyDate := ⟨fun a b => a.num < b.num⟩

instance (a b : PyDate) : Decidable (a < b) := inferInstanceAs (Decidable (a.num < b.num))

/-- The number of a date among the days. -/
def toDay (d : PyDate) : ℤ := Calendar.ofDate d.year d.month d.day

/-- The number of the month of a date among the months. -/
def monthIndex (d : PyDate) : ℕ := d.year * 12 + (d.month - 1)

/-- The day after; `none` is an `OverflowError`. -/
def succ? (d : PyDate) : Option PyDate :=
  make? d.year d.month (d.day + 1) <|> make? d.year (d.month + 1) 1 <|> make? (d.year + 1) 1 1

/-- The day before; `none` is an `OverflowError`. -/
def pred? (d : PyDate) : Option PyDate :=
  make? d.year d.month (d.day - 1) <|>
    make? d.year (d.month - 1) (Calendar.daysInMonth d.year (d.month - 1)) <|> make? (d.year - 1) 12 31

/-- A shift by months that keeps the day where it can; `none` is a year after 9999. -/
def addMonths? (d : PyDate) (n : ℕ) : Option PyDate :=
  let year := d.year + (d.month - 1 + n) / 12
  let month := (d.month - 1 + n) % 12 + 1
  make? year month (min (Calendar.daysInMonth year month) d.day)

/-- The month of the last date. -/
def lastMonth : ℕ := 9999 * 12 + 11

example : (make? 2024 1 31 >>= (addMonths? · 1)) = make? 2024 2 29 := by decide +kernel

example : (make? 2024 3 1 >>= pred?) = make? 2024 2 29 := by decide +kernel

/-! ## The order of dates -/

theorem make?_eq_some {year month day : ℤ} {d : PyDate} (h : make? year month day = some d) :
    d.year = year.toNat ∧ d.month = month.toNat ∧ d.day = day.toNat := by
  unfold make? at h
  split at h
  · cases h
    exact ⟨rfl, rfl, rfl⟩
  · cases h

theorem toDay_eq (d : PyDate) : d.toDay = Calendar.ofDate d.year d.month 1 + (d.day - 1) := by
  unfold toDay Calendar.ofDate
  omega

/-- A date of an earlier month is an earlier day. -/
theorem toDay_lt_of_monthIndex_lt {a b : PyDate} (h : a.monthIndex < b.monthIndex) : a.toDay < b.toDay := by
  obtain ⟨-, -, hma, hma12, -, hda⟩ := a.valid
  obtain ⟨-, -, hmb, hmb12, hdb, -⟩ := b.valid
  unfold monthIndex at h
  have hmonths : Calendar.ofDate a.year a.month 1 + Calendar.daysInMonth a.year a.month ≤
      Calendar.ofDate b.year b.month 1 := Calendar.ofDate_first_add_le hma hma12 (by omega)
  rw [toDay_eq, toDay_eq]
  omega

theorem monthIndex_eq_iff {a b : PyDate} : a.monthIndex = b.monthIndex ↔ a.year = b.year ∧ a.month = b.month := by
  obtain ⟨-, -, hma, hma12, -⟩ := a.valid
  obtain ⟨-, -, hmb, hmb12, -⟩ := b.valid
  unfold monthIndex
  omega

/-- Within a month the days are in the order of their numbers. -/
theorem toDay_sub_of_monthIndex_eq {a b : PyDate} (h : a.monthIndex = b.monthIndex) :
    b.toDay - a.toDay = b.day - a.day := by
  obtain ⟨hyear, hmonth⟩ := monthIndex_eq_iff.1 h
  rw [toDay_eq, toDay_eq, hyear, hmonth]
  omega

theorem toDay_lt_iff {a b : PyDate} :
    a.toDay < b.toDay ↔ a.monthIndex < b.monthIndex ∨ a.monthIndex = b.monthIndex ∧ a.day < b.day := by
  rcases lt_trichotomy a.monthIndex b.monthIndex with h | h | h
  · exact iff_of_true (toDay_lt_of_monthIndex_lt h) (.inl h)
  · have hdays := toDay_sub_of_monthIndex_eq h
    omega
  · have hdays := toDay_lt_of_monthIndex_lt h
    omega

theorem lt_iff {a b : PyDate} : a < b ↔ a.toDay < b.toDay := by
  rw [toDay_lt_iff]
  change a.num < b.num ↔ _
  obtain ⟨-, -, hma, hma12, -⟩ := a.valid
  obtain ⟨-, -, hmb, hmb12, -⟩ := b.valid
  have hda := a.day_le
  have hdb := b.day_le
  unfold num monthIndex
  omega

theorem le_iff {a b : PyDate} : a ≤ b ↔ a.toDay ≤ b.toDay := by
  rw [← Int.not_lt, ← lt_iff]
  exact Nat.not_lt.symm

theorem not_lt {a b : PyDate} : ¬ a < b ↔ b ≤ a := Nat.not_lt

theorem toDay_injective : Function.Injective toDay := by
  intro a b h
  have hle := le_iff.2 h.le
  have hge := le_iff.2 h.ge
  have hnum : a.num = b.num := Nat.le_antisymm hle hge
  obtain ⟨-, -, hma, hma12, -⟩ := a.valid
  obtain ⟨-, -, hmb, hmb12, -⟩ := b.valid
  have hda := a.day_le
  have hdb := b.day_le
  unfold num at hnum
  exact PyDate.ext (by omega) (by omega) (by omega)

/-! ## Shifts by months -/

theorem monthIndex_le (d : PyDate) : d.monthIndex ≤ lastMonth := by
  obtain ⟨-, hyear, -, hmonth, -⟩ := d.valid
  unfold monthIndex lastMonth
  omega

theorem monthIndex_addMonths? {d e : PyDate} {n : ℕ} (h : d.addMonths? n = some e) :
    e.monthIndex = d.monthIndex + n := by
  obtain ⟨hyear, hmonth, -⟩ := make?_eq_some h
  unfold monthIndex
  omega

/-- The dates there are: those of a month up to its length. -/
theorem exists_make? (year month day : ℕ) (hyear : 1 ≤ year ∧ year ≤ 9999) (hmonth : 1 ≤ month ∧ month ≤ 12)
    (hday : 1 ≤ day) (hlen : (day : ℤ) ≤ Calendar.daysInMonth year month) :
    ∃ d, make? year month day = some d := by
  unfold make?
  rw [dif_pos (by simp only [Int.toNat_natCast]; exact ⟨hyear.1, hyear.2, hmonth.1, hmonth.2, hday, hlen⟩)]
  exact ⟨_, rfl⟩

/-- A date can be shifted as long as there is a month for it. -/
theorem exists_addMonths? {d : PyDate} {n : ℕ} (h : d.monthIndex + n ≤ lastMonth) :
    ∃ e, d.addMonths? n = some e := by
  obtain ⟨hyear, -, -, -, hday, -⟩ := d.valid
  unfold monthIndex lastMonth at h
  have hlen := Calendar.daysInMonth_bounds (d.year + (d.month - 1 + n) / 12 : ℕ) ((d.month - 1 + n) % 12 + 1)
  obtain ⟨len, hcast⟩ := Int.eq_ofNat_of_zero_le (a := Calendar.daysInMonth
    (d.year + (d.month - 1 + n) / 12 : ℕ) ((d.month - 1 + n) % 12 + 1)) (by omega)
  obtain ⟨e, he⟩ := exists_make? (d.year + (d.month - 1 + n) / 12) ((d.month - 1 + n) % 12 + 1) (min len d.day)
    (by omega) (by omega) (by omega) (by omega)
  refine ⟨e, ?_⟩
  unfold addMonths?
  dsimp only
  rw [hcast, show min (len : ℤ) d.day = (min len d.day : ℕ) by omega]
  exact he

/-- A shift by months goes that many months on, as long as there is a month for it. -/
structure MonthShift {ε : Type*} (shift : PyDate → ℕ → Except ε PyDate) : Prop where
  monthIndex : ∀ {d e : PyDate} {n : ℕ}, shift d n = .ok e → e.monthIndex = d.monthIndex + n
  exists_ok : ∀ {d : PyDate} {n : ℕ}, d.monthIndex + n ≤ lastMonth → ∃ e, shift d n = .ok e

section

variable {ε : Type*} {shift : PyDate → ℕ → Except ε PyDate} (h : MonthShift shift) {d e e' : PyDate} {m n : ℕ}

include h

theorem MonthShift.lastMonth_lt {x : ε} (hx : shift d n = .error x) : lastMonth < d.monthIndex + n := by
  by_contra hle
  obtain ⟨e, he⟩ := h.exists_ok (Nat.not_lt.1 hle)
  rw [hx] at he
  cases he

/-- A shift by more months is a later date. -/
theorem MonthShift.toDay_lt (hmn : m < n) (he : shift d m = .ok e) (he' : shift d n = .ok e') :
    e.toDay < e'.toDay := by
  refine toDay_lt_of_monthIndex_lt ?_
  rw [h.monthIndex he, h.monthIndex he']
  omega

theorem MonthShift.toDay_le (hmn : m ≤ n) (he : shift d m = .ok e) (he' : shift d n = .ok e') :
    e.toDay ≤ e'.toDay := by
  rcases hmn.lt_or_eq with hlt | rfl
  · exact (h.toDay_lt hlt he he').le
  · rw [Except.ok.inj (he.symm.trans he')]

theorem MonthShift.lt_toDay (hn : 1 ≤ n) (he : shift d n = .ok e) : d.toDay < e.toDay :=
  toDay_lt_of_monthIndex_lt (by rw [h.monthIndex he]; omega)

end

/-! ## Neighbouring days -/

theorem valid_range (d : PyDate) : (1 ≤ d.year ∧ d.year ≤ 9999) ∧ (1 ≤ d.month ∧ d.month ≤ 12) ∧ 1 ≤ d.day ∧
    (d.day : ℤ) ≤ Calendar.daysInMonth d.year d.month := by
  have hvalid := d.valid
  tauto

theorem toDay_of_make? {year month day : ℕ} {d : PyDate} (h : make? year month day = some d) :
    d.toDay = Calendar.ofDate year month 1 + (day - 1) := by
  obtain ⟨hy, hm, hd⟩ := make?_eq_some h
  rw [toDay_eq, hy, hm, hd]
  simp only [Int.toNat_natCast]

/-- Every date but the last has a day after it. -/
theorem succ?_spec (d : PyDate) :
    (∃ e, d.succ? = some e ∧ e.toDay = d.toDay + 1) ∨ d.succ? = none ∧ ∀ e : PyDate, e.toDay ≤ d.toDay := by
  obtain ⟨hyear, hmonth, hday, hlen⟩ := d.valid_range
  unfold succ?
  rw [toDay_eq]
  rcases hlen.lt_or_eq with hlt | hlast
  · obtain ⟨e, he⟩ := exists_make? d.year d.month (d.day + 1) hyear hmonth (by omega) (by omega)
    refine .inl ⟨e, ?_, ?_⟩
    · push_cast at he
      simp [he]
    · rw [toDay_of_make? he]
      omega
  · have hsame : make? d.year d.month (d.day + 1) = none := by
      unfold make?
      rw [dif_neg]
      simp only [Int.toNat_natCast]
      omega
    rcases hmonth.2.lt_or_eq with hm | hm
    · have hbounds := Calendar.daysInMonth_bounds d.year (d.month + 1)
      obtain ⟨e, he⟩ := exists_make? d.year (d.month + 1) 1 hyear (by omega) le_rfl (by omega)
      have hstart := Calendar.ofDate_next_month d.year hmonth.1
      refine .inl ⟨e, ?_, ?_⟩
      · push_cast at he
        simp [hsame, he]
      · rw [toDay_of_make? he]
        omega
    · have hnext : make? d.year (d.month + 1) 1 = none := by
        unfold make?
        rw [dif_neg]
        omega
      rcases hyear.2.lt_or_eq with hy | hy
      · have hbounds := Calendar.daysInMonth_bounds (d.year + 1 : ℕ) 1
        obtain ⟨e, he⟩ := exists_make? (d.year + 1) 1 1 (by omega) (by omega) le_rfl
          (by omega)
        have hstart := Calendar.ofDate_next_year d.year
        refine .inl ⟨e, ?_, ?_⟩
        · push_cast at he
          simp [hsame, hnext, he]
        · rw [toDay_of_make? he, hm]
          rw [hm] at hlast
          push_cast
          omega
      · have hafter : make? (d.year + 1) 1 1 = none := by
          unfold make?
          rw [dif_neg]
          omega
        refine .inr ⟨by simp [hsame, hnext, hafter], fun e => ?_⟩
        obtain ⟨-, -, -, hlen'⟩ := e.valid_range
        rw [← toDay_eq, ← Int.not_lt, toDay_lt_iff]
        have hle := e.monthIndex_le
        have hindex : d.monthIndex = lastMonth := by
          unfold monthIndex lastMonth
          omega
        rintro (hmonth' | ⟨hmonth', hday'⟩)
        · omega
        · obtain ⟨hy', hm'⟩ := monthIndex_eq_iff.1 hmonth'
          rw [← hy', ← hm'] at hlen'
          omega

/-- Every date but the first has a day before it. -/
theorem pred?_spec (d : PyDate) :
    (∃ e, d.pred? = some e ∧ e.toDay = d.toDay - 1) ∨ d.pred? = none ∧ ∀ e : PyDate, d.toDay ≤ e.toDay := by
  obtain ⟨hyear, hmonth, hday, hlen⟩ := d.valid_range
  unfold pred?
  rw [toDay_eq]
  rcases hday.lt_or_eq with hlt | hfirst
  · obtain ⟨e, he⟩ := exists_make? d.year d.month (d.day - 1) hyear hmonth (by omega) (by omega)
    refine .inl ⟨e, ?_, ?_⟩
    · rw [Int.ofNat_sub hday] at he
      push_cast at he
      simp [he]
    · rw [toDay_of_make? he]
      omega
  · have hsame : make? d.year d.month (d.day - 1) = none := by
      unfold make?
      rw [dif_neg]
      omega
    rcases hmonth.1.lt_or_eq with hm | hm
    · have hbounds := Calendar.daysInMonth_bounds d.year (d.month - 1)
      obtain ⟨e, he⟩ := exists_make? d.year (d.month - 1)
        (Calendar.daysInMonth d.year (d.month - 1)).toNat hyear (by omega) (by omega) (by omega)
      have hstart : Calendar.ofDate d.year (d.month - 1 + 1) 1 = _ := Calendar.ofDate_next_month d.year (by omega)
      rw [Nat.sub_add_cancel hmonth.1] at hstart
      refine .inl ⟨e, ?_, ?_⟩
      · rw [Int.ofNat_sub hmonth.1, Int.toNat_of_nonneg (by omega)] at he
        push_cast at he
        simp [hsame, he]
      · rw [toDay_of_make? he]
        omega
    · have hprev : make? d.year (d.month - 1) (Calendar.daysInMonth d.year (d.month - 1)) = none := by
        unfold make?
        rw [dif_neg]
        omega
      rcases hyear.1.lt_or_eq with hy | hy
      · have hbounds : Calendar.daysInMonth (d.year - 1 : ℕ) 12 = 31 := rfl
        obtain ⟨e, he⟩ := exists_make? (d.year - 1) 12 31 (by omega) (by omega)
          (by omega) (by omega)
        have hstart := Calendar.ofDate_next_year (d.year - 1)
        rw [sub_add_cancel] at hstart
        have hlast : Calendar.daysInMonth (d.year - 1) 12 = 31 := rfl
        refine .inl ⟨e, ?_, ?_⟩
        · rw [Int.ofNat_sub hyear.1] at he
          push_cast at he
          simp [hsame, hprev, he]
        · rw [toDay_of_make? he, ← hm]
          push_cast [Int.ofNat_sub hyear.1]
          omega
      · have hbefore : make? (d.year - 1) 12 31 = none := by
          unfold make?
          rw [dif_neg]
          omega
        refine .inr ⟨by simp [hsame, hprev, hbefore], fun e => ?_⟩
        obtain ⟨hyear', hmonth', hday', -⟩ := e.valid_range
        rw [← toDay_eq, ← Int.not_lt, toDay_lt_iff]
        unfold monthIndex
        omega

theorem toDay_succ? {d e : PyDate} (h : d.succ? = some e) : e.toDay = d.toDay + 1 := by
  rcases d.succ?_spec with ⟨e', he', hday⟩ | ⟨hnone, -⟩
  · rw [← Option.some.inj (he'.symm.trans h), hday]
  · rw [hnone] at h
    cases h

/-- Dates with one day after them are the same. -/
theorem succ?_inj {a b e : PyDate} (ha : a.succ? = some e) (hb : b.succ? = some e) : a = b := by
  have ha' := toDay_succ? ha
  have hb' := toDay_succ? hb
  exact toDay_injective (by omega)

/-- A date after another has a day before it, and that day has it as the day after. -/
theorem exists_pred? {d e : PyDate} (h : e.toDay < d.toDay) : ∃ prev, d.pred? = some prev ∧ prev.succ? = some d := by
  rcases d.pred?_spec with ⟨prev, hprev, hday⟩ | ⟨-, hleast⟩
  · refine ⟨prev, hprev, ?_⟩
    rcases prev.succ?_spec with ⟨next, hnext, hday'⟩ | ⟨-, hgreatest⟩
    · have hsame : next.toDay = d.toDay := by rw [hday', hday, sub_add_cancel]
      rw [hnext, toDay_injective hsame]
    · have hle := hgreatest d
      omega
  · have hle := hleast e
    omega

end PyDate
