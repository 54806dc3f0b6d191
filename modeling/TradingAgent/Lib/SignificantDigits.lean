/-
Rounding to a number of significant decimal digits, ties to even, over any ordered field with a floor. A rounded
number stays below a power of ten exactly if the number is below it by more than half a unit of the last digit.
-/
import TradingAgent.Lib.Rounding
import Mathlib.Data.Int.Log
import Mathlib.Algebra.Order.Field.Power

namespace SignificantDigits

variable {K : Type*} [Field K] [LinearOrder K] [FloorRing K]

local instance two_atLeastTwo : Nat.AtLeastTwo 2 := ⟨le_rfl⟩

/-- Rounding to the nearest integer, ties to even. -/
def halfEven (x : K) : ℤ :=
  if Int.fract x < 1 / 2 then ⌊x⌋
  else if 1 / 2 < Int.fract x then ⌊x⌋ + 1
  else if Even ⌊x⌋ then ⌊x⌋ else ⌊x⌋ + 1

/-- The unit of the last of so many significant digits. -/
def quantum (digits : ℕ) (x : K) : K := 10 ^ (Int.log 10 |x| + 1 - digits)

/-- A number with so many significant digits. -/
def round (digits : ℕ) (x : K) : K := halfEven (x / quantum digits x) * quantum digits x

variable [IsStrictOrderedRing K]

/-! ## Rounding to an integer -/

theorem halfEven_error (x : K) : |(halfEven x : K) - x| ≤ 1 / 2 := by
  have hfloor := Int.floor_add_fract x
  have hnonneg := Int.fract_nonneg x
  have hlt := Int.fract_lt_one x
  rw [abs_le]
  unfold halfEven
  split
  · constructor <;> linarith
  · split
    · push_cast
      constructor <;> linarith
    · split
      · constructor <;> linarith
      · push_cast
        constructor <;> linarith

theorem abs_halfEven_le {x : K} {n : ℤ} (h : |x| ≤ n) : |halfEven x| ≤ n := by
  have herror := halfEven_error x
  have htriangle := abs_sub_abs_le_abs_sub (halfEven x : K) x
  have hlt : ((|halfEven x| : ℤ) : K) < ((n + 1 : ℤ) : K) := by push_cast; linarith
  exact Int.lt_add_one_iff.1 (Int.cast_lt.1 hlt)

theorem le_abs_halfEven {x : K} {n : ℤ} (h : n ≤ |x|) : n ≤ |halfEven x| := by
  have herror := halfEven_error x
  have htriangle := abs_sub_abs_le_abs_sub x (halfEven x : K)
  rw [abs_sub_comm] at htriangle
  have hlt : (n : K) < ((|halfEven x| + 1 : ℤ) : K) := by push_cast; linarith
  exact Int.lt_add_one_iff.1 (Int.cast_lt.1 hlt)

/-- A tie goes to the even number. -/
theorem halfEven_tie {f : ℤ} : halfEven ((f : K) + 1 / 2) = if Even f then f else f + 1 := by
  have hfloor : ⌊(f : K) + 1 / 2⌋ = f := by
    rw [Int.floor_eq_iff]
    constructor <;> linarith
  have hfract : Int.fract ((f : K) + 1 / 2) = 1 / 2 := by
    rw [Int.fract, hfloor, add_sub_cancel_left]
  unfold halfEven
  rw [hfract, hfloor, if_neg (lt_irrefl _), if_neg (lt_irrefl _)]

/-- A number rounds below an even one exactly if it is below it by more than one half. -/
theorem halfEven_lt_iff {x : K} {n : ℤ} (hn : Even n) : halfEven x < n ↔ x < n - 1 / 2 := by
  have herror := abs_le.1 (halfEven_error x)
  constructor
  · intro h
    have hle : (halfEven x : K) ≤ ((n - 1 : ℤ) : K) := Int.cast_le.2 (Int.le_sub_one_of_lt h)
    push_cast at hle
    refine lt_of_le_of_ne (by linarith) ?_
    rintro rfl
    have htie : ((n : K) - 1 / 2) = ((n - 1 : ℤ) : K) + 1 / 2 := by push_cast; ring
    have hodd : ¬ Even (n - 1) := by
      rw [Int.even_sub_one]
      exact not_not.2 hn
    rw [htie, halfEven_tie, if_neg hodd] at h
    omega
  · intro h
    have hlt : (halfEven x : K) < (n : K) := by linarith
    exact Int.cast_lt.1 hlt

theorem neg_lt_halfEven_iff {x : K} {n : ℤ} (hn : Even n) : -n < halfEven x ↔ -(n - 1 / 2 : K) < x := by
  have herror := abs_le.1 (halfEven_error x)
  constructor
  · intro h
    have hle : ((-n + 1 : ℤ) : K) ≤ (halfEven x : K) := Int.cast_le.2 (Int.add_one_le_of_lt h)
    push_cast at hle
    refine lt_of_le_of_ne (by linarith) ?_
    intro heq
    have htie : x = ((-n : ℤ) : K) + 1 / 2 := by rw [← heq]; push_cast; ring
    rw [htie, halfEven_tie, if_pos hn.neg] at h
    omega
  · intro h
    have hlt : ((-n : ℤ) : K) < (halfEven x : K) := by push_cast; linarith
    exact Int.cast_lt.1 hlt

theorem abs_halfEven_lt_iff {x : K} {n : ℤ} (hn : Even n) : |halfEven x| < n ↔ |x| < n - 1 / 2 := by
  rw [abs_lt, abs_lt, halfEven_lt_iff hn, neg_lt_halfEven_iff hn]

/-- A tie above an even number goes to that number. -/
theorem halfEven_le_of_le {x : K} {n : ℤ} (hn : Even n) (h : x ≤ n + 1 / 2) : halfEven x ≤ n := by
  have herror := abs_le.1 (halfEven_error x)
  by_contra hlt
  have hle : ((n + 1 : ℤ) : K) ≤ (halfEven x : K) := Int.cast_le.2 (not_le.1 hlt)
  push_cast at hle
  obtain rfl : x = n + 1 / 2 := le_antisymm h (by linarith)
  rw [halfEven_tie, if_pos hn] at hlt
  exact hlt le_rfl

theorem neg_le_halfEven_of_le {x : K} {n : ℤ} (hn : Even n) (h : -(n + 1 / 2 : K) ≤ x) : -n ≤ halfEven x := by
  have herror := abs_le.1 (halfEven_error x)
  by_contra hlt
  have hle : (halfEven x : K) ≤ ((-n - 1 : ℤ) : K) := Int.cast_le.2 (by omega)
  push_cast at hle
  have htie : x = ((-n - 1 : ℤ) : K) + 1 / 2 := by
    push_cast
    linarith
  have hodd : ¬ Even (-n - 1) := by
    rw [Int.even_sub_one]
    exact not_not.2 hn.neg
  rw [htie, halfEven_tie, if_neg hodd] at hlt
  omega

theorem halfEven_mono : Monotone (halfEven : K → ℤ) := by
  intro x y hxy
  by_contra hlt
  have hx := abs_le.1 (halfEven_error x)
  have hy := abs_le.1 (halfEven_error y)
  have hstep : ((halfEven y + 1 : ℤ) : K) ≤ halfEven x := Int.cast_le.2 (Int.add_one_le_of_lt (not_le.1 hlt))
  push_cast at hstep
  have heq : x = y := by linarith
  rw [heq] at hlt
  exact hlt le_rfl

theorem halfEven_intCast (n : ℤ) : halfEven (n : K) = n := by
  unfold halfEven
  rw [Int.fract_intCast, if_pos (by norm_num), Int.floor_intCast]

theorem halfEven_nonneg {x : K} (hx : 0 ≤ x) : 0 ≤ halfEven x := by
  have hmono := halfEven_mono hx
  rwa [← Int.cast_zero, halfEven_intCast] at hmono

theorem halfEven_nonpos {x : K} (hx : x ≤ 0) : halfEven x ≤ 0 := by
  have hmono := halfEven_mono hx
  rwa [← Int.cast_zero, halfEven_intCast] at hmono

/-! ## Rounding to a unit -/

/-- Rounding to a unit that grows with the number keeps the order, if a number with a smaller unit is not rounded
above one with a larger unit. -/
theorem mono_of_unit {unit : K → K} (hpos : ∀ x, 0 < unit x) (hunit : ∀ {x y}, x ≠ 0 → |x| ≤ |y| → unit x ≤ unit y)
    (hstep : ∀ {x y}, x ≠ 0 → y ≠ 0 → unit x < unit y →
      |(halfEven (x / unit x) : K) * unit x| ≤ |(halfEven (y / unit y) : K) * unit y|) :
    Monotone (fun x => (halfEven (x / unit x) : K) * unit x) := by
  have hnonneg : ∀ {x}, 0 ≤ x → 0 ≤ (halfEven (x / unit x) : K) * unit x := fun hx =>
    mul_nonneg (Int.cast_nonneg (halfEven_nonneg (div_nonneg hx (hpos _).le))) (hpos _).le
  have hnonpos : ∀ {x}, x ≤ 0 → (halfEven (x / unit x) : K) * unit x ≤ 0 := fun hx =>
    mul_nonpos_of_nonpos_of_nonneg
      (Int.cast_nonpos.2 (halfEven_nonpos (div_nonpos_of_nonpos_of_nonneg hx (hpos _).le))) (hpos _).le
  have hsame : ∀ {x y}, x ≤ y → unit x = unit y →
      (halfEven (x / unit x) : K) * unit x ≤ (halfEven (y / unit y) : K) * unit y := by
    intro x y hxy heq
    rw [heq]
    refine mul_le_mul_of_nonneg_right (Int.cast_le.2 (halfEven_mono ?_)) (hpos y).le
    exact div_le_div_of_nonneg_right hxy (hpos y).le
  intro x y hxy
  dsimp only
  rcases le_or_gt x 0 with hx | hx
  · rcases le_or_gt 0 y with hy | hy
    · exact (hnonpos hx).trans (hnonneg hy)
    have hx' : x < 0 := hxy.trans_lt hy
    have hle : unit y ≤ unit x := by
      refine hunit hy.ne ?_
      rw [abs_of_neg hy, abs_of_neg hx']
      linarith
    rcases eq_or_lt_of_le hle with heq | hlt
    · exact hsame hxy heq.symm
    · have habs := hstep hy.ne hx'.ne hlt
      rw [abs_of_nonpos (hnonpos hx), abs_of_nonpos (hnonpos hy.le)] at habs
      linarith
  · have hy : 0 < y := hx.trans_le hxy
    have hle : unit x ≤ unit y := by
      refine hunit hx.ne' ?_
      rw [abs_of_pos hx, abs_of_pos hy]
      exact hxy
    rcases eq_or_lt_of_le hle with heq | hlt
    · exact hsame hxy heq
    · have habs := hstep hx.ne' hy.ne' hlt
      rwa [abs_of_nonneg (hnonneg hx.le), abs_of_nonneg (hnonneg hy.le)] at habs

/-! ## Rounding to digits -/

variable {digits : ℕ}

theorem quantum_pos (x : K) : 0 < quantum digits x := zpow_pos (by norm_num) _

theorem round_zero : round digits (0 : K) = 0 := by
  have hzero : halfEven (0 : K) = 0 := by
    unfold halfEven
    rw [Int.fract_zero, if_pos (by norm_num), Int.floor_zero]
  unfold round
  rw [zero_div, hzero, Int.cast_zero, zero_mul]

/-- The digits of a number lie between two powers of ten. -/
theorem zpow_log_bounds {x : K} (hx : x ≠ 0) :
    (10 : K) ^ Int.log 10 |x| ≤ |x| ∧ |x| < (10 : K) ^ (Int.log 10 |x| + 1) := by
  have hle := Int.zpow_log_le_self (b := 10) (by norm_num) (abs_pos.2 hx)
  have hlt := Int.lt_zpow_succ_log_self (b := 10) (by norm_num) |x|
  push_cast at hle hlt
  exact ⟨hle, hlt⟩

omit [IsStrictOrderedRing K] in
/-- The powers of ten between which a number lies are whole multiples of its quantum. -/
theorem pow_mul_quantum (hdigits : 1 ≤ digits) (x : K) :
    (10 : K) ^ digits * quantum digits x = 10 ^ (Int.log 10 |x| + 1) ∧
      (10 : K) ^ (digits - 1) * quantum digits x = 10 ^ Int.log 10 |x| := by
  unfold quantum
  rw [← zpow_natCast, ← zpow_natCast, ← zpow_add₀ (by norm_num), ← zpow_add₀ (by norm_num)]
  constructor
  · congr 1
    omega
  · congr 1
    omega

theorem abs_round (x : K) : |round digits x| = (|halfEven (x / quantum digits x)| : ℤ) * quantum digits x := by
  unfold round
  rw [abs_mul, abs_of_pos (quantum_pos x), Int.cast_abs]

theorem abs_div_quantum (x : K) : |x / quantum digits x| = |x| / quantum digits x := by
  rw [abs_div, abs_of_pos (quantum_pos x)]

/-- A rounded number lies between the same powers of ten. -/
theorem abs_round_bounds (hdigits : 1 ≤ digits) {x : K} (hx : x ≠ 0) :
    (10 : K) ^ Int.log 10 |x| ≤ |round digits x| ∧ |round digits x| ≤ (10 : K) ^ (Int.log 10 |x| + 1) := by
  have hq : 0 < quantum digits x := quantum_pos x
  obtain ⟨hle, hlt⟩ := zpow_log_bounds hx
  obtain ⟨htop, hbottom⟩ := pow_mul_quantum hdigits x
  rw [← htop, ← hbottom, abs_round]
  constructor
  · have hcount : (((10 : ℤ) ^ (digits - 1) : ℤ) : K) ≤ |x / quantum digits x| := by
      push_cast
      rwa [abs_div_quantum, le_div_iff₀ hq, hbottom]
    have hcast : (((10 : ℤ) ^ (digits - 1) : ℤ) : K) ≤ ((|halfEven (x / quantum digits x)| : ℤ) : K) :=
      Int.cast_le.2 (le_abs_halfEven hcount)
    push_cast at hcast ⊢
    exact mul_le_mul_of_nonneg_right hcast hq.le
  · have hcount : |x / quantum digits x| ≤ (((10 : ℤ) ^ digits : ℤ) : K) := by
      push_cast
      rw [abs_div_quantum, div_le_iff₀ hq, htop]
      exact hlt.le
    have hcast : ((|halfEven (x / quantum digits x)| : ℤ) : K) ≤ (((10 : ℤ) ^ digits : ℤ) : K) :=
      Int.cast_le.2 (abs_halfEven_le hcount)
    push_cast at hcast ⊢
    exact mul_le_mul_of_nonneg_right hcast hq.le

/-- Rounding changes a number by less than a factor of ten. -/
theorem abs_round_le (hdigits : 1 ≤ digits) (x : K) : |round digits x| ≤ 10 * |x| := by
  rcases eq_or_ne x 0 with rfl | hx
  · rw [round_zero, abs_zero, mul_zero]
  · refine (abs_round_bounds hdigits hx).2.trans ?_
    rw [zpow_add_one₀ (by norm_num), mul_comm]
    exact mul_le_mul_of_nonneg_left (zpow_log_bounds hx).1 (by norm_num)

/-! ## Below a power of ten -/

variable (K) in
/-- A power of ten less a unit of the last digit, or half of one, is still at least the power of ten before. -/
theorem zpow_pred_le (hdigits : 1 ≤ digits) (k : ℤ) :
    (10 : K) ^ (k - 1) ≤ 10 ^ k - 10 ^ (k - digits) ∧ (0 : K) < 10 ^ (k - digits) := by
  have hpos : (0 : K) < 10 ^ (k - digits) := zpow_pos (by norm_num) _
  have hle : (10 : K) ^ (k - digits) ≤ 10 ^ (k - 1) := zpow_le_zpow_right₀ (by norm_num) (by omega)
  have hten : (10 : K) ^ k = 10 * 10 ^ (k - 1) := by
    rw [← zpow_one_add₀ (by norm_num)]
    congr 1
    omega
  exact ⟨by linarith, hpos⟩

omit [IsStrictOrderedRing K] in
/-- The unit of a number whose first digit stands right below this power of ten. -/
theorem quantum_of_log {x : K} {k : ℤ} (hlog : Int.log 10 |x| + 1 = k) : quantum digits x = 10 ^ (k - digits) := by
  unfold quantum
  rw [hlog]

/-- A rounded number stays below a power of ten exactly if the number is below it by more than half a unit. -/
theorem abs_round_lt_iff (hdigits : 1 ≤ digits) {x : K} (k : ℤ) :
    |round digits x| < 10 ^ k ↔ |x| < 10 ^ k - 10 ^ (k - digits) / 2 := by
  obtain ⟨hpred, hunit⟩ := zpow_pred_le K hdigits k
  have hpos : (0 : K) < 10 ^ (k - 1) := zpow_pos (by norm_num) _
  rcases eq_or_ne x 0 with rfl | hx
  · rw [round_zero, abs_zero]
    exact iff_of_true (by linarith) (by linarith)
  obtain ⟨hle, hlt⟩ := zpow_log_bounds hx
  obtain ⟨hlower, hupper⟩ := abs_round_bounds hdigits hx
  rcases lt_trichotomy (Int.log 10 |x| + 1) k with hlog | hlog | hlog
  · -- the number has a digit less than the power of ten
    have hbound : (10 : K) ^ (Int.log 10 |x| + 1) ≤ 10 ^ (k - 1) := zpow_le_zpow_right₀ (by norm_num) (by omega)
    exact iff_of_true (by linarith) (by linarith)
  · have hq : 0 < quantum digits x := quantum_pos x
    obtain ⟨htop, -⟩ := pow_mul_quantum hdigits x
    have hquantum : quantum digits x = 10 ^ (k - digits) := quantum_of_log hlog
    have heven : Even ((10 : ℤ) ^ digits) := (by decide : Even (10 : ℤ)).pow_of_ne_zero (by omega)
    rw [hlog] at htop
    rw [← htop, abs_round, mul_lt_mul_iff_of_pos_right hq, ← hquantum]
    have hcast : ((|halfEven (x / quantum digits x)| : ℤ) : K) < 10 ^ digits ↔
        |halfEven (x / quantum digits x)| < 10 ^ digits := by
      rw [← Int.cast_lt (R := K)]
      push_cast
      rfl
    rw [hcast, abs_halfEven_lt_iff heven, abs_div_quantum, div_lt_iff₀ hq]
    push_cast
    rw [sub_mul, one_div, inv_mul_eq_div]
  · have hbound : (10 : K) ^ k ≤ 10 ^ Int.log 10 |x| := zpow_le_zpow_right₀ (by norm_num) (by omega)
    exact iff_of_false (by linarith) (by linarith)

/-- A rounded number below a power of ten is below it by at least a unit of the last digit. -/
theorem abs_round_le_of_lt (hdigits : 1 ≤ digits) {x : K} {k : ℤ} (h : |round digits x| < 10 ^ k) :
    |round digits x| ≤ 10 ^ k - 10 ^ (k - digits) := by
  obtain ⟨hpred, hunit⟩ := zpow_pred_le K hdigits k
  have hpos : (0 : K) < 10 ^ (k - 1) := zpow_pos (by norm_num) _
  rcases eq_or_ne x 0 with rfl | hx
  · rw [round_zero, abs_zero]
    linarith
  obtain ⟨hlower, hupper⟩ := abs_round_bounds hdigits hx
  have hlog : Int.log 10 |x| < k := (zpow_lt_zpow_iff_right₀ (by norm_num)).1 (hlower.trans_lt h)
  rcases Int.lt_or_eq_of_le (Int.add_one_le_of_lt hlog) with hlog | hlog
  · have hbound : (10 : K) ^ (Int.log 10 |x| + 1) ≤ 10 ^ (k - 1) := zpow_le_zpow_right₀ (by norm_num) (by omega)
    linarith
  · have hq : 0 < quantum digits x := quantum_pos x
    obtain ⟨htop, -⟩ := pow_mul_quantum hdigits x
    have hquantum : quantum digits x = 10 ^ (k - digits) := quantum_of_log hlog
    rw [hlog] at htop
    rw [← htop, abs_round, mul_lt_mul_iff_of_pos_right hq] at h
    have hcount : |halfEven (x / quantum digits x)| ≤ 10 ^ digits - 1 := by
      have hcast : ((|halfEven (x / quantum digits x)| : ℤ) : K) < (((10 : ℤ) ^ digits : ℤ) : K) := by
        push_cast at h ⊢
        exact h
      exact Int.le_sub_one_of_lt (Int.cast_lt.1 hcast)
    have hcast : ((|halfEven (x / quantum digits x)| : ℤ) : K) ≤ (((10 : ℤ) ^ digits - 1 : ℤ) : K) :=
      Int.cast_le.2 hcount
    push_cast at hcast
    rw [abs_round, ← htop, ← hquantum]
    push_cast
    calc |(halfEven (x / quantum digits x) : K)| * quantum digits x
        ≤ (10 ^ digits - 1) * quantum digits x := mul_le_mul_of_nonneg_right hcast hq.le
      _ = 10 ^ digits * quantum digits x - quantum digits x := by ring

/-- A number that exceeds a power of ten by at most half a unit is rounded to at most that power. -/
theorem abs_round_le_zpow (hdigits : 2 ≤ digits) {x : K} {k : ℤ} (h : |x| ≤ 10 ^ k + 10 ^ (k + 1 - digits) / 2) :
    |round digits x| ≤ 10 ^ k := by
  have hpower : (0 : K) < 10 ^ k := zpow_pos (by norm_num) _
  rcases eq_or_ne x 0 with rfl | hx
  · rw [round_zero, abs_zero]
    exact hpower.le
  have hone : 1 ≤ digits := one_le_two.trans hdigits
  obtain ⟨hle, hlt⟩ := zpow_log_bounds hx
  obtain ⟨hlower, hupper⟩ := abs_round_bounds hone hx
  rcases lt_trichotomy (Int.log 10 |x|) k with hlog | hlog | hlog
  · exact hupper.trans (zpow_le_zpow_right₀ (by norm_num) (by omega))
  · have hq : 0 < quantum digits x := quantum_pos x
    obtain ⟨-, hbottom⟩ := pow_mul_quantum hone x
    have hquantum : quantum digits x = 10 ^ (k + 1 - digits) := by
      unfold quantum
      rw [hlog]
    have heven : Even ((10 : ℤ) ^ (digits - 1)) := (by decide : Even (10 : ℤ)).pow_of_ne_zero (by omega)
    have hquot : |x / quantum digits x| ≤ (((10 : ℤ) ^ (digits - 1) : ℤ) : K) + 1 / 2 := by
      push_cast
      rw [abs_div_quantum, div_le_iff₀ hq, add_mul, hbottom, hlog, hquantum]
      linarith
    have hcount : |halfEven (x / quantum digits x)| ≤ 10 ^ (digits - 1) :=
      abs_le.2 ⟨neg_le_halfEven_of_le heven (abs_le.1 hquot).1, halfEven_le_of_le heven (abs_le.1 hquot).2⟩
    have hcast : ((|halfEven (x / quantum digits x)| : ℤ) : K) ≤ (((10 : ℤ) ^ (digits - 1) : ℤ) : K) :=
      Int.cast_le.2 hcount
    push_cast at hcast
    rw [abs_round, ← hlog, ← hbottom]
    push_cast
    exact mul_le_mul_of_nonneg_right hcast hq.le
  · -- the number has a digit more than the power of ten
    have hbound : (10 : K) ^ (k + 1) ≤ 10 ^ Int.log 10 |x| := zpow_le_zpow_right₀ (by norm_num) (by omega)
    have hunit : (10 : K) ^ (k + 1 - digits) ≤ 10 ^ k := zpow_le_zpow_right₀ (by norm_num) (by omega)
    rw [zpow_add_one₀ (by norm_num)] at hbound
    linarith

end SignificantDigits
