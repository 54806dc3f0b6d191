/-
Rounding of exact numbers to integers, over any ordered field with a floor: truncation toward
zero and rounding to nearest with ties away from zero. Truncating a quotient gives the largest
integer whose multiple stays within the dividend, which is how a budget becomes a count.
-/
import Mathlib.Algebra.Order.Floor.Ring
import Mathlib.Algebra.Order.Field.Basic
import Mathlib.Tactic.Linarith
import Mathlib.Tactic.Ring
import Mathlib.Data.Int.ConditionallyCompleteOrder

namespace Rounding

variable {K : Type*} [Field K] [LinearOrder K] [FloorRing K]

/-- Truncation toward zero. -/
def trunc (x : K) : ℤ := if 0 ≤ x then ⌊x⌋ else ⌈x⌉

local instance two_atLeastTwo : Nat.AtLeastTwo 2 := ⟨le_rfl⟩

/-- Rounding to the nearest integer, ties away from zero. -/
def halfUp (x : K) : ℤ := if 0 ≤ x then ⌊x + 1 / 2⌋ else -⌊-x + 1 / 2⌋

/-! ## Truncation -/

theorem le_trunc_iff {x : K} (hx : 0 ≤ x) (n : ℤ) : n ≤ trunc x ↔ (n : K) ≤ x := by
  unfold trunc; rw [if_pos hx]; exact Int.le_floor

variable [IsStrictOrderedRing K]

/-- A count fits the truncated quotient exactly when its cost fits the budget. -/
theorem le_trunc_div_iff {budget unit : K} (hb : 0 ≤ budget) (hu : 0 < unit) (n : ℤ) :
    n ≤ trunc (budget / unit) ↔ (n : K) * unit ≤ budget := by
  rw [le_trunc_iff (div_nonneg hb hu.le), le_div_iff₀ hu]

theorem trunc_div_lt_iff {budget unit : K} (hb : 0 ≤ budget) (hu : 0 < unit) (n : ℤ) :
    trunc (budget / unit) < n ↔ budget < (n : K) * unit := by
  rw [← not_le, ← not_le, le_trunc_div_iff hb hu]

theorem trunc_nonpos {x : K} (hx : x ≤ 0) : trunc x ≤ 0 := by
  unfold trunc
  split
  · rename_i h; rw [le_antisymm hx h, Int.floor_zero]
  · exact Int.ceil_nonpos.2 hx

omit [IsStrictOrderedRing K] in
theorem trunc_nonneg {x : K} (hx : 0 ≤ x) : 0 ≤ trunc x := by
  rw [le_trunc_iff hx, Int.cast_zero]
  exact hx

/-- Truncation keeps the order, so the least of several truncated numbers is the least number truncated. -/
theorem trunc_mono : Monotone (trunc : K → ℤ) := by
  intro x y h
  rcases le_or_gt 0 x with hx | hx
  · unfold trunc
    rw [if_pos hx, if_pos (hx.trans h)]
    exact Int.floor_le_floor h
  · rcases le_or_gt 0 y with hy | hy
    · exact (trunc_nonpos hx.le).trans (trunc_nonneg hy)
    · unfold trunc
      rw [if_neg hx.not_ge, if_neg hy.not_ge]
      exact Int.ceil_le_ceil h

/-- For a positive count the equivalence needs nothing of the budget: a negative one fits no count. -/
theorem trunc_div_lt_iff_of_pos {budget unit : K} (hu : 0 < unit) {n : ℤ} (hn : 0 < n) :
    trunc (budget / unit) < n ↔ budget < (n : K) * unit := by
  rcases le_or_gt 0 budget with hb | hb
  · exact trunc_div_lt_iff hb hu n
  · have h1 : trunc (budget / unit) ≤ 0 := trunc_nonpos (div_nonpos_of_nonpos_of_nonneg hb.le hu.le)
    have h2 : 0 < (n : K) * unit := mul_pos (Int.cast_pos.2 hn) hu
    exact iff_of_true (h1.trans_lt hn) (hb.trans h2)

theorem le_trunc_div_iff_of_pos {budget unit : K} (hu : 0 < unit) {n : ℤ} (hn : 0 < n) :
    n ≤ trunc (budget / unit) ↔ (n : K) * unit ≤ budget := by
  rw [← not_lt, ← not_lt, trunc_div_lt_iff_of_pos hu hn]

/-! ## Differences of truncated quotients -/

omit [IsStrictOrderedRing K] in
theorem trunc_eq_floor {x : K} (hx : 0 ≤ x) : trunc x = ⌊x⌋ := by
  unfold trunc
  rw [if_pos hx]

/-- The room left by truncating the limit and the amount in use one by one: it is the true room where the
remainder of the amount in use is at most that of the limit, and one unit too much elsewhere. -/
theorem add_mul_le_iff {limit used unit : K} (hl : 0 ≤ limit) (hused : 0 ≤ used) (hu : 0 < unit) (n : ℤ) :
    used + n * unit ≤ limit ↔
      n + (if Int.fract (used / unit) ≤ Int.fract (limit / unit) then 0 else 1) ≤
        trunc (limit / unit) - trunc (used / unit) := by
  have hquot : used + n * unit ≤ limit ↔ used / unit + n ≤ limit / unit := by
    rw [le_div_iff₀ hu, add_mul, div_mul_cancel₀ _ hu.ne']
  rw [hquot, trunc_eq_floor (div_nonneg hl hu.le), trunc_eq_floor (div_nonneg hused hu.le)]
  generalize limit / unit = y
  generalize used / unit = x
  have hx := Int.floor_add_fract x
  have hy := Int.floor_add_fract y
  have hx0 := Int.fract_nonneg x
  have hy1 := Int.fract_lt_one y
  split
  · rename_i hle
    rw [add_zero, le_sub_iff_add_le, ← Int.lt_add_one_iff]
    constructor
    · intro h
      have hcast : ((n + ⌊x⌋ : ℤ) : K) < ((⌊y⌋ + 1 : ℤ) : K) := by push_cast; linarith
      exact Int.cast_lt.1 hcast
    · intro h
      have hcast : ((n + ⌊x⌋ : ℤ) : K) ≤ (⌊y⌋ : K) := Int.cast_le.2 (Int.lt_add_one_iff.1 h)
      push_cast at hcast
      linarith
  · rename_i hgt
    have hx1 := Int.fract_lt_one x
    have hy0 := Int.fract_nonneg y
    rw [le_sub_iff_add_le, add_right_comm, Int.add_one_le_iff]
    constructor
    · intro h
      have hcast : ((n + ⌊x⌋ : ℤ) : K) < (⌊y⌋ : K) := by push_cast; linarith
      exact Int.cast_lt.1 hcast
    · intro h
      have hcast : ((n + ⌊x⌋ + 1 : ℤ) : K) ≤ (⌊y⌋ : K) := Int.cast_le.2 h
      push_cast at hcast
      linarith

/-! ## Rounding to nearest -/

theorem halfUp_intCast (n : ℤ) : halfUp (n : K) = n := by
  unfold halfUp
  have h2 : ⌊(1 / 2 : K)⌋ = 0 := by
    rw [Int.floor_eq_zero_iff]; constructor <;> norm_num
  split
  · rw [Int.floor_intCast_add, h2, add_zero]
  · rw [← Int.cast_neg, Int.floor_intCast_add, h2]; ring

/-- A nonnegative number rounds to zero exactly when it is below one half. -/
theorem halfUp_eq_zero_iff {x : K} (hx : 0 ≤ x) : halfUp x = 0 ↔ x < 1 / 2 := by
  unfold halfUp
  rw [if_pos hx, Int.floor_eq_zero_iff, Set.mem_Ico]
  constructor
  · rintro ⟨-, h⟩; linarith
  · intro h; constructor <;> linarith

/-- Rounding to nearest keeps the order. -/
theorem halfUp_mono {x y : K} (h : x ≤ y) : halfUp x ≤ halfUp y := by
  unfold halfUp
  split
  · rename_i hx
    rw [if_pos (hx.trans h)]
    exact Int.floor_le_floor (by linarith)
  · rename_i hx
    split
    · rename_i hy
      have h1 : 0 ≤ ⌊-x + 1 / 2⌋ := Int.floor_nonneg.2 (by linarith)
      have h2 : 0 ≤ ⌊y + 1 / 2⌋ := Int.floor_nonneg.2 (by linarith)
      omega
    · exact neg_le_neg (Int.floor_le_floor (by linarith))

/-- A number rounds below a positive count exactly when it is below it by more than one half. -/
theorem halfUp_lt_iff {x : K} {n : ℤ} (hn : 0 < n) : halfUp x < n ↔ x < n - 1 / 2 := by
  unfold halfUp
  split
  · rw [Int.floor_lt, lt_sub_iff_add_lt]
  · rename_i hx
    rw [not_le] at hx
    have h1 : 0 ≤ ⌊-x + 1 / 2⌋ := Int.floor_nonneg.2 (by linarith)
    have h2 : (1 : K) ≤ n := by exact_mod_cast hn
    exact iff_of_true (by omega) (by linarith)

theorem halfUp_neg (x : K) : halfUp (-x) = -halfUp x := by
  unfold halfUp
  rcases lt_trichotomy x 0 with hx | rfl | hx
  · rw [if_pos (by linarith), if_neg (by linarith), neg_neg]
  · have hzero : ⌊(0 : K) + 1 / 2⌋ = 0 := Int.floor_eq_zero_iff.2 ⟨by norm_num, by norm_num⟩
    rw [neg_zero, if_pos le_rfl, hzero, if_pos le_rfl, neg_zero]
  · rw [if_neg (by linarith), if_pos hx.le, neg_neg]

theorem abs_halfUp_lt_iff {x : K} {n : ℤ} (hn : 0 < n) : |halfUp x| < n ↔ |x| < n - 1 / 2 := by
  rw [abs_lt, abs_lt, halfUp_lt_iff hn, neg_lt, ← halfUp_neg, halfUp_lt_iff hn, neg_lt]

omit [IsStrictOrderedRing K] in
theorem halfUp_le_add_half {x : K} (hx : 0 ≤ x) : (halfUp x : K) ≤ x + 1 / 2 := by
  unfold halfUp; rw [if_pos hx]
  exact Int.floor_le _

/-- A rate of at most one half never rounds up beyond the amount it is taken of. -/
theorem halfUp_mul_le {amount rate : K} (ha : 0 ≤ amount) (hr : 0 ≤ rate) (hr' : rate ≤ 1 / 2) :
    (halfUp (amount * rate) : K) ≤ amount := by
  have hprod : 0 ≤ amount * rate := mul_nonneg ha hr
  have hhalf : amount * rate ≤ amount * (1 / 2) := mul_le_mul_of_nonneg_left hr' ha
  rcases lt_or_ge (amount * rate) (1 / 2) with h | h
  · rw [(halfUp_eq_zero_iff hprod).2 h, Int.cast_zero]; exact ha
  · have hround := halfUp_le_add_half hprod
    linarith

theorem halfUp_nonneg {x : K} (hx : 0 ≤ x) : 0 ≤ halfUp x := by
  unfold halfUp; rw [if_pos hx]
  exact Int.floor_nonneg.2 (by linarith)

theorem halfUp_add_one {x : K} (hx : 0 ≤ x) : halfUp (x + 1) = halfUp x + 1 := by
  unfold halfUp
  rw [if_pos hx, if_pos (by linarith), add_right_comm, Int.floor_add_one]

/-! ## An amount with a rounded share of it on top -/

/-- A whole amount with a share of it on top, rounded to nearest. -/
def withShare (rate : K) (amount : ℤ) : ℤ := amount + halfUp (amount * rate)

theorem withShare_zero (rate : K) : withShare rate 0 = 0 := by
  unfold withShare
  rw [Int.cast_zero, zero_mul, zero_add, ← Int.cast_zero, halfUp_intCast]

theorem withShare_neg (rate : K) (amount : ℤ) : withShare rate (-amount) = -withShare rate amount := by
  unfold withShare
  rw [Int.cast_neg, neg_mul, halfUp_neg, neg_add]

/-- Below zero the steps are those above it, mirrored. -/
theorem withShare_step_neg (rate : K) (n : ℤ) :
    withShare rate (n + 1) - withShare rate n = withShare rate (-(n + 1) + 1) - withShare rate (-(n + 1)) := by
  rw [show -(n + 1) + 1 = -n from by ring, withShare_neg, withShare_neg]
  ring

/-- Where the share takes no more than the amount, more is more. -/
theorem withShare_mono {rate : K} (hrate : -1 ≤ rate) : Monotone (withShare rate) := by
  have hstep : ∀ m : ℤ, 0 ≤ m → withShare rate m ≤ withShare rate (m + 1) := by
    intro m hm
    have hm' : (0 : K) ≤ m := Int.cast_nonneg hm
    unfold withShare
    rw [Int.cast_add, Int.cast_one, add_mul, one_mul]
    rcases le_total 0 rate with hpos | hneg
    · have hmono := halfUp_mono (le_add_of_nonneg_right hpos : (m : K) * rate ≤ m * rate + rate)
      omega
    · have hmono := halfUp_mono (by linarith : -((m : K) * rate + rate) ≤ -(m * rate) + 1)
      rw [halfUp_add_one (neg_nonneg.2 (mul_nonpos_of_nonneg_of_nonpos hm' hneg)), halfUp_neg, halfUp_neg] at hmono
      omega
  refine monotone_int_of_le_succ fun n => ?_
  rcases le_or_gt 0 n with hn | hn
  · exact hstep n hn
  · have h := hstep (-(n + 1)) (by omega)
    have hmirror := withShare_step_neg rate n
    omega

/-- Where the share takes more than the amount, more is less. -/
theorem withShare_anti {rate : K} (hrate : rate ≤ -1) : Antitone (withShare rate) := by
  have hstep : ∀ m : ℤ, 0 ≤ m → withShare rate (m + 1) ≤ withShare rate m := by
    intro m hm
    have hm' : (0 : K) ≤ m := Int.cast_nonneg hm
    unfold withShare
    rw [Int.cast_add, Int.cast_one, add_mul, one_mul]
    have hmono := halfUp_mono (by linarith : -((m : K) * rate) + 1 ≤ -(m * rate + rate))
    rw [halfUp_add_one (neg_nonneg.2 (mul_nonpos_of_nonneg_of_nonpos hm' (by linarith))), halfUp_neg, halfUp_neg]
      at hmono
    omega
  refine antitone_int_of_succ_le fun n => ?_
  rcases le_or_gt 0 n with hn | hn
  · exact hstep n hn
  · have h := hstep (-(n + 1)) (by omega)
    have hmirror := withShare_step_neg rate n
    omega

end Rounding
