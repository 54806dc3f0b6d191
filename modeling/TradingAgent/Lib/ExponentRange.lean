/-
Rounding to significant decimal digits with a least exponent: near zero a number has fewer digits. From the first
number with all its digits on, rounding is as without a least exponent.
-/
import TradingAgent.Lib.SignificantDigits

namespace ExponentRange

open SignificantDigits (halfEven)

variable {K : Type*} [Field K] [LinearOrder K] [FloorRing K]

local instance ten_atLeastTwo : Nat.AtLeastTwo 10 := ⟨by decide⟩

/-- The exponent of the last of so many digits, but not below the least. -/
def exponent (digits : ℕ) (least : ℤ) (x : K) : ℤ := max (Int.log 10 |x| + 1 - digits) least

def quantum (digits : ℕ) (least : ℤ) (x : K) : K := 10 ^ exponent digits least x

def round (digits : ℕ) (least : ℤ) (x : K) : K := halfEven (x / quantum digits least x) * quantum digits least x

/-- The first positive number that has so many digits above the least exponent. -/
def firstNormal (K : Type*) [Field K] (digits : ℕ) (least : ℤ) : K := 10 ^ (least + digits - 1)

variable [IsStrictOrderedRing K] {digits : ℕ} {least : ℤ} {x y : K}

theorem quantum_pos : 0 < quantum digits least x := zpow_pos (by norm_num) _

theorem firstNormal_pos : 0 < firstNormal K digits least := zpow_pos (by norm_num) _

/-! ## Numbers with all their digits, and the others -/

omit [IsStrictOrderedRing K] in
theorem exponent_eq (h : least ≤ Int.log 10 |x| + 1 - digits) :
    exponent digits least x = Int.log 10 |x| + 1 - digits := max_eq_left h

omit [IsStrictOrderedRing K] in
theorem round_eq (h : least ≤ Int.log 10 |x| + 1 - digits) :
    round digits least x = SignificantDigits.round digits x := by
  unfold round SignificantDigits.round quantum SignificantDigits.quantum exponent
  rw [max_eq_left h]

/-- A number without all its digits is below the first that has them, and rounded to at most that one. -/
theorem abs_le_firstNormal (hdigits : 1 ≤ digits) (h : Int.log 10 |x| + 1 - digits < least) :
    |x| < firstNormal K digits least ∧ |round digits least x| ≤ firstNormal K digits least := by
  have hsmall : |x| < firstNormal K digits least := by
    rcases eq_or_ne x 0 with rfl | hx
    · rw [abs_zero]
      exact firstNormal_pos
    · exact (SignificantDigits.zpow_log_bounds hx).2.trans_le (zpow_le_zpow_right₀ (by norm_num) (by omega))
  have hquantum : quantum digits least x = 10 ^ least := by
    unfold quantum exponent
    rw [max_eq_right h.le]
  have hunits : firstNormal K digits least = (((10 : ℤ) ^ (digits - 1) : ℤ) : K) * 10 ^ least := by
    unfold firstNormal
    push_cast
    rw [← zpow_natCast, ← zpow_add₀ (by norm_num)]
    congr 1
    omega
  have hpos : (0 : K) < 10 ^ least := zpow_pos (by norm_num) _
  refine ⟨hsmall, ?_⟩
  have hcount : |x / 10 ^ least| ≤ (((10 : ℤ) ^ (digits - 1) : ℤ) : K) := by
    rw [abs_div, abs_of_pos hpos, div_le_iff₀ hpos, ← hunits]
    exact hsmall.le
  have hcast : ((|halfEven (x / 10 ^ least)| : ℤ) : K) ≤ (((10 : ℤ) ^ (digits - 1) : ℤ) : K) :=
    Int.cast_le.2 (SignificantDigits.abs_halfEven_le hcount)
  unfold round
  rw [hquantum, abs_mul, abs_of_pos hpos, hunits, ← Int.cast_abs]
  exact mul_le_mul_of_nonneg_right hcast hpos.le

/-! ## Order -/

theorem round_zero : round digits least (0 : K) = 0 := by
  unfold round
  rw [zero_div, ← Int.cast_zero, SignificantDigits.halfEven_intCast, Int.cast_zero, zero_mul]

theorem round_nonneg (hx : 0 ≤ x) : 0 ≤ round digits least x :=
  mul_nonneg (Int.cast_nonneg (SignificantDigits.halfEven_nonneg (div_nonneg hx quantum_pos.le))) quantum_pos.le

theorem round_mono (hdigits : 1 ≤ digits) : Monotone (round digits least : K → K) := by
  refine SignificantDigits.mono_of_unit (fun _ => quantum_pos) (fun hx h => ?_) fun {x y} hx hy hlt => ?_
  · have hlog := Int.log_mono_right (b := 10) (abs_pos.2 hx) h
    exact zpow_le_zpow_right₀ (by norm_num) (max_le_max_right _ (by omega))
  · have hexponent : exponent digits least x < exponent digits least y :=
      (zpow_lt_zpow_iff_right₀ (by norm_num)).1 hlt
    have hnormal : least < Int.log 10 |y| + 1 - digits := by
      unfold exponent at hexponent
      omega
    have hy' : (10 : K) ^ Int.log 10 |y| ≤ |round digits least y| := by
      rw [round_eq hnormal.le]
      exact (SignificantDigits.abs_round_bounds hdigits hy).1
    refine le_trans ?_ hy'
    rcases le_or_gt least (Int.log 10 |x| + 1 - digits) with hnormal' | hsmall
    · change |round digits least x| ≤ _
      rw [round_eq hnormal']
      refine (SignificantDigits.abs_round_bounds hdigits hx).2.trans (zpow_le_zpow_right₀ (by norm_num) ?_)
      unfold exponent at hexponent
      omega
    · exact (abs_le_firstNormal hdigits hsmall).2.trans (zpow_le_zpow_right₀ (by norm_num) (by omega))

/-! ## Errors -/

theorem abs_round_sub_le_quantum (digits : ℕ) (least : ℤ) (x : K) :
    |round digits least x - x| ≤ quantum digits least x / 2 := by
  have hq : 0 < quantum digits least x := quantum_pos
  have herror := SignificantDigits.halfEven_error (x / quantum digits least x)
  have hscale : round digits least x - x =
      ((halfEven (x / quantum digits least x) : K) - x / quantum digits least x) * quantum digits least x := by
    unfold round
    rw [sub_mul, div_mul_cancel₀ _ hq.ne']
  rw [hscale, abs_mul, abs_of_pos hq]
  linarith [mul_le_mul_of_nonneg_right herror hq.le]

/-- Rounding a number changes it by at most half a unit in the last digit of a normal number above it. -/
theorem abs_round_sub_le {bound : K} (hbound : firstNormal K digits least ≤ bound) (h : |x| ≤ bound) :
    |round digits least x - x| ≤ bound * 10 ^ (1 - (digits : ℤ)) / 2 := by
  have hunit : (0 : K) < 10 ^ (1 - (digits : ℤ)) := zpow_pos (by norm_num) _
  rcases eq_or_ne x 0 with rfl | hx
  · rw [round_zero, sub_zero, abs_zero]
    have hnonneg : 0 ≤ bound := (abs_nonneg _).trans h
    positivity
  have hquantum : quantum digits least x ≤ bound * 10 ^ (1 - (digits : ℤ)) := by
    rcases le_or_gt least (Int.log 10 |x| + 1 - digits) with hnormal | hsmall
    · have hsplit : quantum digits least x = 10 ^ Int.log 10 |x| * 10 ^ (1 - (digits : ℤ)) := by
        unfold quantum
        rw [exponent_eq hnormal, ← zpow_add₀ (by norm_num)]
        congr 1
        omega
      rw [hsplit]
      exact mul_le_mul_of_nonneg_right ((SignificantDigits.zpow_log_bounds hx).1.trans h) hunit.le
    · have hsplit : quantum digits least x = firstNormal K digits least * 10 ^ (1 - (digits : ℤ)) := by
        unfold quantum exponent firstNormal
        rw [max_eq_right hsmall.le, ← zpow_add₀ (by norm_num)]
        congr 1
        omega
      rw [hsplit]
      exact mul_le_mul_of_nonneg_right hbound hunit.le
  linarith [abs_round_sub_le_quantum digits least x]

/-- Rounding changes a number by less than a factor of ten. -/
theorem abs_round_le (hdigits : 1 ≤ digits) (x : K) : |round digits least x| ≤ 10 * |x| := by
  rcases le_or_gt least (Int.log 10 |x| + 1 - digits) with hnormal | hsmall
  · rw [round_eq hnormal]
    exact SignificantDigits.abs_round_le hdigits x
  · have hq : 0 < quantum digits least x := quantum_pos
    have hquot : |x / quantum digits least x| = |x| / quantum digits least x := by rw [abs_div, abs_of_pos hq]
    have hcount : ((|halfEven (x / quantum digits least x)| : ℤ) : K) ≤ 10 * |x / quantum digits least x| := by
      rcases le_or_gt |x / quantum digits least x| (1 / 2) with hhalf | hhalf
      · have hzero : |halfEven (x / quantum digits least x)| ≤ 0 := by
          rw [abs_le] at hhalf ⊢
          refine ⟨SignificantDigits.neg_le_halfEven_of_le Even.zero ?_,
            SignificantDigits.halfEven_le_of_le Even.zero ?_⟩
          · rw [Int.cast_zero, zero_add]
            exact hhalf.1
          · rw [Int.cast_zero, zero_add]
            exact hhalf.2
        have hcast : ((|halfEven (x / quantum digits least x)| : ℤ) : K) ≤ ((0 : ℤ) : K) := Int.cast_le.2 hzero
        rw [Int.cast_zero] at hcast
        exact hcast.trans (by positivity)
      · have herror := SignificantDigits.halfEven_error (x / quantum digits least x)
        have htriangle :=
          abs_sub_abs_le_abs_sub (halfEven (x / quantum digits least x) : K) (x / quantum digits least x)
        rw [Int.cast_abs]
        linarith
    unfold round
    rw [abs_mul, abs_of_pos hq, ← Int.cast_abs]
    calc ((|halfEven (x / quantum digits least x)| : ℤ) : K) * quantum digits least x
        ≤ 10 * |x / quantum digits least x| * quantum digits least x := mul_le_mul_of_nonneg_right hcount hq.le
      _ = 10 * |x| := by rw [hquot, mul_assoc, div_mul_cancel₀ _ hq.ne']

/-! ## Below a power of ten -/

/-- A power of ten that is above the first normal number by a factor of ten. -/
theorem firstNormal_le (hdigits : 1 ≤ digits) {k : ℤ} (hk : least + digits ≤ k) :
    firstNormal K digits least ≤ 10 ^ (k - 1) ∧ (10 : K) ^ (k - 1) ≤ 10 ^ k - 10 ^ (k - digits) :=
  ⟨zpow_le_zpow_right₀ (by norm_num) (by omega), (SignificantDigits.zpow_pred_le K hdigits k).1⟩

theorem abs_round_lt_iff (hdigits : 1 ≤ digits) {k : ℤ} (hk : least + digits ≤ k) :
    |round digits least x| < 10 ^ k ↔ |x| < 10 ^ k - 10 ^ (k - digits) / 2 := by
  rcases le_or_gt least (Int.log 10 |x| + 1 - digits) with hnormal | hsmall
  · rw [round_eq hnormal]
    exact SignificantDigits.abs_round_lt_iff hdigits k
  · obtain ⟨hx, hround⟩ := abs_le_firstNormal hdigits hsmall
    obtain ⟨hfirst, hpred⟩ := firstNormal_le (K := K) hdigits hk
    have hunit : (0 : K) < 10 ^ (k - digits) := zpow_pos (by norm_num) _
    exact iff_of_true (by linarith) (by linarith)

/-- A rounded number below a power of ten is below it by at least a unit of the last digit. -/
theorem abs_round_le_of_lt (hdigits : 1 ≤ digits) {k : ℤ} (hk : least + digits ≤ k)
    (h : |round digits least x| < 10 ^ k) :
    |round digits least x| ≤ 10 ^ k - 10 ^ (k - digits) := by
  rcases le_or_gt least (Int.log 10 |x| + 1 - digits) with hnormal | hsmall
  · rw [round_eq hnormal] at h ⊢
    exact SignificantDigits.abs_round_le_of_lt hdigits h
  · obtain ⟨hfirst, hpred⟩ := firstNormal_le (K := K) hdigits hk
    exact (abs_le_firstNormal hdigits hsmall).2.trans (hfirst.trans hpred)

/-- A bound within a unit of the last digit below a power of ten is as good as that power. -/
theorem abs_round_lt_iff_of_near (hdigits : 1 ≤ digits) {k : ℤ} (hk : least + digits ≤ k) {bound : K}
    (hbound : bound ≤ 10 ^ k) (hnear : 10 ^ k - 10 ^ (k - digits) < bound) :
    |round digits least x| < bound ↔ |x| < 10 ^ k - 10 ^ (k - digits) / 2 := by
  rw [← abs_round_lt_iff hdigits hk]
  exact ⟨fun h => h.trans_le hbound, fun h => (abs_round_le_of_lt hdigits hk h).trans_lt hnear⟩

/-- A number that exceeds a power of ten by at most half a unit is rounded to at most that power. -/
theorem abs_round_le_zpow (hdigits : 2 ≤ digits) {k : ℤ} (hk : least + digits - 1 ≤ k)
    (h : |x| ≤ 10 ^ k + 10 ^ (k + 1 - digits) / 2) : |round digits least x| ≤ 10 ^ k := by
  rcases le_or_gt least (Int.log 10 |x| + 1 - digits) with hnormal | hsmall
  · rw [round_eq hnormal]
    exact SignificantDigits.abs_round_le_zpow hdigits h
  · exact (abs_le_firstNormal (one_le_two.trans hdigits) hsmall).2.trans (zpow_le_zpow_right₀ (by norm_num) hk)

/-- A rounded number quantized to some decimal places has no more digits exactly if the number is below the power
of ten that leaves room for the places, by more than half a unit of the last place. -/
theorem abs_halfUp_round_lt_iff (hdigits : 1 ≤ digits) {places : ℕ} (hleast : least ≤ -places) (x : K) :
    |Rounding.halfUp (round digits least x * 10 ^ places)| < 10 ^ digits ↔
      |x| < 10 ^ ((digits : ℤ) - places) - 10 ^ (-(places : ℤ)) / 2 := by
  have hplaces : (0 : K) < 10 ^ places := by positivity
  have hpow : (0 : ℤ) < 10 ^ digits := by positivity
  have hunit : (10 : K) ^ ((digits : ℤ) - places - digits) = 10 ^ (-(places : ℤ)) := by
    congr 1
    omega
  have hscale : ((10 : ℤ) ^ digits : K) - 1 / 2 =
      (10 ^ ((digits : ℤ) - places) - 10 ^ (-(places : ℤ)) / 2) * 10 ^ places := by
    rw [zpow_sub₀ (by norm_num), zpow_neg, zpow_natCast, zpow_natCast]
    field_simp
    push_cast
    ring
  have hhalf : (0 : K) < 10 ^ (-(places : ℤ)) := zpow_pos (by norm_num) _
  rw [Rounding.abs_halfUp_lt_iff hpow, abs_mul, abs_of_pos hplaces]
  push_cast at hscale ⊢
  rw [hscale, mul_lt_mul_iff_of_pos_right hplaces, ← hunit]
  refine abs_round_lt_iff_of_near hdigits (by omega) ?_ ?_
  · rw [hunit]
    linarith
  · rw [hunit]
    linarith

/-! ## Numbers that are kept -/

theorem round_eq_self_of_exponent_le {n e : ℤ} (h : exponent digits least ((n : K) * 10 ^ e) ≤ e) :
    round digits least ((n : K) * 10 ^ e) = n * 10 ^ e := by
  have hquot : (n : K) * 10 ^ e / quantum digits least ((n : K) * 10 ^ e) =
      ((n * 10 ^ (e - exponent digits least ((n : K) * 10 ^ e)).toNat : ℤ) : K) := by
    unfold quantum
    push_cast
    rw [mul_div_assoc, ← zpow_sub₀ (by norm_num), ← zpow_natCast, Int.toNat_of_nonneg (sub_nonneg.2 h)]
  unfold round
  rw [hquot, SignificantDigits.halfEven_intCast, ← hquot, div_mul_cancel₀ _ quantum_pos.ne']

/-- A whole multiple of a power of ten is not changed, if the power is not below the least and the multiple has no
more digits. -/
theorem round_eq_self_of_lt {n e : ℤ} (hn : |n| < 10 ^ digits) (he : least ≤ e) :
    round digits least ((n : K) * 10 ^ e) = n * 10 ^ e := by
  rcases eq_or_ne n 0 with rfl | hzero
  · rw [Int.cast_zero, zero_mul, round_zero]
  have hpower : (0 : K) < 10 ^ e := zpow_pos (by norm_num) _
  have habs : |(n : K) * 10 ^ e| = |(n : K)| * 10 ^ e := by rw [abs_mul, abs_of_pos hpower]
  have hpos : 0 < |(n : K) * 10 ^ e| := abs_pos.2 (mul_ne_zero (Int.cast_ne_zero.2 hzero) hpower.ne')
  have hcast : |(n : K)| < 10 ^ digits := by exact_mod_cast hn
  have hbelow : |(n : K) * 10 ^ e| < ((10 : ℕ) : K) ^ ((digits : ℤ) + e) := by
    rw [habs, Nat.cast_ofNat, zpow_add₀ (by norm_num), zpow_natCast]
    exact mul_lt_mul_of_pos_right hcast hpower
  have hlog := (Int.lt_zpow_iff_log_lt (by norm_num) hpos).1 hbelow
  exact round_eq_self_of_exponent_le (max_le (by omega) he)

theorem round_eq_self (hdigits : 1 ≤ digits) {n e : ℤ} (hn : |n| ≤ 10 ^ digits) (he : least ≤ e) :
    round digits least ((n : K) * 10 ^ e) = n * 10 ^ e := by
  rcases hn.lt_or_eq with hlt | heq
  · exact round_eq_self_of_lt hlt he
  -- the power of ten itself is a multiple with one digit of the next unit
  have hfewer : (10 : ℤ) ^ (digits - 1) < 10 ^ digits := pow_lt_pow_right₀ (by norm_num) (by omega)
  obtain ⟨sign, hsign, hsplit⟩ : ∃ sign : ℤ, |sign| = 1 ∧ n = sign * 10 ^ digits := by
    rcases abs_choice n with h | h
    · exact ⟨1, abs_one, by rw [one_mul, ← heq, h]⟩
    · exact ⟨-1, by rw [abs_neg, abs_one], by rw [neg_one_mul, ← heq, h, neg_neg]⟩
  have hnext : (n : K) * 10 ^ e = ((sign * 10 ^ (digits - 1) : ℤ) : K) * 10 ^ (e + 1) := by
    obtain ⟨d, rfl⟩ := Nat.exists_eq_add_of_le' hdigits
    rw [hsplit, zpow_add_one₀ (by norm_num), Nat.add_sub_cancel]
    push_cast
    ring
  rw [hnext]
  refine round_eq_self_of_lt ?_ (by omega)
  rw [abs_mul, hsign, one_mul, abs_of_pos (by positivity)]
  exact hfewer

/-- A rounded number is such a multiple. -/
theorem exists_round_eq (digits : ℕ) (least : ℤ) (x : K) :
    ∃ n e : ℤ, |n| ≤ 10 ^ digits ∧ least ≤ e ∧ round digits least x = n * 10 ^ e := by
  refine ⟨halfEven (x / quantum digits least x), exponent digits least x, ?_, le_max_right _ _, rfl⟩
  rcases eq_or_ne x 0 with rfl | hx
  · rw [zero_div, ← Int.cast_zero, SignificantDigits.halfEven_intCast, abs_zero]
    positivity
  have hq : 0 < quantum digits least x := quantum_pos
  refine SignificantDigits.abs_halfEven_le ?_
  rw [abs_div, abs_of_pos hq, div_le_iff₀ hq]
  refine (SignificantDigits.zpow_log_bounds hx).2.le.trans ?_
  unfold quantum exponent
  push_cast
  rw [← zpow_natCast, ← zpow_add₀ (by norm_num)]
  exact zpow_le_zpow_right₀ (by norm_num) (by omega)

end ExponentRange
