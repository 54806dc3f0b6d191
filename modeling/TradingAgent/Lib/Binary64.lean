/-
Binary floating point with 53 significant bits, over any ordered field with a floor. Results are rounded to nearest,
ties to even, with the unit of the subnormal numbers below and the infinities above; there is no NaN. Rounding keeps
the order and leaves rounded numbers as they are, so the shortest decimal that reads back as a float keeps it too.
-/
import TradingAgent.Lib.SignificantDigits
import Mathlib.Order.WithBot

namespace Binary64

open SignificantDigits (halfEven)

variable {K : Type*} [Field K] [LinearOrder K] [FloorRing K]

/-- The unit of the last bit. -/
def quantum (x : K) : K := 2 ^ max (Int.log 2 |x| - 52) (-1074)

/-- The nearest float, without a bound above. -/
def round (x : K) : K := halfEven (x / quantum x) * quantum x

/-- A number that is a float. -/
def IsFloat (x : K) : Prop := round x = x

variable (K) in
/-- The finite floats. -/
abbrev Float64 := { x : K // IsFloat x }

variable [IsStrictOrderedRing K]

/-! ## Rounding keeps the order -/

theorem quantum_pos (x : K) : 0 < quantum x := zpow_pos (by norm_num) _

/-- The exponent of the last bit against the bits of the number. -/
theorem quantum_bounds {x : K} (hx : x ≠ 0) : ∃ e : ℤ, -1074 ≤ e ∧ quantum x = 2 ^ e ∧ |x| < 2 ^ (e + 53) ∧
    (-1074 < e → (2 : K) ^ (e + 52) ≤ |x|) := by
  have hle := Int.zpow_log_le_self (b := 2) (by norm_num) (abs_pos.2 hx)
  have hlt := Int.lt_zpow_succ_log_self (b := 2) (by norm_num) |x|
  push_cast at hle hlt
  refine ⟨max (Int.log 2 |x| - 52) (-1074), le_max_right _ _, rfl, ?_, ?_⟩
  · refine hlt.trans_le (zpow_le_zpow_right₀ (by norm_num) ?_)
    omega
  · intro hnormal
    refine le_trans (zpow_le_zpow_right₀ (by norm_num) ?_) hle
    omega

theorem quantum_le_quantum {x y : K} (hx : x ≠ 0) (h : |x| ≤ |y|) : quantum x ≤ quantum y := by
  have hlog := Int.log_mono_right (b := 2) (abs_pos.2 hx) h
  refine zpow_le_zpow_right₀ (by norm_num) ?_
  omega

theorem abs_round (x : K) : |round x| = (|halfEven (x / quantum x)| : ℤ) * quantum x := by
  unfold round
  rw [abs_mul, abs_of_pos (quantum_pos x), Int.cast_abs]

variable (K) in
omit [FloorRing K] in
theorem zpow_add_bits (e : ℤ) (bits : ℕ) : (2 : K) ^ (e + bits) = 2 ^ bits * 2 ^ e := by
  rw [zpow_add₀ (by norm_num), zpow_natCast, mul_comm]

/-- A number with a smaller unit is not rounded above one with a larger unit. -/
theorem abs_round_le_of_quantum_lt {x y : K} (hx : x ≠ 0) (hy : y ≠ 0) (h : quantum x < quantum y) :
    |round x| ≤ |round y| := by
  obtain ⟨a, hmin, ha, hxlt, -⟩ := quantum_bounds hx
  obtain ⟨b, -, hb, -, hyle⟩ := quantum_bounds hy
  have hab : a < b := by
    rw [ha, hb] at h
    exact (zpow_lt_zpow_iff_right₀ (by norm_num)).1 h
  have hpow : (2 : K) ^ (a + 53) = 2 ^ 53 * 2 ^ a := zpow_add_bits K a 53
  have hpow' : (2 : K) ^ (b + 52) = 2 ^ 52 * 2 ^ b := zpow_add_bits K b 52
  have habs : ∀ z : K, |z / quantum z| = |z| / quantum z := fun z => by
    rw [abs_div, abs_of_pos (quantum_pos z)]
  have hupper : |halfEven (x / quantum x)| ≤ 2 ^ 53 := by
    refine SignificantDigits.abs_halfEven_le ?_
    rw [Int.cast_pow, Int.cast_ofNat, habs, div_le_iff₀ (quantum_pos x), ha, ← hpow]
    exact hxlt.le
  have hlower : 2 ^ 52 ≤ |halfEven (y / quantum y)| := by
    refine SignificantDigits.le_abs_halfEven ?_
    rw [Int.cast_pow, Int.cast_ofNat, habs, le_div_iff₀ (quantum_pos y), hb, ← hpow']
    exact hyle (by omega)
  have hupper' : ((|halfEven (x / quantum x)| : ℤ) : K) ≤ ((2 ^ 53 : ℤ) : K) := Int.cast_le.2 hupper
  have hlower' : ((2 ^ 52 : ℤ) : K) ≤ ((|halfEven (y / quantum y)| : ℤ) : K) := Int.cast_le.2 hlower
  rw [Int.cast_pow, Int.cast_ofNat, Int.cast_abs] at hupper' hlower'
  rw [abs_round, abs_round, Int.cast_abs, Int.cast_abs]
  calc |(halfEven (x / quantum x) : K)| * quantum x
      ≤ 2 ^ 53 * quantum x := mul_le_mul_of_nonneg_right hupper' (quantum_pos x).le
    _ = 2 ^ (a + 53) := by rw [ha, hpow]
    _ ≤ 2 ^ (b + 52) := zpow_le_zpow_right₀ (by norm_num) (by omega)
    _ = 2 ^ 52 * quantum y := by rw [hb, hpow']
    _ ≤ |(halfEven (y / quantum y) : K)| * quantum y := mul_le_mul_of_nonneg_right hlower' (quantum_pos y).le

theorem round_mono : Monotone (round : K → K) :=
  SignificantDigits.mono_of_unit quantum_pos quantum_le_quantum abs_round_le_of_quantum_lt

/-! ## Rounded numbers -/

theorem isFloat_of_eq {x : K} {m : ℤ} (h : x = m * quantum x) : IsFloat x := by
  have hquot : x / quantum x = m := (div_eq_iff (quantum_pos x).ne').2 h
  unfold IsFloat round
  rw [hquot, SignificantDigits.halfEven_intCast]
  exact h.symm

/-- A number of at most 53 bits, at or above the subnormal unit, is a float. -/
theorem isFloat_of_bits {x : K} {n e : ℤ} (hx : x = n * 2 ^ e) (hn : |n| ≤ 2 ^ 53) (he : -1074 ≤ e) :
    IsFloat x := by
  rcases eq_or_ne x 0 with rfl | hne
  · exact isFloat_of_eq (m := 0) (by rw [Int.cast_zero, zero_mul])
  obtain ⟨k, hmin, hk, -, hnormal⟩ := quantum_bounds hne
  rcases le_or_gt k e with hke | hke
  · refine isFloat_of_eq (m := n * 2 ^ (e - k).toNat) ?_
    have hpow : (2 : K) ^ e = 2 ^ (e - k).toNat * 2 ^ k := by
      rw [← zpow_add_bits]
      congr 1
      omega
    rw [hk, Int.cast_mul, Int.cast_pow, Int.cast_ofNat, mul_assoc, ← hpow]
    exact hx
  · -- the bits are those of a power of two, a single one with the next larger unit
    have hcast : (|n| : K) ≤ 2 ^ 53 := by
      have := Int.cast_le (R := K).2 hn
      rwa [Int.cast_abs, Int.cast_pow, Int.cast_ofNat] at this
    have hpow : (2 : K) ^ (e + 53) = 2 ^ 53 * 2 ^ e := zpow_add_bits K e 53
    have hpos : (0 : K) < 2 ^ e := zpow_pos (by norm_num) _
    have habs : |x| = |(n : K)| * 2 ^ e := by rw [hx, abs_mul, abs_of_pos hpos]
    have hupper : |x| ≤ 2 ^ (e + 53) := by
      rw [habs, hpow]
      exact mul_le_mul_of_nonneg_right hcast hpos.le
    have hlower := hnormal (by omega)
    have hexp : e + 53 = k + 52 := by
      refine le_antisymm (by omega) ?_
      exact (zpow_le_zpow_iff_right₀ (by norm_num)).1 (hlower.trans hupper)
    rw [hexp] at hupper
    have hvalue : |x| = 2 ^ 52 * quantum x := by
      rw [hk, le_antisymm hupper hlower]
      exact zpow_add_bits K k 52
    rcases abs_choice x with hsign | hsign
    · refine isFloat_of_eq (m := 2 ^ 52) ?_
      rw [Int.cast_pow, Int.cast_ofNat, ← hvalue, hsign]
    · refine isFloat_of_eq (m := -2 ^ 52) ?_
      rw [Int.cast_neg, Int.cast_pow, Int.cast_ofNat, neg_mul, ← hvalue, hsign, neg_neg]

theorem round_zero : round (0 : K) = 0 := isFloat_of_eq (m := 0) (by rw [Int.cast_zero, zero_mul])

theorem round_nonneg {x : K} (h : 0 ≤ x) : 0 ≤ round x := by
  have hround := round_mono h
  rwa [round_zero] at hround

theorem isFloat_round (x : K) : IsFloat (round x) := by
  rcases eq_or_ne x 0 with rfl | hne
  · rw [round_zero]
    exact round_zero
  obtain ⟨e, hmin, he, hlt, -⟩ := quantum_bounds hne
  have hcount : |halfEven (x / quantum x)| ≤ 2 ^ 53 := by
    have hpow : (2 : K) ^ (e + 53) = 2 ^ 53 * 2 ^ e := zpow_add_bits K e 53
    refine SignificantDigits.abs_halfEven_le ?_
    rw [Int.cast_pow, Int.cast_ofNat, abs_div, abs_of_pos (quantum_pos x), div_le_iff₀ (quantum_pos x), he, ← hpow]
    exact hlt.le
  exact isFloat_of_bits (e := e) (by rw [← he]; rfl) hcount hmin

/-! ## Differences -/

/-- The nearest float to a number. -/
def toFloat (x : K) : Float64 K := ⟨round x, isFloat_round x⟩

def sub (x y : Float64 K) : Float64 K := toFloat (x - y : K)

/-- A float is a multiple of the subnormal unit. -/
theorem exists_units {x : K} (h : IsFloat x) : ∃ m : ℤ, x = m * 2 ^ (-1074 : ℤ) := by
  rcases eq_or_ne x 0 with rfl | hne
  · exact ⟨0, by rw [Int.cast_zero, zero_mul]⟩
  obtain ⟨e, hmin, he, -, -⟩ := quantum_bounds hne
  refine ⟨halfEven (x / quantum x) * 2 ^ (e + 1074).toNat, ?_⟩
  have hpow : (2 : K) ^ e = 2 ^ (e + 1074).toNat * 2 ^ (-1074 : ℤ) := by
    rw [← zpow_add_bits]
    congr 1
    omega
  rw [Int.cast_mul, Int.cast_pow, Int.cast_ofNat, mul_assoc, ← hpow, ← he]
  exact h.symm

theorem exists_units_sub (x y : Float64 K) : ∃ m : ℤ, x.val - y.val = m * 2 ^ (-1074 : ℤ) := by
  obtain ⟨m, hm⟩ := exists_units x.2
  obtain ⟨n, hn⟩ := exists_units y.2
  exact ⟨m - n, by rw [hm, hn, Int.cast_sub, sub_mul]⟩

theorem round_units {n : ℤ} (hn : |n| ≤ 2 ^ 53) :
    round ((n : K) * 2 ^ (-1074 : ℤ)) = n * 2 ^ (-1074 : ℤ) := isFloat_of_bits rfl hn le_rfl

variable (K) in
theorem unit_pos : (0 : K) < 2 ^ (-1074 : ℤ) := zpow_pos (by norm_num) _

/-- A difference is positive or negative as the floats are ordered: it is never rounded to zero. -/
theorem sub_pos_iff {x y : Float64 K} : 0 < (sub x y).val ↔ y.val < x.val := by
  constructor
  · intro h
    by_contra hle
    have hround := round_mono (sub_nonpos.2 (not_lt.1 hle))
    rw [round_zero] at hround
    exact absurd h (not_lt.2 hround)
  · intro h
    obtain ⟨m, hm⟩ := exists_units_sub x y
    have hpos : 0 < m := by
      have hdiff := sub_pos.2 h
      rw [hm] at hdiff
      exact Int.cast_pos.1 (pos_of_mul_pos_left hdiff (unit_pos K).le)
    have hone : ((1 : ℤ) : K) * 2 ^ (-1074 : ℤ) ≤ x.val - y.val := by
      rw [hm]
      exact mul_le_mul_of_nonneg_right (Int.cast_le.2 (Int.add_one_le_of_lt hpos)) (unit_pos K).le
    have hround := round_mono hone
    rw [round_units (by norm_num), Int.cast_one, one_mul] at hround
    exact (unit_pos K).trans_le hround

theorem sub_neg_iff {x y : Float64 K} : (sub x y).val < 0 ↔ x.val < y.val := by
  constructor
  · intro h
    by_contra hle
    have hround := round_mono (sub_nonneg.2 (not_lt.1 hle))
    rw [round_zero] at hround
    exact absurd h (not_lt.2 hround)
  · intro h
    obtain ⟨m, hm⟩ := exists_units_sub x y
    have hneg : m < 0 := by
      have hdiff := sub_neg.2 h
      rw [hm] at hdiff
      exact Int.cast_lt_zero.1 (neg_of_mul_neg_left hdiff (unit_pos K).le)
    have hone : x.val - y.val ≤ ((-1 : ℤ) : K) * 2 ^ (-1074 : ℤ) := by
      rw [hm]
      exact mul_le_mul_of_nonneg_right (Int.cast_le.2 (Int.le_sub_one_of_lt hneg)) (unit_pos K).le
    have hround := round_mono hone
    rw [round_units (by norm_num), Int.cast_neg, Int.cast_one, neg_one_mul] at hround
    exact hround.trans_lt (neg_lt_zero.2 (unit_pos K))

/-! ## The shortest decimal -/

/-- The decimal that a float is printed as: the nearest one with the fewest digits that reads back as the float. -/
def shortestDecimal (x : K) : K :=
  (((List.range 17).map (fun n => SignificantDigits.round (n + 1) x)).find? (fun d => round d = x)).getD x

omit [IsStrictOrderedRing K] in
theorem round_shortestDecimal {x : K} (h : IsFloat x) : round (shortestDecimal x) = x := by
  unfold shortestDecimal
  cases hfind : ((List.range 17).map (fun n => SignificantDigits.round (n + 1) x)).find? (fun d => round d = x) with
  | none => exact h
  | some d =>
    have hread := List.find?_some hfind
    exact of_decide_eq_true hread

/-- A larger float is not printed as a smaller decimal. -/
theorem shortestDecimal_le {x y : K} (hx : IsFloat x) (hy : IsFloat y) (h : x ≤ y) :
    shortestDecimal x ≤ shortestDecimal y := by
  rcases eq_or_lt_of_le h with rfl | hlt
  · exact le_rfl
  · by_contra hgt
    have hround := round_mono (not_le.1 hgt).le
    rw [round_shortestDecimal hx, round_shortestDecimal hy] at hround
    exact absurd hlt (not_lt.2 hround)

/-! ## Infinities -/

/-- Floats with the infinities. -/
abbrev Extended (K : Type*) := WithBot (WithTop K)

/-- A finite float. -/
def finite (x : K) : Extended K := ((x : WithTop K) : WithBot (WithTop K))

/-- The float of a number: an infinity if it is too large. -/
def ofNumber (x : K) : Extended K :=
  if 2 ^ 1024 ≤ round x then ⊤ else if round x ≤ -2 ^ 1024 then ⊥ else finite (round x)

/-- An operation on the finite floats that leaves the infinities. -/
def lift (f : K → K) : Extended K → Extended K
  | ⊥ => ⊥
  | (⊤ : WithTop K) => ⊤
  | (x : K) => ofNumber (f x)

omit [Field K] [FloorRing K] [IsStrictOrderedRing K] in
theorem finite_le_finite {x y : K} : finite x ≤ finite y ↔ x ≤ y :=
  WithBot.coe_le_coe.trans WithTop.coe_le_coe

theorem ofNumber_mono : Monotone (ofNumber : K → Extended K) := by
  intro x y hxy
  have hround := round_mono hxy
  unfold ofNumber
  split
  · rename_i hx
    rw [if_pos (hx.trans hround)]
  · split
    · exact bot_le
    · rename_i hx
      split
      · exact le_top
      · rw [if_neg fun hy => hx (hround.trans hy)]
        exact finite_le_finite.2 hround

theorem ofNumber_nonneg {x : K} (hx : 0 ≤ x) : finite 0 ≤ ofNumber x := by
  have hpos : (0 : K) < 2 ^ 1024 := by positivity
  have hzero : ofNumber (0 : K) = finite 0 := by
    unfold ofNumber
    rw [round_zero, if_neg (not_le.2 hpos), if_neg (not_le.2 (neg_lt_zero.2 hpos))]
  rw [← hzero]
  exact ofNumber_mono hx

theorem lift_mono {f : K → K} (hf : Monotone f) : Monotone (lift f) := by
  intro x y hxy
  induction x using WithBot.recBotCoe with
  | bot => exact bot_le
  | coe x =>
    induction y using WithBot.recBotCoe with
    | bot => exact absurd hxy (WithBot.not_coe_le_bot x)
    | coe y =>
      have hxy := WithBot.coe_le_coe.1 hxy
      induction y using WithTop.recTopCoe with
      | top => exact le_top
      | coe y =>
        induction x using WithTop.recTopCoe with
        | top => exact absurd hxy (WithTop.not_top_le_coe y)
        | coe x => exact ofNumber_mono (hf (WithTop.coe_le_coe.1 hxy))

end Binary64
