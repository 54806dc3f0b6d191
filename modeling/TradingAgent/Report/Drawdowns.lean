/-
The maximum drawdown in Python's decimal context. The loop rounds every fall to 28 digits, so what it rounds to two
places at the end is near the greatest fall over all pairs; for values with few digits it is rounded to the same.
-/
import TradingAgent.Report.Calculable
import TradingAgent.Report.MaxDrawdown
import Mathlib.Algebra.Order.Group.MinMax

namespace TradingAgent

namespace DecimalContext

open PerformanceCalculator (sortedSnaps falls IsMaxDrawdown Dated)

/-- A value of ordinary size: zero, or so large that it has all its digits, and below the end of the range. -/
def Ordinary (v : Decimal) : Prop := v = 0 ∨ 10 ^ (-999999 : ℤ) ≤ v ∧ v ≤ 10 ^ (999999 : ℤ)

/-- The values are whole multiples of one power of ten, of at most 23 digits. -/
def Coarse (snapshots : List PortfolioSnapshot) : Prop :=
  ∃ e : ℤ, tiny ≤ e ∧ ∀ snap ∈ snapshots, ∃ n : ℕ, n < 10 ^ 23 ∧ snap.totalValue = n * 10 ^ e

/-- The number is the rounding of one near the greatest fall, zero if there is none. -/
def NearMaxDrawdown (snapshots : List PortfolioSnapshot) (mdd : Decimal) : Prop :=
  (falls snapshots = ∅ ∧ mdd = 0) ∨
    ∃ fall x, IsGreatest (falls snapshots) fall ∧ |x - fall| ≤ 1 / 10 ^ 24 ∧ mdd = quantize2 x

variable {snapshots other : List PortfolioSnapshot} {p v x : Decimal}

/-! ## One fall -/

theorem Ordinary.firstNormal_le (h : Ordinary p) (hpos : 0 < p) : ExponentRange.firstNormal Decimal 28 tiny ≤ p := by
  rcases h with rfl | ⟨hlow, -⟩
  · exact absurd hpos (lt_irrefl _)
  · exact hlow

theorem firstNormal_le_one : ExponentRange.firstNormal Decimal 28 tiny ≤ 1 := by
  unfold ExponentRange.firstNormal
  rw [← zpow_zero (10 : Decimal)]
  exact zpow_le_zpow_right₀ (by norm_num) (by decide)

theorem abs_round_sub_le {bound : Decimal} (hbound : ExponentRange.firstNormal Decimal 28 tiny ≤ bound)
    (h : |x| ≤ bound) :
    |standard.round x - x| ≤ bound / (2 * 10 ^ 27) := by
  have hround := ExponentRange.abs_round_sub_le hbound h
  have hunit : (10 : Decimal) ^ (1 - ((28 : ℕ) : ℤ)) = 1 / 10 ^ 27 := by norm_num
  rw [hunit] at hround
  have hsame : bound * (1 / 10 ^ 27) / 2 = bound / (2 * 10 ^ 27) := by ring
  rw [hsame] at hround
  exact hround

/-- The steps of a fall: the rounded difference, the rounded quotient, which is at most one, and the percentage. -/
theorem fall_steps (hp : Ordinary p) (hpos : 0 < p) (hv : 0 ≤ v) (hle : v ≤ p) :
    |standard.round (p - v) / p - (p - v) / p| ≤ 1 / (2 * 10 ^ 27) ∧
    |standard.round (standard.round (p - v) / p) - standard.round (p - v) / p| ≤ 1 / 10 ^ 27 ∧
    |standard.round (standard.round (p - v) / p)| ≤ 1 := by
  have hdifference : |p - v| ≤ p := by
    rw [abs_of_nonneg (sub_nonneg.2 hle)]
    linarith
  have hsub := abs_round_sub_le (hp.firstNormal_le hpos) hdifference
  have hquot : |standard.round (p - v) / p - (p - v) / p| ≤ 1 / (2 * 10 ^ 27) := by
    rw [← sub_div, abs_div, abs_of_pos hpos, div_le_iff₀ hpos]
    exact hsub.trans_eq (by ring)
  have hone : |(p - v) / p| ≤ 1 := by
    rw [abs_div, abs_of_pos hpos, div_le_one hpos]
    exact hdifference
  have htriangle := abs_sub_abs_le_abs_sub (standard.round (p - v) / p) ((p - v) / p)
  have hsmall : |standard.round (p - v) / p| ≤ 1 + 1 / (2 * 10 ^ 27) := by linarith
  refine ⟨hquot, ?_, ?_⟩
  · have htwo : |standard.round (p - v) / p| ≤ 2 := hsmall.trans (by norm_num)
    exact (abs_round_sub_le (firstNormal_le_one.trans one_le_two) htwo).trans_eq (by norm_num)
  · have hround : |standard.round (standard.round (p - v) / p)| ≤ 10 ^ (0 : ℤ) :=
      ExponentRange.abs_round_le_zpow (by norm_num) (by decide) (hsmall.trans_eq (by norm_num))
    rwa [zpow_zero] at hround

/-- A fall is rounded by little. -/
theorem abs_fallFigure_sub_le (hp : Ordinary p) (hpos : 0 < p) (hv : 0 ≤ v) (hle : v ≤ p) :
    |fallFigure p v - (p - v) / p * 100| ≤ 1 / 10 ^ 24 := by
  obtain ⟨hdifference, hquot, hone⟩ := fall_steps hp hpos hv hle
  have hhundred : |standard.round (standard.round (p - v) / p) * 100| ≤ 100 := by
    rw [abs_mul, abs_of_pos (by norm_num : (0 : Decimal) < 100)]
    linarith
  have hpct := abs_round_sub_le (firstNormal_le_one.trans (by norm_num)) hhundred
  unfold fallFigure
  rw [abs_le] at hdifference hquot hpct ⊢
  constructor
  · linarith
  · linarith

theorem fallFigure_le_hundred (hp : Ordinary p) (hpos : 0 < p) (hv : 0 ≤ v) (hle : v ≤ p) : fallFigure p v ≤ 100 := by
  obtain ⟨-, -, hone⟩ := fall_steps hp hpos hv hle
  have hkept : standard.round 100 = 100 := by decide +kernel
  rw [← hkept]
  exact round_mono (by linarith [le_abs_self (standard.round (standard.round (p - v) / p))])

/-! ## The loop -/

theorem ordinary_max {q : Decimal} (hp : Ordinary p) (hq : Ordinary q) : Ordinary (max p q) := by
  rcases max_choice p q with h | h
  · rwa [h]
  · rwa [h]

/-- Near falls have near maxima. -/
theorem abs_foldl_sub_le {ε : Decimal} (hε : 1 / 10 ^ 24 ≤ ε) (values : List Decimal) : ∀ (peak best best' : Decimal),
    Ordinary peak → (∀ v ∈ values, 0 ≤ v ∧ Ordinary v) → 0 ≤ best' → |best - best'| ≤ ε →
    |(values.foldl drawdownFigure (peak, best)).2 - (Drawdown.drops peak values).foldl max best'| ≤ ε := by
  induction values with
  | nil => exact fun peak best best' _ _ _ h => h
  | cons v values ih =>
    intro peak best best' hpeak hvalues hbest h
    obtain ⟨hv, hordinary⟩ := hvalues v (List.mem_cons_self ..)
    refine ih _ _ _ (ordinary_max hpeak hordinary) (fun w hw => hvalues w (List.mem_cons_of_mem _ hw))
      (hbest.trans (le_max_left _ _)) ?_
    dsimp only
    unfold Drawdown.drop
    split
    · rename_i hpos
      refine (abs_max_sub_max_le_max _ _ _ _).trans (max_le h ?_)
      exact (abs_fallFigure_sub_le (ordinary_max hpeak hordinary) hpos hv (le_max_right _ _)).trans hε
    · rw [max_eq_left hbest]
      exact h

theorem foldl_drawdownFigure_bounds (values : List Decimal) : ∀ (peak best : Decimal), Ordinary peak →
    (∀ v ∈ values, 0 ≤ v ∧ Ordinary v) → best ≤ 100 →
    best ≤ (values.foldl drawdownFigure (peak, best)).2 ∧ (values.foldl drawdownFigure (peak, best)).2 ≤ 100 := by
  induction values with
  | nil => exact fun peak best _ _ h => ⟨le_rfl, h⟩
  | cons v values ih =>
    intro peak best hpeak hvalues h
    obtain ⟨hv, hordinary⟩ := hvalues v (List.mem_cons_self ..)
    have hmax := ordinary_max hpeak hordinary
    have hstep : best ≤ (drawdownFigure (peak, best) v).2 ∧ (drawdownFigure (peak, best) v).2 ≤ 100 := by
      unfold drawdownFigure
      dsimp only
      split
      · rename_i hpos
        exact ⟨le_max_left _ _, max_le h (fallFigure_le_hundred hmax hpos hv (le_max_right _ _))⟩
      · exact ⟨le_rfl, h⟩
    obtain ⟨hlow, hhigh⟩ := ih _ _ hmax (fun w hw => hvalues w (List.mem_cons_of_mem _ hw)) hstep.2
    exact ⟨hstep.1.trans hlow, hhigh⟩

/-! ## Values with few digits -/

/-- A percentage, rounded twice. -/
def pctOf (y : Decimal) : Decimal := standard.round (standard.round (y / 100) * 100)

theorem pctOf_mono : Monotone pctOf := by
  intro x y h
  exact round_mono (mul_le_mul_of_nonneg_right (round_mono (div_le_div_of_nonneg_right h (by norm_num))) (by norm_num))

theorem pctOf_zero : pctOf 0 = 0 := by decide +kernel

/-- The difference of coarse values is not rounded. -/
theorem round_sub_eq {e : ℤ} (he : tiny ≤ e) {n m : ℕ} (hn : n < 10 ^ 23) (hm : m < 10 ^ 23) :
    standard.round ((n : Decimal) * 10 ^ e - m * 10 ^ e) = n * 10 ^ e - m * 10 ^ e := by
  have hsub : (n : Decimal) * 10 ^ e - m * 10 ^ e = (((n : ℤ) - m : ℤ) : Decimal) * 10 ^ e := by
    push_cast
    ring
  rw [hsub]
  refine ExponentRange.round_eq_self (by norm_num) ?_ he
  rw [abs_le]
  constructor
  · omega
  · omega

/-- Without rounded differences the loop rounds the largest drop. -/
theorem foldl_drawdownFigure_eq {e : ℤ} (he : tiny ≤ e) (values : List Decimal) : ∀ peak best : Decimal,
    (∀ v ∈ peak :: values, ∃ n : ℕ, n < 10 ^ 23 ∧ v = n * 10 ^ e) → 0 ≤ best →
    (values.foldl drawdownFigure (peak, pctOf best)).2 = pctOf ((Drawdown.drops peak values).foldl max best) := by
  induction values with
  | nil => exact fun peak best _ _ => rfl
  | cons v values ih =>
    intro peak best hvalues hbest
    have hpeak := hvalues peak (List.mem_cons_self ..)
    have hv := hvalues v (List.mem_cons_of_mem _ (List.mem_cons_self ..))
    have hmax : ∃ n : ℕ, n < 10 ^ 23 ∧ max peak v = n * 10 ^ e := by
      rcases max_choice peak v with h | h
      · rwa [h]
      · rwa [h]
    have hrest : ∀ w ∈ max peak v :: values, ∃ n : ℕ, n < 10 ^ 23 ∧ w = n * 10 ^ e := by
      intro w hw
      rcases List.mem_cons.1 hw with rfl | hw
      · exact hmax
      · exact hvalues w (List.mem_cons_of_mem _ (List.mem_cons_of_mem _ hw))
    have hstep : drawdownFigure (peak, pctOf best) v =
        (max peak v, pctOf (max best (Drawdown.drop (max peak v) v))) := by
      obtain ⟨n, hn, hpeak'⟩ := hmax
      obtain ⟨m, hm, hv'⟩ := hv
      have hkept : standard.round (max peak v - v) = max peak v - v := by
        rw [hpeak', hv']
        exact round_sub_eq he hn hm
      unfold drawdownFigure Drawdown.drop
      dsimp only
      split
      · unfold fallFigure
        rw [hkept, pctOf_mono.map_max]
        unfold pctOf
        rw [mul_div_cancel_right₀ _ (by norm_num : (100 : Decimal) ≠ 0)]
      · rw [max_eq_left hbest]
    rw [List.foldl_cons, hstep, ih _ _ hrest (hbest.trans (le_max_left _ _))]
    rfl

theorem round_mul_hundred (x : Decimal) : standard.round (standard.round x * 100) = standard.round x * 100 := by
  obtain ⟨n, e, hn, he, hround⟩ := ExponentRange.exists_round_eq (K := Decimal) 28 tiny x
  have hscale : standard.round x * 100 = (n : Decimal) * 10 ^ (e + 2) := by
    have hten : (10 : Decimal) ^ (e + 2) = 10 ^ e * 100 := by
      rw [zpow_add₀ (by norm_num)]
      norm_num
    rw [hten, ← mul_assoc, ← hround]
    rfl
  rw [hscale]
  exact ExponentRange.round_eq_self (by norm_num) hn (by omega)

/-- A share of a count with few digits is rounded to the same hundredth of a percent after rounding to 28 digits. -/
theorem quantize2_pctOf {k n : ℕ} (hk : k ≤ n) (hn : n < 10 ^ 23) (hpos : 0 < n) :
    quantize2 (pctOf ((k : Decimal) / n * 100)) = quantize2 ((k : Decimal) / n * 100) := by
  have hn' : (0 : Decimal) < n := Nat.cast_pos.2 hpos
  have hshare : (0 : Decimal) ≤ k / n := div_nonneg (Nat.cast_nonneg _) hn'.le
  have hone : (k : Decimal) / n ≤ 1 := (div_le_one hn').2 (Nat.cast_le.2 hk)
  have herror := abs_round_sub_le firstNormal_le_one (abs_le.2 ⟨by linarith, hone⟩ : |(k : Decimal) / n| ≤ 1)
  have hround : 0 ≤ standard.round ((k : Decimal) / n) := round_nonneg hshare
  unfold quantize2 pctOf
  rw [mul_div_cancel_right₀ _ (by norm_num : (100 : Decimal) ≠ 0), round_mul_hundred]
  suffices Rounding.halfUp (standard.round ((k : Decimal) / n) * 100 * 100) =
      Rounding.halfUp ((k : Decimal) / n * 100 * 100) by
    rw [this]
  unfold Rounding.halfUp
  rw [if_pos (by positivity), if_pos (by positivity), Int.floor_eq_iff]
  generalize hm : ⌊(k : Decimal) / n * 100 * 100 + 1 / 2⌋ = m
  obtain ⟨hlow, hhigh⟩ := Int.floor_eq_iff.1 hm
  have hm0 : 0 ≤ m := by
    rw [← hm]
    exact Int.floor_nonneg.2 (by positivity)
  have hm1 : m ≤ 10001 := by
    have hcast : (m : Decimal) ≤ ((10001 : ℤ) : Decimal) := by
      push_cast
      linarith
    exact Int.cast_le.1 hcast
  constructor
  · -- the boundary below is not changed by rounding
    rcases eq_or_lt_of_le hm0 with rfl | hpos'
    · rw [Int.cast_zero]
      positivity
    · have hboundary : ((2 * m - 1) * 5 : ℤ) * (10 : Decimal) ^ (-5 : ℤ) = (2 * m - 1) / 20000 := by
        push_cast
        norm_num
        ring
      have hdigits : |(2 * m - 1) * 5| ≤ 10 ^ 28 := by
        rw [abs_le]
        constructor <;> omega
      have hkept : standard.round (((2 * m - 1) * 5 : ℤ) * (10 : Decimal) ^ (-5 : ℤ)) =
          ((2 * m - 1) * 5 : ℤ) * (10 : Decimal) ^ (-5 : ℤ) :=
        ExponentRange.round_eq_self (by norm_num) hdigits (by decide)
      rw [hboundary] at hkept
      have hle := round_mono (show ((2 * m - 1) / 20000 : Decimal) ≤ k / n by linarith)
      rw [hkept] at hle
      linarith
  · -- the share is below the boundary above by more than the error
    have hgap : (1 : Decimal) ≤ (2 * m + 1) * n - 20000 * k := by
      have hlt : (20000 * k : Decimal) < (2 * m + 1) * n := by
        have hscaled : (k : Decimal) / n < (2 * m + 1) / 20000 := by linarith
        rw [div_lt_div_iff₀ hn' (by norm_num)] at hscaled
        linarith
      have hint : (20000 * k : ℤ) < (2 * m + 1) * n := by exact_mod_cast hlt
      have hstep : (1 : ℤ) ≤ (2 * m + 1) * n - 20000 * k := by omega
      exact_mod_cast hstep
    have hdistance : 1 / (20000 * (n : Decimal)) ≤ (2 * m + 1) / 20000 - k / n := by
      rw [div_le_iff₀ (by positivity)]
      have hexpand : ((2 * m + 1) / 20000 - (k : Decimal) / n) * (20000 * n) = (2 * m + 1) * n - 20000 * k := by
        field_simp
      rw [hexpand]
      exact hgap
    have hsmall : 1 / (2 * 10 ^ 27 : Decimal) < 1 / (20000 * n) := by
      have hcast : (n : Decimal) < 10 ^ 23 := by exact_mod_cast hn
      exact one_div_lt_one_div_of_lt (by positivity) (by linarith)
    have hupper := (abs_le.1 herror).2
    linarith

/-- The largest drop of coarse values is such a share. -/
theorem quantize2_pctOf_largest {e : ℤ} {first : Decimal} {rest : List Decimal}
    (hvalues : ∀ v ∈ first :: rest, ∃ n : ℕ, n < 10 ^ 23 ∧ v = n * 10 ^ e) (hnonneg : ∀ v ∈ first :: rest, 0 ≤ v) :
    quantize2 (pctOf (Drawdown.largest first (first :: rest))) =
      quantize2 (Drawdown.largest first (first :: rest)) := by
  rcases (Drawdown.largest_spec hnonneg).2 with hzero | ⟨p, v, hp, hdrop, hsub⟩
  · rw [hzero, pctOf_zero]
  obtain ⟨n, hn, rfl⟩ := hvalues p (hsub.subset (List.mem_cons_self ..))
  obtain ⟨m, hm, rfl⟩ := hvalues v (hsub.subset (List.mem_cons_of_mem _ (List.mem_singleton_self _)))
  have hunit : (0 : Decimal) < 10 ^ e := zpow_pos (by norm_num) _
  have hpos : 0 < n := Nat.cast_pos.1 (pos_of_mul_pos_left hp hunit.le)
  have hn' : (n : Decimal) ≠ 0 := Nat.cast_ne_zero.2 hpos.ne'
  have hratio : ((n : Decimal) * 10 ^ e - m * 10 ^ e) / (n * 10 ^ e) = (n - m) / n := by
    rw [← sub_mul, mul_div_mul_right _ _ hunit.ne']
  have hle : m ≤ n := by
    have hlargest := Drawdown.largest_nonneg first (first :: rest)
    rw [hdrop, Drawdown.drop, if_pos hp, hratio] at hlargest
    by_contra hlt
    have hcast : (n : Decimal) < m := Nat.cast_lt.2 (not_le.1 hlt)
    have hneg : ((n : Decimal) - m) / n < 0 := div_neg_of_neg_of_pos (sub_neg.2 hcast) (Nat.cast_pos.2 hpos)
    linarith
  have hshare : Drawdown.largest first (first :: rest) = ((n - m : ℕ) : Decimal) / n * 100 := by
    rw [hdrop, Drawdown.drop, if_pos hp, hratio, Nat.cast_sub hle]
  rw [hshare]
  exact quantize2_pctOf (Nat.sub_le n m) hn hpos

/-! ## The maximum drawdown -/

/-- Snapshots of different dates with values of ordinary size. -/
structure Plain (snapshots : List PortfolioSnapshot) : Prop extends Dated snapshots where
  ordinary : ∀ snap ∈ snapshots, Ordinary snap.totalValue

theorem Plain.totals (h : Plain snapshots) : ∀ v ∈ totals snapshots, 0 ≤ v ∧ Ordinary v := by
  intro v hv
  obtain ⟨snap, hsnap, rfl⟩ := List.mem_map.1 hv
  have hmem := PerformanceCalculator.mem_sortedSnaps.1 hsnap
  exact ⟨h.nonneg snap hmem, h.ordinary snap hmem⟩

theorem Ordinary.lt_limit (h : Ordinary v) : v < rangeEnd - lastUnit / 2 := by
  have hlarge := lastUnit_large.2
  have hpos := lastUnit_pos
  have htop : (10 : Decimal) * 10 ^ (999999 : ℤ) = rangeEnd := by
    rw [← zpow_one_add₀ (by norm_num)]
    unfold rangeEnd top
    congr 1
  unfold Ordinary at h
  generalize (10 : Decimal) ^ (999999 : ℤ) = largest at h htop
  rcases h with rfl | ⟨-, hhigh⟩
  · linarith
  · linarith

/-- Differences of values of ordinary size are in the range, so the calculator returns. -/
theorem Plain.eq_ok (h : Plain snapshots) :
    standard.calculateMaxDrawdown snapshots = .ok (quantize2 (largestFall (DecimalContext.totals snapshots))) := by
  refine (calculateMaxDrawdown_gives h.nonneg).ok ?_
  refine List.pairwise_iff_forall_sublist.2 fun {a b} hsub => ?_
  have ha := (h.totals a (hsub.subset (List.mem_cons_self ..))).2.lt_limit
  have hb := (h.totals b (hsub.subset (List.mem_cons_of_mem _ (List.mem_singleton_self b)))).1
  unfold Falls
  linarith

theorem largestFall_cons (first : Decimal) (rest : List Decimal) :
    largestFall (first :: rest) = ((first :: rest).foldl drawdownFigure (first, 0)).2 := rfl

theorem largestFall_bounds {values : List Decimal} (h : ∀ v ∈ values, 0 ≤ v ∧ Ordinary v) :
    0 ≤ largestFall values ∧ largestFall values ≤ 100 := by
  unfold largestFall
  cases values with
  | nil => exact ⟨le_rfl, by norm_num⟩
  | cons first rest => exact foldl_drawdownFigure_bounds _ _ _ (h first (List.mem_cons_self ..)).2 h (by norm_num)

theorem Plain.bounds (h : Plain snapshots) : 0 ≤ quantize2 (largestFall (DecimalContext.totals snapshots)) ∧
    quantize2 (largestFall (DecimalContext.totals snapshots)) ≤ 100 := by
  obtain ⟨hzero, hhundred⟩ := largestFall_bounds h.totals
  have hwhole : quantize2 100 = 100 := by decide +kernel
  have hlow := PerformanceCalculator.quantize2_mono hzero
  have hhigh := PerformanceCalculator.quantize2_mono hhundred
  rw [PerformanceCalculator.quantize2_zero] at hlow
  rw [hwhole] at hhigh
  exact ⟨hlow, hhigh⟩

/-- Without a positive value there is no fall, and the loop finds none. -/
theorem foldl_drawdownFigure_const (values : List Decimal) : ∀ acc : Decimal × Decimal, acc.1 = 0 →
    (∀ v ∈ values, v = 0) → (values.foldl drawdownFigure acc).2 = acc.2 := by
  induction values with
  | nil => exact fun acc _ _ => rfl
  | cons v values ih =>
    intro acc hacc hvalues
    have hv := hvalues v (List.mem_cons_self ..)
    have hstep : drawdownFigure acc v = (0, acc.2) := by
      unfold drawdownFigure
      rw [hacc, hv, max_self, if_neg (lt_irrefl _)]
    rw [List.foldl_cons, hstep]
    exact ih _ rfl fun w hw => hvalues w (List.mem_cons_of_mem _ hw)

theorem largestFall_eq_zero {values : List Decimal} (h : ∀ v ∈ values, v = 0) : largestFall values = 0 := by
  unfold largestFall
  cases values with
  | nil => rfl
  | cons first rest => exact foldl_drawdownFigure_const _ _ (h first (List.mem_cons_self ..)) h

/-- What the loop finds is the largest drop of the values, up to what the steps are rounded by. -/
theorem Plain.near (h : Plain snapshots) :
    NearMaxDrawdown snapshots (quantize2 (largestFall (DecimalContext.totals snapshots))) := by
  by_cases hpositive : ∃ a ∈ snapshots, 0 < a.totalValue
  · have hvalues := h.totals
    unfold DecimalContext.totals at hvalues ⊢
    cases hsorted : sortedSnaps snapshots with
    | nil =>
      obtain ⟨a, ha, -⟩ := hpositive
      have hmem := PerformanceCalculator.mem_sortedSnaps.2 ha
      rw [hsorted] at hmem
      cases hmem
    | cons first rest =>
      rw [hsorted] at hvalues
      have hnear := abs_foldl_sub_le le_rfl ((first :: rest).map (·.totalValue)) first.totalValue 0 0
        (hvalues _ (List.mem_cons_self ..)).2 hvalues le_rfl (by norm_num)
      exact .inr ⟨_, _, PerformanceCalculator.isGreatest_falls h.toDated hsorted hpositive, hnear, rfl⟩
  · have hzero : ∀ v ∈ DecimalContext.totals snapshots, v = 0 := by
      intro v hv
      obtain ⟨snap, hsnap, rfl⟩ := List.mem_map.1 hv
      have hmem := PerformanceCalculator.mem_sortedSnaps.1 hsnap
      exact le_antisymm (not_lt.1 fun hpos => hpositive ⟨snap, hmem, hpos⟩) (h.nonneg snap hmem)
    rw [largestFall_eq_zero hzero, PerformanceCalculator.quantize2_zero]
    exact .inl ⟨PerformanceCalculator.falls_eq_empty hpositive, rfl⟩

/-- For coarse values the result is the rounded greatest fall. -/
theorem Plain.isMaxDrawdown (h : Plain snapshots) (hcoarse : Coarse snapshots) :
    IsMaxDrawdown snapshots (quantize2 (largestFall (DecimalContext.totals snapshots))) := by
  obtain ⟨e, he, hcoarse⟩ := hcoarse
  have hvalues : ∀ v ∈ DecimalContext.totals snapshots, ∃ n : ℕ, n < 10 ^ 23 ∧ v = n * 10 ^ e := by
    intro v hv
    obtain ⟨snap, hsnap, rfl⟩ := List.mem_map.1 hv
    exact hcoarse snap (PerformanceCalculator.mem_sortedSnaps.1 hsnap)
  have hexact := PerformanceCalculator.calculateMaxDrawdown_isMaxDrawdown h.toDated
  suffices hsame : quantize2 (largestFall (DecimalContext.totals snapshots)) =
      PerformanceCalculator.calculateMaxDrawdown snapshots by
    rw [hsame]
    exact hexact
  unfold DecimalContext.totals at hvalues ⊢
  cases hsorted : sortedSnaps snapshots with
  | nil =>
    unfold PerformanceCalculator.calculateMaxDrawdown
    rw [hsorted, List.map_nil, largestFall, PerformanceCalculator.quantize2_zero]
  | cons first rest =>
    rw [hsorted] at hvalues
    have hloop := foldl_drawdownFigure_eq he ((first :: rest).map (·.totalValue)) first.totalValue 0
      (fun v hv => hvalues v (by
        rcases List.mem_cons.1 hv with rfl | hv
        · exact List.mem_cons_self ..
        · exact hv)) le_rfl
    have hnonneg : ∀ v ∈ first.totalValue :: rest.map (·.totalValue), 0 ≤ v := by
      intro v hv
      obtain ⟨n, -, rfl⟩ := hvalues v hv
      positivity
    rw [pctOf_zero, List.map_cons] at hloop
    rw [PerformanceCalculator.calculateMaxDrawdown_eq hsorted, List.map_cons, largestFall_cons, hloop]
    exact quantize2_pctOf_largest hvalues hnonneg

theorem Plain.append (h : Plain snapshots) {later : PortfolioSnapshot} (hnonneg : 0 ≤ later.totalValue)
    (hordinary : Ordinary later.totalValue) (hlater : ∀ snap ∈ snapshots, snap.snapshotDate < later.snapshotDate) :
    Plain (snapshots ++ [later]) where
  nodup := by
    rw [List.map_append, List.nodup_append]
    refine ⟨h.nodup, List.nodup_singleton _, fun date hdate date' hdate' => ?_⟩
    obtain ⟨snap, hsnap, rfl⟩ := List.mem_map.1 hdate
    rw [List.map_singleton, List.mem_singleton] at hdate'
    rw [hdate']
    exact (hlater snap hsnap).ne
  nonneg := by
    rw [List.forall_mem_append, List.forall_mem_singleton]
    exact ⟨h.nonneg, hnonneg⟩
  ordinary := by
    rw [List.forall_mem_append, List.forall_mem_singleton]
    exact ⟨h.ordinary, hordinary⟩

/-- A later value does not make the largest fall smaller. -/
theorem largestFall_le_append (values : List Decimal) (v : Decimal) :
    largestFall values ≤ largestFall (values ++ [v]) := by
  have hstep : ∀ acc : Decimal × Decimal, acc.2 ≤ (drawdownFigure acc v).2 := by
    intro acc
    unfold drawdownFigure
    dsimp only
    split
    · exact le_max_left _ _
    · exact le_rfl
  cases values with
  | nil => exact hstep (v, 0)
  | cons first rest =>
    rw [List.cons_append, largestFall_cons, largestFall_cons, ← List.cons_append, List.foldl_append]
    exact hstep _

/-- The maximum drawdown in the decimal context is the rounding of a number near the greatest fall over all pairs,
and of the greatest fall itself for values with few digits. It is a percentage, does not depend on the order of the
snapshots, and never decreases with a later snapshot. -/
theorem calculateMaxDrawdown_near (h : Plain snapshots) : ∃ mdd, standard.calculateMaxDrawdown snapshots = .ok mdd ∧
    NearMaxDrawdown snapshots mdd ∧ (Coarse snapshots → IsMaxDrawdown snapshots mdd) ∧ (0 ≤ mdd ∧ mdd ≤ 100) ∧
    (∀ other, snapshots.Perm other → standard.calculateMaxDrawdown other = .ok mdd) ∧
    ∀ later, 0 ≤ later.totalValue → Ordinary later.totalValue →
      (∀ snap ∈ snapshots, snap.snapshotDate < later.snapshotDate) →
      ∃ mdd', standard.calculateMaxDrawdown (snapshots ++ [later]) = .ok mdd' ∧ mdd ≤ mdd' := by
  refine ⟨_, h.eq_ok, h.near, h.isMaxDrawdown, h.bounds, fun other hperm => ?_,
    fun later hnonneg hordinary hlater => ?_⟩
  · have hsame : standard.calculateMaxDrawdown snapshots = standard.calculateMaxDrawdown other := by
      unfold calculateMaxDrawdown
      rw [PerformanceCalculator.sortedSnaps_perm h.nodup hperm]
    rw [← hsame, h.eq_ok]
  · have hlast : DecimalContext.totals (snapshots ++ [later]) =
        DecimalContext.totals snapshots ++ [later.totalValue] := by
      unfold DecimalContext.totals
      rw [PerformanceCalculator.sortedSnaps_append h.toDated hlater, List.map_append, List.map_singleton]
    refine ⟨_, (h.append hnonneg hordinary hlater).eq_ok, PerformanceCalculator.quantize2_mono ?_⟩
    rw [hlast]
    exact largestFall_le_append _ _

theorem ordinary_of_le (hlow : 10 ^ (-99 : ℤ) ≤ v) (hhigh : v ≤ 10 ^ (99 : ℤ)) : Ordinary v :=
  .inr ⟨le_trans (zpow_le_zpow_right₀ (by norm_num) (by norm_num)) hlow,
    hhigh.trans (zpow_le_zpow_right₀ (by norm_num) (by norm_num))⟩

/-- From 300 on the second day to 200 on the third. -/
theorem calculateMaxDrawdown_near_outOfOrder :
    ∃ mdd, standard.calculateMaxDrawdown [cashSnapshot 3 200, cashSnapshot 1 0, cashSnapshot 2 300] = .ok mdd ∧
      IsMaxDrawdown [cashSnapshot 3 200, cashSnapshot 1 0, cashSnapshot 2 300] mdd := by
  have hplain : Plain [cashSnapshot 3 200, cashSnapshot 1 0, cashSnapshot 2 300] := {
    nodup := by decide
    nonneg := by decide +kernel
    ordinary := by
      rw [List.forall_mem_cons, List.forall_mem_cons, List.forall_mem_singleton]
      exact ⟨ordinary_of_le (by decide +kernel) (by decide +kernel), .inl rfl,
        ordinary_of_le (by decide +kernel) (by decide +kernel)⟩ }
  have hcoarse : Coarse [cashSnapshot 3 200, cashSnapshot 1 0, cashSnapshot 2 300] := by
    refine ⟨0, by decide, ?_⟩
    rw [List.forall_mem_cons, List.forall_mem_cons, List.forall_mem_singleton]
    exact ⟨⟨200, by norm_num, by decide +kernel⟩, ⟨0, by norm_num, by decide +kernel⟩,
      ⟨300, by norm_num, by decide +kernel⟩⟩
  obtain ⟨mdd, hmdd, -, hexact, -⟩ := calculateMaxDrawdown_near hplain
  exact ⟨mdd, hmdd, hexact hcoarse⟩

/-- Two values whose fall is just below a boundary of the rounding; the percentage in 28 digits is on it. -/
def finePair : List PortfolioSnapshot :=
  [cashSnapshot 1 (10000000 + 19001 / 10 ^ 19), cashSnapshot 2 (9499500 + 1805 / 10 ^ 18)]

/-- The greatest fall is 5.00 percent, the context rounds it to 5.01. -/
theorem finePair_rounds_up : Dated finePair ∧
    ¬ ∃ mdd, standard.calculateMaxDrawdown finePair = .ok mdd ∧ IsMaxDrawdown finePair mdd := by
  have hdated : Dated finePair := ⟨by decide +kernel, by decide +kernel⟩
  refine ⟨hdated, ?_⟩
  rintro ⟨mdd, hmdd, hmax⟩
  have hcontext : standard.calculateMaxDrawdown finePair = .ok (501 / 100) := by decide +kernel
  have hexact : PerformanceCalculator.calculateMaxDrawdown finePair = 5 := by decide +kernel
  have hgreatest := PerformanceCalculator.calculateMaxDrawdown_isMaxDrawdown hdated
  rw [hcontext] at hmdd
  rw [hexact] at hgreatest
  have hsame := PerformanceCalculator.IsMaxDrawdown.unique hmax hgreatest
  rw [← Except.ok.inj hmdd] at hsame
  norm_num at hsame

end DecimalContext

end TradingAgent
