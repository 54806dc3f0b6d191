/-
The figures of a period in Python's decimal context: the numbers that the operations give where they stay in the
range of the exponents, and the sizes for which they do.
-/
import TradingAgent.Report.Context
import TradingAgent.Lib.Domain

namespace TradingAgent

namespace DecimalContext

open PerformanceCalculator (sortedSnaps)
open Domain

/-! ## Numbers in the range -/

/-- The end of the range. -/
def rangeEnd : Decimal := 10 ^ top

/-- The unit of the last digit of the largest numbers. -/
def lastUnit : Decimal := 10 ^ (top - (28 : ℕ))

/-- A number of this size is rounded to one in the range of the exponents. -/
def InRange (x : Decimal) : Prop := |x| < rangeEnd - lastUnit / 2

variable {x y : Decimal}

theorem rangeEnd_pos : 0 < rangeEnd := zpow_pos (by norm_num) _

theorem lastUnit_pos : 0 < lastUnit := zpow_pos (by norm_num) _

/-- The last digit of the largest numbers is still large. -/
theorem lastUnit_large : 10 * 10 ^ (99 : ℤ) ≤ lastUnit ∧ 10 * lastUnit ≤ rangeEnd := by
  unfold lastUnit rangeEnd
  rw [← zpow_one_add₀ (by norm_num), ← zpow_one_add₀ (by norm_num)]
  unfold top
  exact ⟨zpow_le_zpow_right₀ (by norm_num) (by norm_num), zpow_le_zpow_right₀ (by norm_num) (by norm_num)⟩

theorem tiny_le : tiny + (28 : ℕ) ≤ top := by decide

theorem within_iff : standard.within x = true ↔ |x| < rangeEnd := by
  unfold standard
  rw [decide_eq_true_iff]
  rcases eq_or_ne x 0 with rfl | hx
  · rw [abs_zero, Int.log_zero_right]
    exact iff_of_true (by decide) rangeEnd_pos
  · have hlog := Int.lt_zpow_iff_log_lt (b := 10) (x := top) (by norm_num) (abs_pos.2 hx)
    rw [Nat.cast_ofNat] at hlog
    exact hlog.symm

theorem within_round_iff : standard.within (standard.round x) = true ↔ InRange x :=
  within_iff.trans (ExponentRange.abs_round_lt_iff (by norm_num) tiny_le)

theorem finish_gives (x : Decimal) : Gives (standard.finish x) (InRange x) (standard.round x) := by
  unfold finish
  rw [← within_round_iff]
  constructor
  · exact fun h => if_pos h
  · exact fun h => ⟨overflow, if_neg h⟩

theorem add_gives (x y : Decimal) :
    Gives (standard.add x y) (InRange (x + y)) (standard.round (x + y)) := finish_gives _

theorem sub_gives (x y : Decimal) :
    Gives (standard.sub x y) (InRange (x - y)) (standard.round (x - y)) := finish_gives _

theorem mul_gives (x y : Decimal) :
    Gives (standard.mul x y) (InRange (x * y)) (standard.round (x * y)) := finish_gives _

theorem abs_gives (x : Decimal) : Gives (standard.abs x) (InRange |x|) (standard.round |x|) := finish_gives _

theorem finish_eq_ok (h : InRange x) : standard.finish x = .ok (standard.round x) := (finish_gives x).ok h

theorem div_gives (hy : y ≠ 0) : Gives (standard.div x y) (InRange (x / y)) (standard.round (x / y)) := by
  rw [div_eq hy]
  exact finish_gives _

theorem div_eq_ok (hy : y ≠ 0) (h : InRange (x / y)) : standard.div x y = .ok (standard.round (x / y)) :=
  (div_gives hy).ok h

theorem InRange.of_abs_le (h : InRange y) (hle : |x| ≤ |y|) : InRange x := hle.trans_lt h

/-- A rounded number in the range is below its end by a unit of the last digit. -/
def Rounded (x : Decimal) : Prop := |x| ≤ rangeEnd - lastUnit

theorem InRange.rounded (h : InRange x) : Rounded (standard.round x) :=
  ExponentRange.abs_round_le_of_lt (by norm_num) tiny_le (within_iff.1 (within_round_iff.2 h))

/-- A small number does not take a rounded one out of the range. -/
theorem Rounded.inRange_add (h : Rounded x) (hy : |y| ≤ 10 ^ (99 : ℤ)) : InRange (x + y) := by
  have hlarge := lastUnit_large.1
  have htriangle := abs_add_le x y
  have hpos := lastUnit_pos
  unfold Rounded at h
  unfold InRange
  linarith

theorem Rounded.inRange (h : Rounded x) : InRange x := by
  have hpos := lastUnit_pos
  unfold Rounded at h
  unfold InRange
  linarith

theorem inRange_of_le (hx : |x| ≤ 10 ^ (99 : ℤ)) : InRange x := by
  have hzero : Rounded 0 := by
    have hlarge := lastUnit_large.2
    have hpos := lastUnit_pos
    unfold Rounded
    rw [abs_zero]
    linarith
  rw [← zero_add x]
  exact hzero.inRange_add hx

/-- A percentage in the range is that of a ratio in the range. -/
theorem inRange_of_pct (h : InRange (standard.round x * 100)) : InRange x := by
  by_contra hx
  rw [← within_round_iff, within_iff, not_lt] at hx
  have hpos := rangeEnd_pos
  have hunit := lastUnit_pos
  unfold InRange at h
  rw [abs_mul, abs_of_pos (by norm_num : (0 : Decimal) < 100)] at h
  linarith [abs_nonneg (standard.round x)]

theorem round_nonneg (hx : 0 ≤ x) : 0 ≤ standard.round x := ExponentRange.round_nonneg hx

theorem round_mono : Monotone standard.round := ExponentRange.round_mono (by norm_num)

theorem abs_round_le (x : Decimal) : |standard.round x| ≤ 10 * |x| := ExponentRange.abs_round_le (by norm_num) x

theorem abs_pct_le {bound : Decimal} (h : |x| ≤ bound) : |standard.round x * 100| ≤ 1000 * bound := by
  rw [abs_mul, abs_of_pos (by norm_num : (0 : Decimal) < 100)]
  linarith [abs_round_le x]

/-! ## Quantized numbers -/

/-- Below this bound a number with two decimal places has 28 digits. -/
def pctBound : Decimal := 10 ^ 26 - 1 / 200

/-- Below this bound a number with four decimal places has 28 digits. -/
def ratioBound : Decimal := 10 ^ 24 - 1 / 20000

theorem quantize_gives (places : ℕ) (x : Decimal) : Gives (standard.quantize places x)
    (|Rounding.halfUp (x * 10 ^ places)| < 10 ^ 28) (Rounding.halfUp (x * 10 ^ places) / 10 ^ places) := by
  have hfits : standard.fits (Rounding.halfUp (x * 10 ^ places)) = true ↔
      |Rounding.halfUp (x * 10 ^ places)| < 10 ^ 28 :=
    decide_eq_true_iff
  unfold quantize
  dsimp only
  rw [← hfits]
  constructor
  · exact fun h => if_pos h
  · exact fun h => ⟨invalidOperation, if_neg h⟩

theorem quantize2_gives (x : Decimal) : Gives (standard.quantize 2 (standard.round x)) (|x| < pctBound)
    (quantize2 (standard.round x)) := by
  have hbound : (10 : Decimal) ^ (((28 : ℕ) : ℤ) - (2 : ℕ)) - 10 ^ (-((2 : ℕ) : ℤ)) / 2 = pctBound := by decide +kernel
  have hten : (10 : Decimal) ^ 2 = 100 := by norm_num
  have hgives := quantize_gives 2 (standard.round x)
  rw [hten] at hgives
  refine hgives.congr ?_
  rw [← hbound, ← hten]
  exact ExponentRange.abs_halfUp_round_lt_iff (by norm_num) (by decide) x

theorem quantize4_gives (x : Decimal) : Gives (standard.quantize 4 (standard.round x)) (|x| < ratioBound)
    (quantize4 (standard.round x)) := by
  have hbound : (10 : Decimal) ^ (((28 : ℕ) : ℤ) - (4 : ℕ)) - 10 ^ (-((4 : ℕ) : ℤ)) / 2 =
      ratioBound := by decide +kernel
  have hten : (10 : Decimal) ^ 4 = 10000 := by norm_num
  have hgives := quantize_gives 4 (standard.round x)
  rw [hten] at hgives
  refine hgives.congr ?_
  rw [← hbound, ← hten]
  exact ExponentRange.abs_halfUp_round_lt_iff (by norm_num) (by decide) x

/-- A percentage fits if the ratio of which it is computed does. -/
theorem abs_pct_lt_iff : |standard.round x * 100| < pctBound ↔ |x| < ratioBound := by
  have hscale : |standard.round x * 100| < pctBound ↔ |standard.round x| < ratioBound := by
    rw [abs_mul, abs_of_pos (by norm_num : (0 : Decimal) < 100)]
    unfold pctBound ratioBound
    constructor
    · intro h
      linarith
    · intro h
      linarith
  have hbound : (10 : Decimal) ^ (24 : ℤ) - 10 ^ ((24 : ℤ) - (28 : ℕ)) / 2 = ratioBound := by decide +kernel
  have hle : ratioBound ≤ (10 : Decimal) ^ (24 : ℤ) := by decide +kernel
  have hnear : (10 : Decimal) ^ (24 : ℤ) - 10 ^ ((24 : ℤ) - (28 : ℕ)) < ratioBound := by decide +kernel
  rw [hscale, ← hbound]
  exact ExponentRange.abs_round_lt_iff_of_near (by norm_num) (by decide) (hbound ▸ hle) (hbound ▸ hnear)

theorem bounds_small : ratioBound ≤ 10 ^ (99 : ℤ) ∧ pctBound ≤ 10 ^ (99 : ℤ) ∧ 0 < pctBound ∧ 1 < ratioBound := by
  decide +kernel

theorem abs_div_lt_iff {bound : Decimal} (hy : y ≠ 0) : |x / y| < bound ↔ |x| < bound * |y| := by
  rw [abs_div, div_lt_iff₀ (abs_pos.2 hy)]

/-- A ratio that fits as a percentage is in the range, and so is the percentage. -/
theorem inRange_of_lt_ratioBound (h : |x| < ratioBound) : InRange x ∧ InRange (standard.round x * 100) :=
  ⟨inRange_of_le (h.le.trans bounds_small.1), inRange_of_le ((abs_pct_lt_iff.2 h).le.trans bounds_small.2.1)⟩

/-! ## Changes in percent -/

/-- The change from one value to another in percent, in 28 digits. -/
def pctFigure (a b : Decimal) : Decimal := standard.round (standard.round (standard.round (b - a) / a) * 100)

/-- The change from one value to another is in the range. -/
def Changes (a b : Decimal) : Prop := InRange (b - a) ∧ InRange (standard.round (standard.round (b - a) / a) * 100)

theorem changePct_gives {a : Decimal} (ha : a ≠ 0) (b : Decimal) :
    Gives (standard.changePct a b) (Changes a b) (pctFigure a b) := by
  unfold changePct
  refine ((sub_gives b a).bind fun _ => (div_gives ha).bind fun _ => mul_gives _ 100).congr ?_
  constructor
  · rintro ⟨hdifference, -, hpct⟩
    exact ⟨hdifference, hpct⟩
  · rintro ⟨hdifference, hpct⟩
    exact ⟨hdifference, inRange_of_pct hpct, hpct⟩

theorem Changes.rounded {a b : Decimal} (h : Changes a b) : Rounded (pctFigure a b) := h.2.rounded

/-- The total values in the order of their dates. -/
def totals (snapshots : List PortfolioSnapshot) : List Decimal := (sortedSnaps snapshots).map (·.totalValue)

/-- The changes between neighbours that follow a value; none from zero. -/
def changesAfter (value : Decimal) : List Decimal → List Decimal
  | [] => []
  | next :: rest => if value = 0 then changesAfter next rest else pctFigure value next :: changesAfter next rest

/-- The changes between neighbours. -/
def changesOf : List Decimal → List Decimal
  | [] => []
  | first :: rest => changesAfter first rest

theorem returnsAfter_gives (snaps : List PortfolioSnapshot) : ∀ prevVal, Gives (standard.returnsAfter prevVal snaps)
    (List.IsChain (fun a b => a ≠ 0 → Changes a b) (prevVal :: snaps.map (·.totalValue)))
    (changesAfter prevVal (snaps.map (·.totalValue))) := by
  induction snaps with
  | nil => exact fun prevVal => (Gives.of_ok rfl).congr (iff_of_true trivial (List.isChain_singleton _))
  | cons snap snaps ih =>
    intro prevVal
    rw [List.map_cons, List.isChain_cons_cons]
    unfold returnsAfter changesAfter
    by_cases hprev : prevVal = 0
    · rw [if_pos hprev, if_pos hprev]
      exact (ih snap.totalValue).congr (and_iff_right fun h => absurd hprev h).symm
    · rw [if_neg hprev, if_neg hprev]
      refine ((changePct_gives hprev _).bind fun _ => (ih snap.totalValue).map _).congr ?_
      rw [imp_iff_right hprev]

theorem dailyReturns_gives (snapshots : List PortfolioSnapshot) : Gives (standard.dailyReturnsFromSnapshots snapshots)
    (List.IsChain (fun a b => a ≠ 0 → Changes a b) (totals snapshots)) (changesOf (totals snapshots)) := by
  unfold dailyReturnsFromSnapshots totals
  cases sortedSnaps snapshots with
  | nil => exact (Gives.of_ok rfl).congr (iff_of_true trivial List.isChain_nil)
  | cons first rest => exact returnsAfter_gives rest first.totalValue

/-! ## Sums and means -/

/-- The sum of a list in 28 digits. -/
def totalFigure (xs : List Decimal) : Decimal := xs.foldl (fun acc x => standard.round (acc + x)) 0

/-- Adding a list to a number stays in the range. -/
def SumsFrom (acc : Decimal) : List Decimal → Prop
  | [] => True
  | x :: xs => InRange (acc + x) ∧ SumsFrom (standard.round (acc + x)) xs

/-- Adding up a list stays in the range. -/
def Sums (xs : List Decimal) : Prop := SumsFrom 0 xs

def meanFigure (xs : List Decimal) : Decimal := standard.round (totalFigure xs / xs.length)

theorem foldlM_add_gives (xs : List Decimal) : ∀ acc, Gives (xs.foldlM standard.add acc) (SumsFrom acc xs)
    (xs.foldl (fun acc x => standard.round (acc + x)) acc) := by
  induction xs with
  | nil => exact fun acc => Gives.of_ok rfl
  | cons x xs ih =>
    intro acc
    rw [List.foldlM_cons]
    exact (add_gives acc x).bind fun _ => ih _

theorem sum_gives (xs : List Decimal) : Gives (standard.sum xs) (Sums xs) (totalFigure xs) := foldlM_add_gives xs 0

theorem rounded_zero : Rounded 0 := by
  have hlarge := lastUnit_large.2
  have hpos := lastUnit_pos
  unfold Rounded
  rw [abs_zero]
  linarith

theorem rounded_foldl (xs : List Decimal) : ∀ acc, Rounded acc → SumsFrom acc xs →
    Rounded (xs.foldl (fun acc x => standard.round (acc + x)) acc) := by
  induction xs with
  | nil => exact fun acc hacc _ => hacc
  | cons x xs ih => exact fun acc _ h => ih _ h.1.rounded h.2

theorem Sums.rounded {xs : List Decimal} (h : Sums xs) : Rounded (totalFigure xs) := rounded_foldl xs 0 rounded_zero h

/-- The mean of a list is not larger than its sum. -/
theorem Sums.inRange_mean {xs : List Decimal} (h : Sums xs) : InRange (totalFigure xs / xs.length) := by
  refine h.rounded.inRange.of_abs_le ?_
  rw [abs_div]
  rcases Nat.eq_zero_or_pos xs.length with hzero | hpos
  · rw [hzero, Nat.cast_zero, abs_zero, div_zero]
    exact abs_nonneg _
  · have hone : (1 : Decimal) ≤ |(xs.length : Decimal)| := by
      rw [Nat.abs_cast]
      exact Nat.one_le_cast.2 hpos
    exact div_le_self (abs_nonneg _) hone

theorem mean_gives {xs : List Decimal} (hne : xs ≠ []) : Gives (standard.mean xs) (Sums xs) (meanFigure xs) := by
  have hlength : (xs.length : Decimal) ≠ 0 := Nat.cast_ne_zero.2 fun h => hne (List.length_eq_zero_iff.1 h)
  have hquot := div_gives (x := totalFigure xs) hlength
  unfold mean
  refine ((sum_gives xs).bind fun _ => hquot).congr ?_
  exact and_iff_left_of_imp Sums.inRange_mean

theorem Sums.rounded_mean {xs : List Decimal} (h : Sums xs) : Rounded (meanFigure xs) := h.inRange_mean.rounded

theorem foldl_nonneg (xs : List Decimal) : ∀ acc, 0 ≤ acc → (∀ x ∈ xs, 0 ≤ x) →
    0 ≤ xs.foldl (fun acc x => standard.round (acc + x)) acc := by
  induction xs with
  | nil => exact fun acc hacc _ => hacc
  | cons x xs ih =>
    intro acc hacc h
    exact ih _ (round_nonneg (add_nonneg hacc (h x (List.mem_cons_self ..))))
      fun y hy => h y (List.mem_cons_of_mem _ hy)

theorem totalFigure_nonneg {xs : List Decimal} (h : ∀ x ∈ xs, 0 ≤ x) : 0 ≤ totalFigure xs := foldl_nonneg xs 0 le_rfl h

/-- Where the sum of numbers that are not negative stays in the range, so does each of them. -/
theorem SumsFrom.forall_lt : ∀ {xs : List Decimal} {acc : Decimal}, SumsFrom acc xs → 0 ≤ acc → (∀ x ∈ xs, 0 ≤ x) →
    ∀ x ∈ xs, |x| < rangeEnd
  | [], _, _, _, _, x, hx => absurd hx List.not_mem_nil
  | x :: xs, acc, h, hacc, hnonneg, y, hy => by
    have hx := hnonneg x (List.mem_cons_self ..)
    rcases List.mem_cons.1 hy with rfl | hy
    · have hpos := lastUnit_pos
      have hsum := h.1
      unfold InRange at hsum
      rw [abs_of_nonneg (add_nonneg hacc hx)] at hsum
      rw [abs_of_nonneg hx]
      linarith
    · exact h.2.forall_lt (round_nonneg (add_nonneg hacc hx)) (fun z hz => hnonneg z (List.mem_cons_of_mem _ hz)) y hy

/-! ## The maximum drawdown -/

/-- The fall from a peak to a value in percent, in 28 digits. -/
def fallFigure (peak value : Decimal) : Decimal :=
  standard.round (standard.round (standard.round (peak - value) / peak) * 100)

/-- The fall from one value to another is in the range. -/
def Falls (a b : Decimal) : Prop := a - b < rangeEnd - lastUnit / 2

/-- One value of the drawdown loop: the peak so far and the largest fall. -/
def drawdownFigure (acc : Decimal × Decimal) (value : Decimal) : Decimal × Decimal :=
  (max acc.1 value, if max acc.1 value > 0 then max acc.2 (fallFigure (max acc.1 value) value) else acc.2)

theorem falls_self (a : Decimal) : Falls a a := by
  have hlarge := lastUnit_large.2
  have hpos := lastUnit_pos
  unfold Falls
  linarith

theorem falls_max_iff {p v w : Decimal} : Falls (max p v) w ↔ Falls p w ∧ Falls v w := by
  unfold Falls
  rcases le_total p v with h | h
  · rw [max_eq_right h]
    exact ⟨fun hv => ⟨by linarith, hv⟩, fun hv => hv.2⟩
  · rw [max_eq_left h]
    exact ⟨fun hp => ⟨hp, by linarith⟩, fun hp => hp.1⟩

/-- A fall in percent is never larger than this, however its steps are rounded. -/
def fallBound : Decimal := 10 ^ 5

theorem abs_fall_le {peak value : Decimal} (hpeak : 0 < peak) (hvalue : 0 ≤ value) (hle : value ≤ peak) :
    |standard.round (peak - value) / peak| ≤ 10 ∧
      |standard.round (standard.round (peak - value) / peak) * 100| ≤ fallBound / 10 ∧
      |fallFigure peak value| ≤ fallBound := by
  have hquot : |standard.round (peak - value) / peak| ≤ 10 := by
    have hsub := abs_round_le (peak - value)
    rw [abs_of_nonneg (sub_nonneg.2 hle)] at hsub
    rw [abs_div, abs_of_pos hpeak, div_le_iff₀ hpeak]
    linarith
  have hpct := abs_pct_le hquot
  have hround := abs_round_le (standard.round (standard.round (peak - value) / peak) * 100)
  unfold fallFigure fallBound
  exact ⟨hquot, by linarith, by linarith⟩

theorem drawdownStep_gives {acc : Decimal × Decimal} {snap : PortfolioSnapshot} (hvalue : 0 ≤ snap.totalValue) :
    Gives (standard.drawdownStep acc snap) (Falls acc.1 snap.totalValue) (drawdownFigure acc snap.totalValue) := by
  have hcond : Falls acc.1 snap.totalValue ↔ Falls (max acc.1 snap.totalValue) snap.totalValue := by
    rw [falls_max_iff]
    exact (and_iff_left (falls_self _)).symm
  rw [hcond]
  unfold drawdownStep drawdownFigure
  dsimp only
  rw [Drawdown.ite_gt_eq_max]
  have hle : snap.totalValue ≤ max acc.1 snap.totalValue := le_max_right _ _
  generalize max acc.1 snap.totalValue = peak at hle
  by_cases hpeak : peak > 0
  · obtain ⟨hquot, hpct, -⟩ := abs_fall_le hpeak hvalue hle
    have hdiv := div_eq_ok hpeak.ne' (inRange_of_le (hquot.trans (by norm_num)))
    have hmul := (mul_gives (standard.round (standard.round (peak - snap.totalValue) / peak)) 100).ok
      (inRange_of_le (hpct.trans (by norm_num [fallBound])))
    have hfalls : InRange (peak - snap.totalValue) ↔ Falls peak snap.totalValue := by
      unfold InRange Falls
      rw [abs_of_nonneg (sub_nonneg.2 hle)]
    rw [if_pos hpeak, if_pos hpeak, ← hfalls]
    refine ((sub_gives peak snap.totalValue).bind (Q := True) fun _ => ?_).congr (and_iff_left trivial)
    rw [hdiv]
    refine Gives.of_ok (Wp.bind_eq_ok.2 ⟨_, rfl, Wp.bind_eq_ok.2 ⟨_, hmul, ?_⟩⟩)
    rw [Drawdown.ite_gt_eq_max]
    rfl
  · rw [if_neg hpeak, if_neg hpeak]
    refine (Gives.of_ok rfl).congr (iff_of_true trivial ?_)
    have hlarge := lastUnit_large.2
    have hpos := lastUnit_pos
    unfold Falls
    linarith

/-- The drawdown loop stays in the range where no value falls too far below an earlier one. -/
theorem foldlM_drawdownStep_gives (snaps : List PortfolioSnapshot) : ∀ acc : Decimal × Decimal,
    (∀ snap ∈ snaps, 0 ≤ snap.totalValue) → Gives (snaps.foldlM standard.drawdownStep acc)
      ((acc.1 :: snaps.map (·.totalValue)).Pairwise Falls) ((snaps.map (·.totalValue)).foldl drawdownFigure acc) := by
  induction snaps with
  | nil => exact fun acc _ => (Gives.of_ok rfl).congr (iff_of_true trivial (List.pairwise_singleton _ _))
  | cons snap snaps ih =>
    intro acc hnonneg
    have hrest := ih (drawdownFigure acc snap.totalValue) fun s hs => hnonneg s (List.mem_cons_of_mem _ hs)
    rw [List.foldlM_cons]
    refine ((drawdownStep_gives (hnonneg snap (List.mem_cons_self ..))).bind fun _ => hrest).congr ?_
    have hmax : (∀ w ∈ snaps.map (·.totalValue), Falls (drawdownFigure acc snap.totalValue).1 w) ↔
        (∀ w ∈ snaps.map (·.totalValue), Falls acc.1 w) ∧ ∀ w ∈ snaps.map (·.totalValue), Falls snap.totalValue w := by
      rw [← forall₂_and]
      exact forall₂_congr fun _ _ => falls_max_iff
    rw [List.map_cons, List.pairwise_cons, List.pairwise_cons, List.pairwise_cons, List.forall_mem_cons, hmax]
    tauto

theorem abs_foldl_drawdownFigure_le (values : List Decimal) : ∀ acc : Decimal × Decimal, (∀ v ∈ values, 0 ≤ v) →
    |acc.2| ≤ fallBound → |(values.foldl drawdownFigure acc).2| ≤ fallBound := by
  induction values with
  | nil => exact fun acc _ hacc => hacc
  | cons v values ih =>
    intro acc hnonneg hacc
    refine ih _ (fun w hw => hnonneg w (List.mem_cons_of_mem _ hw)) ?_
    unfold drawdownFigure
    dsimp only
    split
    · rename_i hpeak
      have hfall := (abs_fall_le hpeak (hnonneg v (List.mem_cons_self ..)) (le_max_right _ _)).2.2
      exact abs_max_le_max_abs_abs.trans (max_le hacc hfall)
    · exact hacc

/-- The largest fall of the loop. -/
def largestFall : List Decimal → Decimal
  | [] => 0
  | first :: rest => ((first :: rest).foldl drawdownFigure (first, 0)).2

theorem calculateMaxDrawdown_gives {snapshots : List PortfolioSnapshot}
    (hnonneg : ∀ snap ∈ snapshots, 0 ≤ snap.totalValue) :
    Gives (standard.calculateMaxDrawdown snapshots) ((totals snapshots).Pairwise Falls)
      (quantize2 (largestFall (totals snapshots))) := by
  unfold calculateMaxDrawdown totals
  cases hsorted : sortedSnaps snapshots with
  | nil =>
    rw [List.map_nil, largestFall, PerformanceCalculator.quantize2_zero]
    exact (Gives.of_ok rfl).congr (iff_of_true trivial List.Pairwise.nil)
  | cons first rest =>
    have hvalues : ∀ snap ∈ first :: rest, 0 ≤ snap.totalValue := by
      intro snap hsnap
      rw [← hsorted] at hsnap
      exact hnonneg snap ((List.mem_insertionSort _).1 hsnap)
    have hvalues' : ∀ v ∈ (first :: rest).map (·.totalValue), 0 ≤ v := by
      intro v hv
      obtain ⟨snap, hsnap, rfl⟩ := List.mem_map.1 hv
      exact hvalues snap hsnap
    have hbound := abs_foldl_drawdownFigure_le _ (first.totalValue, 0) hvalues' (by norm_num [fallBound])
    have hquantize : standard.quantize 2 (largestFall ((first :: rest).map (·.totalValue))) =
        .ok (quantize2 (largestFall ((first :: rest).map (·.totalValue)))) := by
      have hten : (10 : Decimal) ^ 2 = 100 := by norm_num
      have hgives := quantize_gives 2 (largestFall ((first :: rest).map (·.totalValue)))
      rw [hten] at hgives
      refine hgives.ok ?_
      rw [Rounding.abs_halfUp_lt_iff (by norm_num), abs_mul]
      unfold fallBound at hbound
      unfold largestFall
      norm_num at hbound ⊢
      linarith
    refine ((foldlM_drawdownStep_gives _ _ hvalues).bind (Q := True) fun _ => Gives.of_ok hquantize).congr ?_
    rw [and_iff_left trivial, List.map_cons, List.pairwise_cons, List.forall_mem_cons, and_iff_right (falls_self _),
      List.pairwise_cons]
    exact and_iff_right_of_imp fun h => h.1

end DecimalContext

end TradingAgent
