/-
When the performance calculator returns in Python's decimal context: where nothing leaves the range of the exponents
and nothing too large for 28 digits is quantized. Nothing is divided by zero and no square root is taken of a
negative number.
-/
import TradingAgent.Report.Figures

namespace TradingAgent

namespace DecimalContext

open PerformanceCalculator (sortedSnaps)
open Domain

/-- Powers with a positive exponent: a root of a number in the range is in the range, a negative number has no
fractional powers, and squares are not negative. The square root is not below one from one on. -/
structure Powers (math : DecimalMath) : Prop where
  root : ∀ b e, 0 ≤ b → b < rangeEnd → 0 < e → e ≤ 1 / 2 → ∃ p, math.pow b e = .ok p ∧ |p| ≤ lastUnit / 1000000
  negative : ∀ b e, b < 0 → 0 < e → e.den ≠ 1 → ∃ exn, math.pow b e = .error exn
  square : ∀ b p, math.pow b 2 = .ok p → 0 ≤ p
  sqrt : ∀ x, 1 ≤ x → 1 ≤ math.sqrt x

variable {math : DecimalMath} {x y : Decimal}

/-! ## The risk-free rate -/

/-- What a computation gives, or zero. -/
def valueOf (x : Except Exn Decimal) : Decimal := x.toOption.getD 0

/-- The yearly growth without risk, and the root that makes it a daily one. -/
def riskFreeGrowth (riskFree : Decimal) : Decimal := standard.round (1 + standard.round (riskFree / 100))

def dailyRoot : Decimal := standard.round (1 / ((252 : ℕ) : Decimal))

def rfFigure (math : DecimalMath) (riskFree : Decimal) : Decimal :=
  standard.round (standard.round (valueOf (math.pow (riskFreeGrowth riskFree) dailyRoot) - 1) * 100)

/-- A risk-free rate in the range that loses at most everything. -/
structure RateFits (riskFree : Decimal) : Prop where
  inRange : InRange (riskFree / 100)
  nonneg : 0 ≤ riskFreeGrowth riskFree

theorem dailyRoot_spec : 0 < dailyRoot ∧ dailyRoot ≤ 1 / 2 ∧ dailyRoot.den ≠ 1 := by decide +kernel

theorem RateFits.lt_rangeEnd {riskFree : Decimal} (h : InRange (riskFree / 100)) :
    Rounded (riskFreeGrowth riskFree) ∧
      standard.add 1 (standard.round (riskFree / 100)) = .ok (riskFreeGrowth riskFree) := by
  have hone : InRange (1 + standard.round (riskFree / 100)) := by
    rw [add_comm]
    exact h.rounded.inRange_add (by norm_num)
  exact ⟨hone.rounded, finish_eq_ok hone⟩

theorem abs_sub_one_le {p : Decimal} (h : |p| ≤ lastUnit / 1000000) : |p - 1| ≤ lastUnit / 500000 := by
  have hlarge := lastUnit_large.1
  have hone : (1000000 : Decimal) ≤ 10 ^ (99 : ℤ) := by norm_num
  have htriangle := abs_sub p 1
  rw [abs_one] at htriangle
  linarith

/-- The daily rate is small where there is one. -/
theorem rf_steps (hpowers : Powers math) {riskFree : Decimal} (h : RateFits riskFree) :
    ∃ p, math.pow (riskFreeGrowth riskFree) dailyRoot = .ok p ∧ InRange (p - 1) ∧
      InRange (standard.round (p - 1) * 100) ∧ |rfFigure math riskFree| ≤ lastUnit / 50 := by
  have hbase : riskFreeGrowth riskFree < rangeEnd := by
    have hpos := lastUnit_pos
    have hrounded := (RateFits.lt_rangeEnd h.inRange).1
    unfold Rounded at hrounded
    linarith [le_abs_self (riskFreeGrowth riskFree)]
  obtain ⟨p, hp, hsmall⟩ := hpowers.root _ _ h.nonneg hbase dailyRoot_spec.1 dailyRoot_spec.2.1
  have hlarge := lastUnit_large
  have hpct := abs_pct_le (abs_sub_one_le hsmall)
  have hvalue : valueOf (math.pow (riskFreeGrowth riskFree) dailyRoot) = p := by rw [hp]; rfl
  refine ⟨p, hp, ?_, ?_, ?_⟩
  · unfold InRange
    linarith [abs_sub_one_le hsmall]
  · unfold InRange
    linarith
  · unfold rfFigure
    rw [hvalue]
    linarith [abs_round_le (standard.round (p - 1) * 100)]

theorem rfDailyPct_gives (hpowers : Powers math) (riskFree : Decimal) :
    Gives (standard.rfDailyPct math riskFree 252) (RateFits riskFree) (rfFigure math riskFree) := by
  have hhundred : (100 : Decimal) ≠ 0 := by norm_num
  have hdays : ((252 : ℕ) : Decimal) ≠ 0 := by norm_num
  have hroot : standard.div 1 ((252 : ℕ) : Decimal) = .ok dailyRoot := div_eq_ok hdays (inRange_of_le (by norm_num))
  refine ((div_gives hhundred).bind (Q := 0 ≤ riskFreeGrowth riskFree) fun hrate => ?_).congr
    ⟨fun h => ⟨h.1, h.2⟩, fun h => ⟨h.1, h.2⟩⟩
  rw [(RateFits.lt_rangeEnd hrate).2, hroot]
  constructor
  · intro hnonneg
    obtain ⟨p, hp, hless, hpct, -⟩ := rf_steps hpowers ⟨hrate, hnonneg⟩
    have hvalue : valueOf (math.pow (riskFreeGrowth riskFree) dailyRoot) = p := by rw [hp]; rfl
    unfold rfFigure
    rw [hvalue]
    refine Wp.bind_eq_ok.2 ⟨_, rfl, Wp.bind_eq_ok.2 ⟨_, rfl, Wp.bind_eq_ok.2 ⟨p, hp, ?_⟩⟩⟩
    exact Wp.bind_eq_ok.2 ⟨_, finish_eq_ok hless, finish_eq_ok hpct⟩
  · intro hnegative
    obtain ⟨exn, hexn⟩ := hpowers.negative _ _ (not_le.1 hnegative) dailyRoot_spec.1 dailyRoot_spec.2.2
    refine ⟨exn, ?_⟩
    simp only [bind, Except.bind]
    rw [hexn]

/-! ## Deviations and ratios -/

/-- The squares of the distances from a centre. -/
def squares (math : DecimalMath) (center : Decimal) (returns : List Decimal) : List Decimal :=
  returns.map (fun r => valueOf (math.pow (standard.round (r - center)) 2))

/-- The root of the mean square of the distances from a centre. -/
def spread (math : DecimalMath) (center : Decimal) (returns : List Decimal) : Decimal :=
  math.sqrt (meanFigure (squares math center returns))

/-- The distances from a centre, their squares and the sum of these are in the range. -/
structure Spreads (math : DecimalMath) (center : Decimal) (returns : List Decimal) : Prop where
  distances : ∀ r ∈ returns, InRange (r - center)
  powers : ∀ r ∈ returns, ∃ p, math.pow (standard.round (r - center)) 2 = .ok p
  sums : Sums (squares math center returns)

theorem valueOf_gives (x : Except Exn Decimal) : Gives x (∃ p, x = .ok p) (valueOf x) := by
  constructor
  · rintro ⟨p, rfl⟩
    rfl
  · intro h
    cases x with
    | ok p => exact absurd ⟨p, rfl⟩ h
    | error e => exact ⟨e, rfl⟩

theorem deviation_gives (hpowers : Powers math) (center : Decimal) {returns : List Decimal} (hne : returns ≠ []) :
    Gives (standard.deviation math center returns) (Spreads math center returns) (spread math center returns) := by
  have hsquare : ∀ r ∈ returns, Gives (standard.sub r center >>= fun distance => math.pow distance 2)
      (InRange (r - center) ∧ ∃ p, math.pow (standard.round (r - center)) 2 = .ok p)
      (valueOf (math.pow (standard.round (r - center)) 2)) :=
    fun r _ => (sub_gives r center).bind fun _ => valueOf_gives _
  have hne' : squares math center returns ≠ [] := fun h => hne (List.map_eq_nil_iff.1 h)
  unfold deviation
  refine ((Gives.mapM hsquare).bind (Q := Sums (squares math center returns)) fun hp => ?_).congr ?_
  · refine ((mean_gives hne').bind (Q := True) fun _ =>
      Gives.of_ok (sqrt_eq_ok (round_nonneg ?_))).congr (and_iff_left trivial)
    refine div_nonneg (totalFigure_nonneg fun x hx => ?_) (Nat.cast_nonneg _)
    obtain ⟨r, hr, rfl⟩ := List.mem_map.1 hx
    obtain ⟨p, hp⟩ := (hp r hr).2
    rw [hp]
    exact hpowers.square _ _ hp
  · constructor
    · rintro ⟨hp, hsums⟩
      exact ⟨fun r hr => (hp r hr).1, fun r hr => (hp r hr).2, hsums⟩
    · intro h
      exact ⟨fun r hr => ⟨h.distances r hr, h.powers r hr⟩, h.sums⟩

/-- An excess return, scaled to a year, is less than so many deviations. -/
def ExcessBelow (math : DecimalMath) (excess stdDev : Decimal) : Prop :=
  |standard.round (excess / stdDev) * math.sqrt 252| < ratioBound

theorem ExcessBelow.inRange (hpowers : Powers math) {excess stdDev : Decimal} (h : ExcessBelow math excess stdDev) :
    InRange (excess / stdDev) ∧ InRange (standard.round (excess / stdDev) * math.sqrt 252) := by
  refine ⟨?_, inRange_of_le (h.le.trans bounds_small.1)⟩
  have hyear : (1 : Decimal) ≤ |math.sqrt 252| := (hpowers.sqrt 252 (by norm_num)).trans (le_abs_self _)
  have hlarge := lastUnit_large
  have hpow : (0 : Decimal) < 10 ^ (99 : ℤ) := by positivity
  have hbound := bounds_small.1
  unfold ExcessBelow at h
  rw [abs_mul] at h
  have hround : |standard.round (excess / stdDev)| ≤ |standard.round (excess / stdDev)| * |math.sqrt 252| :=
    le_mul_of_one_le_right (abs_nonneg _) hyear
  rw [← within_round_iff, within_iff]
  linarith

theorem yearlyRatio_returns (hpowers : Powers math) {meanRet rfDaily stdDev : Decimal} (hdev : stdDev ≠ 0)
    (hexcess : InRange (meanRet - rfDaily)) : Returns (standard.yearlyRatio math meanRet rfDaily stdDev 252)
      (ExcessBelow math (standard.round (meanRet - rfDaily)) stdDev) := by
  have hsub : standard.sub meanRet rfDaily = .ok (standard.round (meanRet - rfDaily)) := (sub_gives _ _).ok hexcess
  have hyear : sqrt math ((252 : ℕ) : Decimal) = .ok (math.sqrt 252) := sqrt_eq_ok (Nat.cast_nonneg _)
  unfold yearlyRatio
  rw [hsub, hyear]
  refine ((div_gives hdev).bind_returns fun _ => ((mul_gives _ _).bind fun _ => quantize4_gives _).returns).congr ?_
  constructor
  · rintro ⟨-, -, hbelow⟩
    exact hbelow
  · intro hbelow
    obtain ⟨hratio, hyearly⟩ := ExcessBelow.inRange hpowers hbelow
    exact ⟨hratio, hyearly, hbelow⟩

/-- The mean less the risk-free rate is in the range. -/
theorem inRange_excess (hpowers : Powers math) {riskFree : Decimal} (hrate : RateFits riskFree) {returns : List Decimal}
    (hsums : Sums returns) : InRange (meanFigure returns - rfFigure math riskFree) := by
  obtain ⟨p, -, -, -, hsmall⟩ := rf_steps hpowers hrate
  have hmean := hsums.rounded_mean
  have htriangle := abs_sub (meanFigure returns) (rfFigure math riskFree)
  have hpos := lastUnit_pos
  unfold Rounded at hmean
  unfold InRange
  linarith

/-- What the numbers of a ratio of returns to deviations have to be. -/
structure RatioFits (math : DecimalMath) (returns : List Decimal) (riskFree center : Decimal) (parts : List Decimal) :
    Prop where
  spreads : Spreads math center parts
  excess : spread math center parts ≠ 0 →
    ExcessBelow math (standard.round (meanFigure returns - rfFigure math riskFree)) (spread math center parts)

/-- The last steps of a ratio, which gives none without a deviation. -/
theorem ratio_returns (hpowers : Powers math) {returns : List Decimal} {riskFree : Decimal} (hrate : RateFits riskFree)
    (hsums : Sums returns) (stdDev : Decimal) (hne : stdDev ≠ 0) :
    Returns (standard.yearlyRatio math (meanFigure returns) (rfFigure math riskFree) stdDev 252 >>=
        fun ratio => pure (some ratio))
      (ExcessBelow math (standard.round (meanFigure returns - rfFigure math riskFree)) stdDev) :=
  (yearlyRatio_returns hpowers hne (inRange_excess hpowers hrate hsums)).map _

theorem calculateSharpeRatio_returns (hpowers : Powers math) (returns : List Decimal) (riskFree : Decimal) :
    Returns (standard.calculateSharpeRatio math returns riskFree) (2 ≤ returns.length →
      RateFits riskFree ∧ Sums returns ∧ RatioFits math returns riskFree (meanFigure returns) returns) := by
  unfold calculateSharpeRatio
  dsimp only
  refine (Returns.unless fun hlength => ?_).congr (imp_congr_left not_lt)
  have hne : returns ≠ [] := by
    rintro rfl
    exact hlength (by decide)
  refine (rfDailyPct_gives hpowers riskFree).bind_returns fun hrate => (mean_gives hne).bind_returns fun hsums => ?_
  refine Returns.congr ((deviation_gives hpowers _ hne).bind_returns
    (Q := spread math (meanFigure returns) returns ≠ 0 →
    ExcessBelow math (standard.round (meanFigure returns - rfFigure math riskFree))
      (spread math (meanFigure returns) returns)) fun _ => ?_) ⟨fun h => ⟨h.1, h.2⟩, fun h => ⟨h.1, h.2⟩⟩
  exact Returns.unless fun hdev => ratio_returns hpowers hrate hsums _ hdev

theorem calculateSortinoRatio_returns (hpowers : Powers math) (returns : List Decimal) (riskFree : Decimal) :
    Returns (standard.calculateSortinoRatio math returns riskFree) (2 ≤ returns.length → RateFits riskFree ∧
      (returns.filter (fun r => r < rfFigure math riskFree) ≠ [] →
        Spreads math (rfFigure math riskFree) (returns.filter (fun r => r < rfFigure math riskFree)) ∧
        (spread math (rfFigure math riskFree) (returns.filter (fun r => r < rfFigure math riskFree)) ≠ 0 →
          Sums returns ∧ ExcessBelow math (standard.round (meanFigure returns - rfFigure math riskFree))
            (spread math (rfFigure math riskFree) (returns.filter (fun r => r < rfFigure math riskFree)))))) := by
  unfold calculateSortinoRatio
  dsimp only
  refine (Returns.unless fun hlength => ?_).congr (imp_congr_left not_lt)
  have hne : returns ≠ [] := by
    rintro rfl
    exact hlength (by decide)
  refine (rfDailyPct_gives hpowers riskFree).bind_returns fun hrate => ?_
  generalize returns.filter (fun r => r < rfFigure math riskFree) = downside
  refine Returns.unless fun hempty => (deviation_gives hpowers _ hempty).bind_returns fun _ => ?_
  exact Returns.unless fun hdev => (mean_gives hne).bind_returns fun hsums =>
    ratio_returns hpowers hrate hsums _ hdev

/-! ## Wins and losses -/

theorem calculateWinRate_returns (closed : List PositionRecord) : Returns (standard.calculateWinRate closed) True := by
  unfold calculateWinRate
  dsimp only
  generalize closed.countP (fun p => p.realizedPnl.any (fun x => x > 0)) = wins
  generalize closed.countP (fun p => p.realizedPnl.any (fun x => x ≤ 0)) = losses
  by_cases htotal : wins + losses = 0
  · rw [if_pos htotal]
    exact Returns.of_ok rfl
  · have hcount : (0 : Decimal) < (wins + losses : ℕ) := Nat.cast_pos.2 (Nat.pos_of_ne_zero htotal)
    have hshare : |(wins : Decimal) / (wins + losses : ℕ)| < ratioBound := by
      rw [abs_of_nonneg (div_nonneg (Nat.cast_nonneg _) hcount.le), div_lt_iff₀ hcount]
      calc (wins : Decimal) ≤ (wins + losses : ℕ) := Nat.cast_le.2 (Nat.le_add_right _ _)
        _ < ratioBound * (wins + losses : ℕ) := lt_mul_of_one_lt_left hcount bounds_small.2.2.2
    have hrange := inRange_of_lt_ratioBound hshare
    rw [if_neg htotal, div_eq_ok hcount.ne' hrange.1]
    refine Returns.of_ok
      (a := (quantize2 (standard.round (standard.round ((wins : Decimal) / (wins + losses : ℕ)) * 100)),
      wins, losses)) (Wp.bind_eq_ok.2 ⟨_, rfl, Wp.bind_eq_ok.2 ⟨_, (mul_gives _ 100).ok hrange.2, ?_⟩⟩)
    exact Wp.bind_eq_ok.2 ⟨_, (quantize2_gives _).ok (abs_pct_lt_iff.2 hshare), rfl⟩

/-- The sizes of the losses. -/
def lossSizes (closed : List PositionRecord) : List Decimal := (losses closed).map (fun x => standard.round |x|)

/-- The total profit fits as a multiple of the total loss. -/
structure FactorFits (closed : List PositionRecord) : Prop where
  profits : Sums (profits closed)
  losses : Sums (lossSizes closed)
  factor : totalFigure (lossSizes closed) ≠ 0 →
    |totalFigure (DecimalContext.profits closed)| < pctBound * |totalFigure (lossSizes closed)|

theorem lossSizes_eq_ok {closed : List PositionRecord} (h : Sums (lossSizes closed)) :
    (losses closed).mapM standard.abs = .ok (lossSizes closed) := by
  refine mapM_eq_ok fun x hx => (abs_gives x).ok ?_
  have hnonneg : ∀ y ∈ lossSizes closed, 0 ≤ y := by
    intro y hy
    obtain ⟨z, -, rfl⟩ := List.mem_map.1 hy
    exact round_nonneg (abs_nonneg z)
  exact within_round_iff.1 (within_iff.2 (h.forall_lt le_rfl hnonneg _ (List.mem_map_of_mem hx)))

theorem calculateProfitFactor_returns (closed : List PositionRecord) :
    Returns (standard.calculateProfitFactor closed) (FactorFits closed) := by
  have hsizes : Gives ((losses closed).mapM standard.abs) (∀ x ∈ losses closed, InRange |x|) (lossSizes closed) :=
    Gives.mapM fun x _ => abs_gives x
  unfold calculateProfitFactor
  refine ((sum_gives (profits closed)).bind_returns fun _ => hsizes.bind_returns fun _ =>
    (sum_gives (lossSizes closed)).bind_returns (Q := totalFigure (lossSizes closed) ≠ 0 →
      |totalFigure (profits closed)| < pctBound * |totalFigure (lossSizes closed)|) fun _ => ?_).congr ?_
  · by_cases hloss : totalFigure (lossSizes closed) = 0
    · rw [if_pos hloss]
      exact (Returns.of_ok rfl).congr (iff_of_true trivial fun h => absurd hloss h)
    rw [if_neg hloss]
    by_cases hprofit : totalFigure (profits closed) = 0
    · rw [if_pos hprofit]
      refine (Returns.of_ok rfl).congr (iff_of_true trivial fun _ => ?_)
      rw [hprofit, abs_zero]
      exact mul_pos bounds_small.2.2.1 (abs_pos.2 hloss)
    · rw [if_neg hprofit]
      refine ((div_gives hloss).bind_returns fun _ => (quantize2_gives _).returns.map _).congr ?_
      rw [abs_div_lt_iff hloss, imp_iff_right hloss]
      refine and_iff_right_of_imp fun hfactor => inRange_of_le ?_
      exact ((abs_div_lt_iff hloss).2 hfactor).le.trans bounds_small.2.1
  · constructor
    · rintro ⟨hprofits, -, hlosses, hfactor⟩
      exact ⟨hprofits, hlosses, hfactor⟩
    · intro h
      exact ⟨h.profits, (Gives.returns hsizes).1 ⟨_, lossSizes_eq_ok h.losses⟩, h.losses, h.factor⟩

/-- The mean of percentages fits with two decimal places. -/
def MeanFits (pcts : List Decimal) : Prop := pcts ≠ [] → Sums pcts ∧ |totalFigure pcts| < pctBound * pcts.length

theorem averagePct_returns (pcts : List Decimal) : Returns (standard.averagePct pcts) (MeanFits pcts) := by
  unfold averagePct MeanFits
  by_cases hempty : pcts = []
  · rw [if_pos hempty]
    exact (Returns.of_ok rfl).congr (iff_of_true trivial fun h => absurd hempty h)
  · have hlength : (pcts.length : Decimal) ≠ 0 := Nat.cast_ne_zero.2 fun h => hempty (List.length_eq_zero_iff.1 h)
    rw [if_neg hempty]
    refine ((mean_gives hempty).bind_returns fun _ => (quantize2_gives _).returns).congr ?_
    rw [abs_div_lt_iff hlength, abs_of_nonneg (Nat.cast_nonneg (α := Decimal) pcts.length), imp_iff_right hempty]

/-- The price change of a closed position is in the range. -/
def Priced (p : PositionRecord) : Prop := ∀ exitPrice ∈ p.exitPrice, p.entryPrice ≠ 0 → Changes p.entryPrice exitPrice

/-- The price change of a closed position in percent with its realized result. -/
def pnlFigure (p : PositionRecord) : Option (Decimal × Decimal) :=
  match p.exitPrice with
  | some exitPrice =>
    if p.entryPrice = 0 then none else p.realizedPnl.map (fun pnl => (pctFigure p.entryPrice exitPrice, pnl))
  | none => none

theorem pnlPct_gives (p : PositionRecord) : Gives (standard.pnlPct p) (Priced p) (pnlFigure p) := by
  unfold pnlPct pnlFigure Priced
  cases p.exitPrice with
  | none => exact (Gives.of_ok rfl).congr (iff_of_true trivial nofun)
  | some exitPrice =>
    dsimp only
    by_cases hentry : p.entryPrice = 0
    · rw [if_pos hentry, if_pos hentry]
      exact (Gives.of_ok rfl).congr (iff_of_true trivial fun _ _ h => absurd hentry h)
    · rw [if_neg hentry, if_neg hentry]
      refine ((changePct_gives hentry exitPrice).map _).congr ?_
      exact ⟨fun h e he _ => Option.mem_some_iff.1 he ▸ h, fun h => h exitPrice rfl hentry⟩

theorem rounded_of_mem {closed : List PositionRecord} (h : ∀ p ∈ closed, Priced p) {e : Decimal × Decimal}
    (he : e ∈ (closed.map pnlFigure).reduceOption) : Rounded e.1 := by
  obtain ⟨p, hp, hfigure⟩ := List.mem_map.1 (List.reduceOption_mem_iff.1 he)
  have hpriced := h p hp
  unfold pnlFigure at hfigure
  unfold Priced at hpriced
  cases hexit : p.exitPrice with
  | none =>
    rw [hexit] at hfigure
    cases hfigure
  | some exitPrice =>
    rw [hexit] at hfigure
    dsimp only at hfigure
    by_cases hentry : p.entryPrice = 0
    · rw [if_pos hentry] at hfigure
      cases hfigure
    · rw [if_neg hentry] at hfigure
      obtain ⟨pnl, -, rfl⟩ := Option.map_eq_some_iff.1 hfigure
      exact (hpriced exitPrice hexit hentry).rounded

/-- The price changes of the positions with a profit. -/
def winFigures (closed : List PositionRecord) : List Decimal := winPcts (closed.map pnlFigure).reduceOption

/-- The sizes of the price changes of the other positions. -/
def lossFigures (closed : List PositionRecord) : List Decimal :=
  (lossPcts (closed.map pnlFigure).reduceOption).map (fun x => standard.round |x|)

theorem calculateAvgWinLoss_returns (closed : List PositionRecord) : Returns (standard.calculateAvgWinLoss closed)
    ((∀ p ∈ closed, Priced p) ∧ MeanFits (winFigures closed) ∧ MeanFits (lossFigures closed)) := by
  unfold calculateAvgWinLoss
  refine (Gives.mapM fun p _ => pnlPct_gives p).bind_returns fun hpriced => ?_
  have hsizes : (lossPcts (closed.map pnlFigure).reduceOption).mapM standard.abs = .ok (lossFigures closed) := by
    refine mapM_eq_ok fun x hx => (abs_gives x).ok ?_
    obtain ⟨e, he, rfl⟩ := List.mem_map.1 hx
    refine (rounded_of_mem hpriced (List.mem_filter.1 he).1).inRange.of_abs_le ?_
    rw [abs_abs]
  dsimp only
  rw [hsizes]
  exact (averagePct_returns _).bind fun _ => (averagePct_returns _).map _

/-! ## The return of the period -/

/-- The period of some values has a first and a last one, the first of which is not zero. -/
structure Spans (values : List Decimal) (first last : Decimal) : Prop where
  head : values.head? = some first
  getLast : values.getLast? = some last
  length : 2 ≤ values.length
  nonzero : first ≠ 0

/-- The change over a period fits as a percentage. -/
def SpanFits (first last : Decimal) : Prop :=
  InRange (last - first) ∧ |standard.round (last - first)| < ratioBound * |first|

/-- The change over a period in percent, to two places. -/
def spanPct (first last : Decimal) : Decimal := quantize2 (pctFigure first last)

theorem changePct_quantize_gives {first : Decimal} (hfirst : first ≠ 0) (last : Decimal) :
    Gives (standard.changePct first last >>= standard.quantize 2) (SpanFits first last) (spanPct first last) := by
  refine ((changePct_gives hfirst last).bind fun _ => quantize2_gives _).congr ?_
  unfold SpanFits Changes
  rw [abs_pct_lt_iff, abs_div_lt_iff hfirst]
  constructor
  · rintro ⟨⟨hdifference, -⟩, hfits⟩
    exact ⟨hdifference, hfits⟩
  · rintro ⟨hdifference, hfits⟩
    exact ⟨⟨hdifference, (inRange_of_lt_ratioBound ((abs_div_lt_iff hfirst).2 hfits)).2⟩, hfits⟩

theorem abs_spanPct_le {first last : Decimal} (hfirst : first ≠ 0) (h : SpanFits first last) :
    |spanPct first last| ≤ 10 ^ (26 : ℤ) := by
  have hpct := abs_pct_lt_iff.2 ((abs_div_lt_iff hfirst).2 h.2)
  have hten : (10 : Decimal) ^ 2 = 100 := by norm_num
  have hbound : (10 : Decimal) ^ (((28 : ℕ) : ℤ) - (2 : ℕ)) - 10 ^ (-((2 : ℕ) : ℤ)) / 2 = pctBound := by decide +kernel
  rw [← hbound] at hpct
  have hcount : |Rounding.halfUp (pctFigure first last * 10 ^ 2)| < 10 ^ 28 :=
    (ExponentRange.abs_halfUp_round_lt_iff (by norm_num) (by decide) _).2 hpct
  rw [hten] at hcount
  have hcast : ((|Rounding.halfUp (pctFigure first last * 100)| : ℤ) : Decimal) ≤ ((10 ^ 28 : ℤ) : Decimal) :=
    Int.cast_le.2 hcount.le
  unfold spanPct quantize2
  rw [abs_div, ← Int.cast_abs, abs_of_pos (by norm_num : (0 : Decimal) < 100), div_le_iff₀ (by norm_num)]
  refine hcast.trans ?_
  norm_num

/-- The growth over a period, scaled to a year, exists and fits as a percentage. -/
def GrowthFits (math : DecimalMath) (pct : Decimal) (days : ℤ) : Prop :=
  ∃ growth, math.pow (standard.round (1 + standard.round (pct / 100))) (standard.round (365 / days)) = .ok growth ∧
    |growth - 1| < ratioBound

theorem annualizedReturn_returns {sorted : List PortfolioSnapshot} {periodStart periodEnd : ℤ} {total : Decimal}
    (htotal : |total| ≤ 10 ^ (26 : ℤ)) : Returns (standard.annualizedReturn math sorted periodStart periodEnd total)
      (0 < periodEnd - periodStart ∧ 2 ≤ sorted.length ∧ total ≠ 0 →
        GrowthFits math total (periodEnd - periodStart)) := by
  have hhundred : (100 : Decimal) ≠ 0 := by norm_num
  unfold annualizedReturn
  dsimp only
  by_cases hperiod : 0 < periodEnd - periodStart ∧ 2 ≤ sorted.length ∧ total ≠ 0
  · have hdays : (1 : Decimal) ≤ (periodEnd - periodStart : ℤ) := by exact_mod_cast hperiod.1
    have hpos : (0 : Decimal) < (periodEnd - periodStart : ℤ) := zero_lt_one.trans_le hdays
    have hhundredth : |total / 100| ≤ 10 ^ (26 : ℤ) := by
      rw [abs_div, abs_of_pos (by norm_num : (0 : Decimal) < 100), div_le_iff₀ (by norm_num)]
      refine htotal.trans ?_
      norm_num
    have hexponent : |365 / ((periodEnd - periodStart : ℤ) : Decimal)| ≤ 365 := by
      rw [abs_of_nonneg (div_nonneg (by norm_num) hpos.le)]
      exact div_le_self (by norm_num) hdays
    have hbase : |1 + standard.round (total / 100)| ≤ 10 ^ (99 : ℤ) := by
      have hround := abs_round_le (total / 100)
      have htriangle := abs_add_le 1 (standard.round (total / 100))
      rw [abs_one] at htriangle
      norm_num at hhundredth ⊢
      linarith
    rw [if_pos hperiod, div_eq_ok hhundred (inRange_of_le (hhundredth.trans (by norm_num))),
      div_eq_ok hpos.ne' (inRange_of_le (hexponent.trans (by norm_num)))]
    refine Returns.congr ?_ (imp_iff_right hperiod).symm
    have hadd := (add_gives 1 (standard.round (total / 100))).ok (inRange_of_le hbase)
    generalize hb : standard.round (1 + standard.round (total / 100)) = base at hadd
    generalize he : standard.round (365 / ((periodEnd - periodStart : ℤ) : Decimal)) = exponent
    unfold GrowthFits
    rw [hb, he]
    have hsteps : ∀ growth, Returns (standard.sub growth 1 >>= fun gain => standard.mul gain 100 >>= fun pct =>
        standard.quantize 2 pct >>= fun annual => pure (some annual)) (|growth - 1| < ratioBound) := by
      intro growth
      refine ((sub_gives growth 1).bind_returns fun _ => (mul_gives _ 100).bind_returns fun _ =>
        (quantize2_gives _).returns.map _).congr ?_
      rw [abs_pct_lt_iff]
      constructor
      · rintro ⟨-, -, hfits⟩
        exact hfits
      · intro hfits
        obtain ⟨hgain, hpct⟩ := inRange_of_lt_ratioBound hfits
        exact ⟨hgain, hpct, hfits⟩
    constructor
    · intro h
      obtain ⟨hundredth, h1, h⟩ := Wp.exists_bind_iff.1 h
      cases h1
      obtain ⟨b, h1, h⟩ := Wp.exists_bind_iff.1 h
      cases hadd.symm.trans h1
      obtain ⟨e, h1, h⟩ := Wp.exists_bind_iff.1 h
      cases h1
      obtain ⟨growth, hgrowth, h⟩ := Wp.exists_bind_iff.1 h
      exact ⟨growth, hgrowth, (hsteps growth).1 h⟩
    · rintro ⟨growth, hgrowth, hfits⟩
      obtain ⟨annual, hannual⟩ := (hsteps growth).2 hfits
      exact ⟨annual, Wp.bind_eq_ok.2 ⟨_, rfl, Wp.bind_eq_ok.2 ⟨_, hadd, Wp.bind_eq_ok.2 ⟨_, rfl,
        Wp.bind_eq_ok.2 ⟨growth, hgrowth, hannual⟩⟩⟩⟩⟩
  · rw [if_neg hperiod]
    exact (Returns.of_ok rfl).congr (iff_of_true trivial fun h => absurd h hperiod)

/-- The return of the period, or zero where it has no span. -/
theorem totalReturn_gives (snapshots : List PortfolioSnapshot) :
    (∃ first last, Spans (totals snapshots) first last ∧
      Gives (standard.totalReturn (sortedSnaps snapshots)) (SpanFits first last) (spanPct first last)) ∨
    (∀ first last, ¬ Spans (totals snapshots) first last) ∧ standard.totalReturn (sortedSnaps snapshots) = .ok 0 := by
  unfold totalReturn totals
  cases hfirst : (sortedSnaps snapshots).head? with
  | none =>
    refine .inr ⟨fun first last h => ?_, rfl⟩
    have hhead := h.head
    rw [List.head?_map, hfirst] at hhead
    cases hhead
  | some first =>
    cases hlast : (sortedSnaps snapshots).getLast? with
    | none =>
      refine .inr ⟨fun first last h => ?_, rfl⟩
      have hend := h.getLast
      rw [List.getLast?_map, hlast] at hend
      cases hend
    | some last =>
      dsimp only
      by_cases hspan : 2 ≤ (sortedSnaps snapshots).length ∧ first.totalValue ≠ 0
      · rw [if_pos hspan]
        refine .inl ⟨first.totalValue, last.totalValue, ⟨?_, ?_, ?_, hspan.2⟩, changePct_quantize_gives hspan.2 _⟩
        · rw [List.head?_map, hfirst, Option.map_some]
        · rw [List.getLast?_map, hlast, Option.map_some]
        · rw [List.length_map]
          exact hspan.1
      · rw [if_neg hspan]
        refine .inr ⟨fun first' last' h => hspan ⟨?_, ?_⟩, rfl⟩
        · have hlength := h.length
          rwa [List.length_map] at hlength
        · have hhead := h.head
          rw [List.head?_map, hfirst, Option.map_some] at hhead
          rw [Option.some.inj hhead]
          exact h.nonzero

/-- A span has one first and one last value. -/
theorem Spans.unique {values : List Decimal} {first last first' last' : Decimal}
    (h : Spans values first last) (h' : Spans values first' last') : first = first' ∧ last = last' :=
  ⟨Option.some.inj (h.head.symm.trans h'.head), Option.some.inj (h.getLast.symm.trans h'.getLast)⟩

/-- What the values of a period have to be for its return and yearly return. -/
structure PeriodFits (math : DecimalMath) (values : List Decimal) (days : ℤ) : Prop where
  change : ∀ first last, Spans values first last → SpanFits first last
  yearly : ∀ first last, Spans values first last → 0 < days → spanPct first last ≠ 0 →
    GrowthFits math (spanPct first last) days

/-- The return and the yearly return of a period. -/
theorem period_returns_iff (snapshots : List PortfolioSnapshot) (periodStart periodEnd : ℤ) :
    (∃ total, standard.totalReturn (sortedSnaps snapshots) = .ok total ∧
        ∃ annual, standard.annualizedReturn math (sortedSnaps snapshots) periodStart periodEnd total = .ok annual) ↔
      PeriodFits math (totals snapshots) (periodEnd - periodStart) := by
  have hlength : (totals snapshots).length = (sortedSnaps snapshots).length := List.length_map _
  rcases totalReturn_gives snapshots with ⟨first, last, hspans, hgives⟩ | ⟨hnone, hzero⟩
  · constructor
    · rintro ⟨total, htotal, hannual⟩
      have hchange := hgives.returns.1 ⟨total, htotal⟩
      obtain rfl : total = spanPct first last := by
        rw [hgives.ok hchange] at htotal
        exact (Except.ok.inj htotal).symm
      have hgrowth := (annualizedReturn_returns (abs_spanPct_le hspans.nonzero hchange)).1 hannual
      refine ⟨fun first' last' h => ?_, fun first' last' h hdays hne => ?_⟩
      · obtain ⟨rfl, rfl⟩ := hspans.unique h
        exact hchange
      · obtain ⟨rfl, rfl⟩ := hspans.unique h
        exact hgrowth ⟨hdays, hlength ▸ h.length, hne⟩
    · intro h
      have hchange := h.change first last hspans
      refine ⟨_, hgives.ok hchange, (annualizedReturn_returns
        (abs_spanPct_le hspans.nonzero hchange)).2 fun hperiod => ?_⟩
      exact h.yearly first last hspans hperiod.1 hperiod.2.2
  · refine iff_of_true ⟨0, hzero, ?_⟩ ⟨fun first last h => absurd h (hnone first last),
      fun first last h => absurd h (hnone first last)⟩
    exact (annualizedReturn_returns (by norm_num)).2 fun h => absurd rfl h.2.2

/-! ## The calculator -/

/-- What the returns of a period have to be for its ratios. -/
structure ReturnsFit (math : DecimalMath) (returns : List Decimal) (riskFree : Decimal) : Prop where
  rate : RateFits riskFree
  sums : Sums returns
  sharpe : RatioFits math returns riskFree (meanFigure returns) returns
  sortino : returns.filter (fun r => r < rfFigure math riskFree) ≠ [] → RatioFits math returns riskFree
    (rfFigure math riskFree) (returns.filter (fun r => r < rfFigure math riskFree))

/-- What the numbers of a period have to be for its metrics: in the range of the exponents, and small enough for
28 digits where they are quantized. -/
structure Calculable (math : DecimalMath) (closed : List PositionRecord) (snapshots : List PortfolioSnapshot)
    (periodStart periodEnd : ℤ) (riskFree : Decimal) : Prop where
  changes : (totals snapshots).IsChain (fun a b => a ≠ 0 → Changes a b)
  falls : (totals snapshots).Pairwise Falls
  period : PeriodFits math (totals snapshots) (periodEnd - periodStart)
  returns : 2 ≤ (changesOf (totals snapshots)).length → ReturnsFit math (changesOf (totals snapshots)) riskFree
  factor : FactorFits closed
  prices : ∀ p ∈ closed, Priced p
  wins : MeanFits (winFigures closed)
  losses : MeanFits (lossFigures closed)

theorem ratios_returns_iff (hpowers : Powers math) (returns : List Decimal) (riskFree : Decimal) :
    ((∃ s, standard.calculateSharpeRatio math returns riskFree = .ok s) ∧
      ∃ s, standard.calculateSortinoRatio math returns riskFree = .ok s) ↔
    (2 ≤ returns.length → ReturnsFit math returns riskFree) := by
  refine ((calculateSharpeRatio_returns hpowers returns riskFree).and
    (calculateSortinoRatio_returns hpowers returns riskFree)).trans ?_
  constructor
  · rintro ⟨hsharpe, hsortino⟩ hlength
    obtain ⟨hrate, hsums, hratio⟩ := hsharpe hlength
    refine ⟨hrate, hsums, hratio, fun hempty => ?_⟩
    obtain ⟨hspreads, hexcess⟩ := (hsortino hlength).2 hempty
    exact ⟨hspreads, fun hdev => (hexcess hdev).2⟩
  · intro h
    refine ⟨fun hlength => ⟨(h hlength).rate, (h hlength).sums, (h hlength).sharpe⟩,
      fun hlength => ⟨(h hlength).rate, ?_⟩⟩
    intro hempty
    have hratio := (h hlength).sortino hempty
    exact ⟨hratio.spreads, fun hdev => ⟨(h hlength).sums, hratio.excess hdev⟩⟩

/-- Whole powers, rounded; a fractional power of a positive base is taken to be one. -/
def wholePowers : DecimalMath where
  sqrt := plainMath.sqrt
  pow b e :=
    if e.den = 1 then standard.finish (b ^ e.num)
    else if b < 0 then .error invalidOperation
    else .ok (if b = 0 then 0 else 1)

theorem powers_wholePowers : Powers wholePowers where
  root b e hb _ he hhalf := by
    have hden : e.den ≠ 1 := by
      intro h
      have hint : ((e.num : ℤ) : ℚ) = e := Rat.coe_int_num_of_den_eq_one h
      have hnum : 1 ≤ e.num := Rat.num_pos.2 he
      have hcast : ((1 : ℤ) : ℚ) ≤ ((e.num : ℤ) : ℚ) := Int.cast_le.2 hnum
      rw [hint, Int.cast_one] at hcast
      linarith
    have hlarge := lastUnit_large.1
    have hone : (1000000 : Decimal) ≤ 10 ^ (99 : ℤ) := by norm_num
    unfold wholePowers
    dsimp only
    rw [if_neg hden, if_neg (not_lt.2 hb)]
    refine ⟨_, rfl, ?_⟩
    split
    · rw [abs_zero]
      linarith
    · rw [abs_one]
      linarith
  negative b e hb _ hden := by
    unfold wholePowers
    dsimp only
    rw [if_neg hden, if_pos hb]
    exact ⟨_, rfl⟩
  square b p hp := by
    have hsquare : standard.finish (b ^ (2 : ℤ)) = .ok p := hp
    have hvalue := (finish_gives (b ^ (2 : ℤ))).returns.1 ⟨p, hsquare⟩
    rw [finish_eq_ok hvalue] at hsquare
    rw [← Except.ok.inj hsquare]
    exact round_nonneg (zpow_two_nonneg b)
  sqrt x hx := by
    have hfloor : (10 ^ 28 * 10 ^ 28 : ℤ) ≤ ⌊x * 10 ^ 56⌋ := by
      refine Int.le_floor.2 ?_
      push_cast
      linarith
    have hroot : (10 ^ 28 : ℕ) ≤ Nat.sqrt ⌊x * 10 ^ 56⌋.toNat := by
      rw [Nat.le_sqrt]
      omega
    have hcast : ((10 ^ 28 : ℕ) : Decimal) ≤ ((Int.sqrt ⌊x * 10 ^ 56⌋ : ℤ) : Decimal) := by
      unfold Int.sqrt
      exact_mod_cast hroot
    show 1 ≤ ((Int.sqrt ⌊x * 10 ^ 56⌋ : ℤ) : Decimal) / 10 ^ 28
    rw [one_le_div (by positivity)]
    exact_mod_cast hcast

end DecimalContext

end TradingAgent
