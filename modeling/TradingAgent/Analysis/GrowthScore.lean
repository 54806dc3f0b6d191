/-
The growth score: what a company's latest statement has gained on the year before, and on average over two years,
looked up in brackets, averaged and blended in floats. A higher revenue or operating income never lowers the score,
unless the figure turns positive and a two-year average comes to exist that was not there before.
-/
import TradingAgent.Analysis.Fundamental
import TradingAgent.Report.Context
import TradingAgent.Lib.Binary64

namespace TradingAgent

open Binary64

/-- Floats as Python has them. -/
abbrev PyFloat := Extended Decimal

namespace FundamentalAnalyzer

/-! ## Brackets and rates -/

/-- The upper bounds and scores of the growth rates. -/
def growthBrackets : List (Decimal × ℤ) :=
  [(-15, 10), (-5, 25), (0, 40), (5, 55), (10, 65), (20, 75), (30, 85)]

def growthDefault : ℤ := 95

/-- The score of the first bracket whose upper bound is not exceeded. -/
def bracketScore (value : PyFloat) : List (Decimal × ℤ) → ℤ → ℤ
  | [], default => default
  | (upper, score) :: brackets, default => if value ≤ finite upper then score else bracketScore value brackets default

def growthScoreOf (rate : PyFloat) : ℤ := bracketScore rate growthBrackets growthDefault

/-- The growth over the year before, in percent; there is none on zero. -/
def calcGrowthRate (current previous : Option Decimal) : Option PyFloat :=
  match current, previous with
  | some current, some previous =>
    if previous = 0 then none
    else
      let change := DecimalContext.standard.round
        (DecimalContext.standard.round (current - previous) / DecimalContext.standard.round |previous|)
      some (ofNumber (DecimalContext.standard.round (change * 100)))
  | _, _ => none

/-- The power of floats, as the C library computes it. -/
abbrev FloatPow := PyFloat → PyFloat → PyFloat

variable (pow : FloatPow)

/-- The average growth over some years, in percent; there is none from or to a loss. -/
def calcCagr (current base : Option Decimal) (years : ℕ) : Option PyFloat :=
  match current, base with
  | some current, some base =>
    if base ≤ 0 ∨ current ≤ 0 then none
    else
      let ratio := ofNumber (DecimalContext.standard.round (current / base))
      some (lift (· * 100) (lift (· - 1) (pow ratio (ofNumber (1 / years)))))
  | _, _ => none

/-! ## The score -/

def growthDescription (score : Decimal) : String :=
  if score ≥ 80 then "양호한 성장세"
  else if score ≥ 60 then "안정적 성장"
  else if score ≥ 40 then "성장 정체"
  else "역성장"

/-- A rate with its sign and one decimal place. -/
def formatRate : PyFloat → String
  | ⊥ => "-inf"
  | (⊤ : WithTop Decimal) => "+inf"
  | (rate : Decimal) =>
    let tenths := (SignificantDigits.halfEven (|rate| * 10)).toNat
    (if rate < 0 then "-" else "+") ++ toString (tenths / 10) ++ "." ++ toString (tenths % 10)

/-- The mean of scores. -/
def average (scores : List ℤ) : Decimal := Binary64.round ((scores.sum : Decimal) / scores.length)

/-- A score as a whole number. -/
def wholeScore (score : Decimal) : Decimal := Rounding.halfUp (shortestDecimal score)

/-- The year's scores weigh 0.7 and those of two years 0.3. -/
def blend (yoyAvg cagrAvg : Decimal) : Decimal :=
  Binary64.round (Binary64.round (yoyAvg * Binary64.round (7 / 10)) +
    Binary64.round (cagrAvg * Binary64.round (3 / 10)))

/-- The scores of the rates that there are. -/
def scoresOf (rates : List (Option PyFloat)) : List ℤ := rates.reduceOption.map growthScoreOf

/-- The average growth rates over two years, if there is a statement of two years ago. -/
def cagrScores (latest : FinancialStatementInfo) : List FinancialStatementInfo → List ℤ
  | [] => []
  | oldest :: _ =>
    scoresOf [calcCagr pow latest.revenue oldest.revenue 2,
      calcCagr pow latest.operatingIncome oldest.operatingIncome 2]

/-- The reasons for a score. -/
def growthParts (revYoy oiYoy : Option PyFloat) : List String :=
  [revYoy.map (fun rate => "매출 YoY " ++ formatRate rate ++ "%"),
    oiYoy.map (fun rate => "영업이익 YoY " ++ formatRate rate ++ "%")].reduceOption

/-- The growth score of the statements, the latest one first, and its reasons. -/
def scoreGrowth : List FinancialStatementInfo → Decimal × String
  | latest :: prev :: rest =>
    let revYoy := calcGrowthRate latest.revenue prev.revenue
    let oiYoy := calcGrowthRate latest.operatingIncome prev.operatingIncome
    let scores := scoresOf [revYoy, oiYoy]
    if scores = [] then (50, "성장률 계산 불가 (이전 연도 데이터 부족)")
    else
      let yoyAvg := average scores
      let total := wholeScore (if cagrScores pow latest rest = [] then yoyAvg
        else blend yoyAvg (average (cagrScores pow latest rest)))
      (total, ", ".intercalate (growthParts revYoy oiYoy) ++ " (" ++ growthDescription total ++ ")")
  | _ => (50, "성장률 데이터 부족")

/-! ## Scores of rates -/

theorem le_bracketScore {value : PyFloat} {least default : ℤ} : ∀ {brackets : List (Decimal × ℤ)},
    (∀ score ∈ brackets.map Prod.snd, least ≤ score) → least ≤ default →
    least ≤ bracketScore value brackets default
  | [], _, hdefault => hdefault
  | (upper, score) :: brackets, hscores, hdefault => by
    rw [List.map_cons, List.forall_mem_cons] at hscores
    unfold bracketScore
    split
    · exact hscores.1
    · exact le_bracketScore hscores.2 hdefault

/-- Where the scores rise with the brackets, a higher value has no lower score. -/
theorem bracketScore_mono {value value' : PyFloat} {default : ℤ} (h : value ≤ value') :
    ∀ {brackets : List (Decimal × ℤ)}, (brackets.map Prod.snd).Pairwise (· ≤ ·) →
      (∀ score ∈ brackets.map Prod.snd, score ≤ default) →
      bracketScore value brackets default ≤ bracketScore value' brackets default
  | [], _, _ => le_rfl
  | (upper, score) :: brackets, hsorted, hdefault => by
    rw [List.map_cons, List.pairwise_cons] at hsorted
    rw [List.map_cons, List.forall_mem_cons] at hdefault
    unfold bracketScore
    split
    · split
      · exact le_rfl
      · exact le_bracketScore hsorted.1 hdefault.1
    · rename_i hvalue
      rw [if_neg fun hvalue' => hvalue (h.trans hvalue')]
      exact bracketScore_mono h hsorted.2 hdefault.2

theorem growthScoreOf_mono {rate rate' : PyFloat} (h : rate ≤ rate') : growthScoreOf rate ≤ growthScoreOf rate' :=
  bracketScore_mono h (by decide) (by decide)

/-- The first figure is there if and only if the second is, and is not higher. -/
abbrev NotLower {α : Type} [LE α] (a b : Option α) : Prop := Option.Rel (· ≤ ·) a b

theorem NotLower.refl {α : Type} [Preorder α] : ∀ a : Option α, NotLower a a
  | none => .none
  | some _ => .some le_rfl

theorem standard_round_mono : Monotone DecimalContext.standard.round := ExponentRange.round_mono (by norm_num)

theorem calcGrowthRate_notLower {current current' previous : Option Decimal} (h : NotLower current current') :
    NotLower (calcGrowthRate current previous) (calcGrowthRate current' previous) := by
  cases h with
  | none => exact NotLower.refl _
  | @some c c' hle =>
    cases previous with
    | none => exact NotLower.refl _
    | some previous =>
      unfold calcGrowthRate
      dsimp only
      split
      · exact .none
      · have hdivisor : 0 ≤ DecimalContext.standard.round |previous| := ExponentRange.round_nonneg (abs_nonneg _)
        have hchange : DecimalContext.standard.round (c - previous) ≤ DecimalContext.standard.round (c' - previous) :=
          standard_round_mono (sub_le_sub_right hle previous)
        have hquot := standard_round_mono (div_le_div_of_nonneg_right hchange hdivisor)
        refine .some (ofNumber_mono (standard_round_mono ?_))
        exact mul_le_mul_of_nonneg_right hquot (by norm_num)

/-- The figure turns positive, from a loss or zero, where that of two years ago is positive: an average growth comes
to exist. -/
def TurnsPositive (current current' base : Option Decimal) : Prop :=
  ∃ c ∈ current, ∃ c' ∈ current', ∃ b ∈ base, c ≤ 0 ∧ 0 < c' ∧ 0 < b

/-- A higher base has no lower power. -/
def PowMono (pow : FloatPow) : Prop :=
  ∀ {base base' exponent}, finite 0 ≤ base → base ≤ base' → finite 0 ≤ exponent →
    pow base exponent ≤ pow base' exponent

variable {pow}

theorem calcCagr_notLower (hpow : PowMono pow) {current current' base : Option Decimal} {years : ℕ}
    (h : NotLower current current') (hturn : ¬ TurnsPositive current current' base) :
    NotLower (calcCagr pow current base years) (calcCagr pow current' base years) := by
  cases h with
  | none => exact NotLower.refl _
  | @some c c' hle =>
    cases base with
    | none => exact NotLower.refl _
    | some base =>
      unfold calcCagr
      dsimp only
      by_cases hbase : base ≤ 0
      · rw [if_pos (.inl hbase), if_pos (.inl hbase)]
        exact .none
      have hbase := not_le.1 hbase
      by_cases hc : c ≤ 0
      · have hc' : c' ≤ 0 := not_lt.1 fun hpos => hturn ⟨c, rfl, c', rfl, base, rfl, hc, hpos, hbase⟩
        rw [if_pos (.inr hc), if_pos (.inr hc')]
        exact .none
      · have hpos := not_le.1 hc
        have hpos' := hpos.trans_le hle
        rw [if_neg (not_or.2 ⟨not_le.2 hbase, hc⟩), if_neg (not_or.2 ⟨not_le.2 hbase, not_le.2 hpos'⟩)]
        have hratio := standard_round_mono (div_le_div_of_nonneg_right hle hbase.le)
        have hnonneg : 0 ≤ DecimalContext.standard.round (c / base) :=
          ExponentRange.round_nonneg (div_nonneg hpos.le hbase.le)
        have hexponent : (0 : Decimal) ≤ 1 / years := div_nonneg zero_le_one (Nat.cast_nonneg years)
        have hpowers := hpow (ofNumber_nonneg hnonneg) (ofNumber_mono hratio) (ofNumber_nonneg hexponent)
        refine .some (lift_mono ?_ (lift_mono ?_ hpowers))
        · exact fun x y hxy => mul_le_mul_of_nonneg_right hxy (by norm_num)
        · exact fun x y hxy => sub_le_sub_right hxy 1

/-! ## Averages -/

theorem scoresOf_le : ∀ {rates rates' : List (Option PyFloat)}, List.Forall₂ NotLower rates rates' →
    List.Forall₂ (· ≤ ·) (scoresOf rates) (scoresOf rates')
  | _, _, .nil => .nil
  | none :: rates, none :: rates', .cons .none h => by
    have ih := scoresOf_le h
    exact ih
  | _, _, .cons (.some hle) h => .cons (growthScoreOf_mono hle) (scoresOf_le h)

theorem average_le {scores scores' : List ℤ} (h : List.Forall₂ (· ≤ ·) scores scores') :
    average scores ≤ average scores' := by
  have hsum : (scores.sum : Decimal) ≤ scores'.sum := Int.cast_le.2 h.sum_le_sum
  unfold average
  rw [h.length_eq]
  exact Binary64.round_mono (div_le_div_of_nonneg_right hsum (Nat.cast_nonneg _))

theorem blend_le {yoyAvg yoyAvg' cagrAvg cagrAvg' : Decimal} (hyoy : yoyAvg ≤ yoyAvg') (hcagr : cagrAvg ≤ cagrAvg') :
    blend yoyAvg cagrAvg ≤ blend yoyAvg' cagrAvg' := by
  have hweight : ∀ {w : Decimal}, 0 ≤ w → 0 ≤ Binary64.round w := by
    intro w hw
    rw [← Binary64.round_zero]
    exact Binary64.round_mono hw
  refine Binary64.round_mono (add_le_add (Binary64.round_mono ?_) (Binary64.round_mono ?_))
  · exact mul_le_mul_of_nonneg_right hyoy (hweight (by norm_num))
  · exact mul_le_mul_of_nonneg_right hcagr (hweight (by norm_num))

theorem wholeScore_le {score score' : Decimal} (hfloat : IsFloat score) (hfloat' : IsFloat score')
    (h : score ≤ score') :
    wholeScore score ≤ wholeScore score' := by
  unfold wholeScore
  exact Int.cast_le.2 (Rounding.halfUp_mono (shortestDecimal_le hfloat hfloat' h))

/-! ## More earned -/

/-- The average growth scores exist for the same figures, and are not lower. -/
theorem cagrScores_le (hpow : PowMono pow) {latest latest' : FinancialStatementInfo}
    {rest : List FinancialStatementInfo} (hrevenue : NotLower latest.revenue latest'.revenue)
    (hincome : NotLower latest.operatingIncome latest'.operatingIncome)
    (hturn : ∀ oldest ∈ rest.head?, ¬ TurnsPositive latest.revenue latest'.revenue oldest.revenue ∧
      ¬ TurnsPositive latest.operatingIncome latest'.operatingIncome oldest.operatingIncome) :
    List.Forall₂ (· ≤ ·) (cagrScores pow latest rest) (cagrScores pow latest' rest) := by
  cases rest with
  | nil => exact .nil
  | cons oldest rest =>
    obtain ⟨hturnRevenue, hturnIncome⟩ := hturn oldest rfl
    refine scoresOf_le (.cons ?_ (.cons ?_ .nil))
    · exact calcCagr_notLower hpow hrevenue hturnRevenue
    · exact calcCagr_notLower hpow hincome hturnIncome

theorem isFloat_average (scores : List ℤ) : IsFloat (average scores) := isFloat_round _

theorem isFloat_blend (yoyAvg cagrAvg : Decimal) : IsFloat (blend yoyAvg cagrAvg) := isFloat_round _

/-- A latest statement with a higher revenue or operating income has no lower growth score, where neither figure
turns positive against a positive one of two years ago. -/
theorem scoreGrowth_mono (hpow : PowMono pow) {latest : FinancialStatementInfo}
    {revenue operatingIncome : Option Decimal}
    {prev : FinancialStatementInfo} {rest : List FinancialStatementInfo} (hrevenue : NotLower latest.revenue revenue)
    (hincome : NotLower latest.operatingIncome operatingIncome)
    (hturn : ∀ oldest ∈ rest.head?, ¬ TurnsPositive latest.revenue revenue oldest.revenue ∧
      ¬ TurnsPositive latest.operatingIncome operatingIncome oldest.operatingIncome) :
    (scoreGrowth pow (latest :: prev :: rest)).1 ≤
      (scoreGrowth pow ({ latest with revenue, operatingIncome } :: prev :: rest)).1 := by
  have hscores : List.Forall₂ (· ≤ ·)
      (scoresOf [calcGrowthRate latest.revenue prev.revenue,
        calcGrowthRate latest.operatingIncome prev.operatingIncome])
      (scoresOf [calcGrowthRate revenue prev.revenue, calcGrowthRate operatingIncome prev.operatingIncome]) :=
    scoresOf_le (.cons (calcGrowthRate_notLower hrevenue) (.cons (calcGrowthRate_notLower hincome) .nil))
  have hcagr : List.Forall₂ (· ≤ ·) (cagrScores pow latest rest)
      (cagrScores pow { latest with revenue, operatingIncome } rest) := cagrScores_le hpow hrevenue hincome hturn
  unfold scoreGrowth
  dsimp only
  generalize scoresOf [calcGrowthRate latest.revenue prev.revenue,
    calcGrowthRate latest.operatingIncome prev.operatingIncome] = scores at hscores ⊢
  generalize scoresOf [calcGrowthRate revenue prev.revenue,
    calcGrowthRate operatingIncome prev.operatingIncome] = scores' at hscores ⊢
  generalize cagrScores pow latest rest = cagrs at hcagr ⊢
  generalize cagrScores pow { latest with revenue, operatingIncome } rest = cagrs' at hcagr ⊢
  cases hscores with
  | nil => rw [if_pos rfl, if_pos rfl]
  | cons hscore hscores =>
    rw [if_neg (List.cons_ne_nil _ _), if_neg (List.cons_ne_nil _ _)]
    have hyoy := average_le (.cons hscore hscores)
    cases hcagr with
    | nil =>
      rw [if_pos rfl, if_pos rfl]
      exact wholeScore_le (isFloat_average _) (isFloat_average _) hyoy
    | cons hcagr hcagrs =>
      rw [if_neg (List.cons_ne_nil _ _), if_neg (List.cons_ne_nil _ _)]
      exact wholeScore_le (isFloat_blend _ _) (isFloat_blend _ _) (blend_le hyoy (average_le (.cons hcagr hcagrs)))

/-! ## A turnaround -/

/-- The square root with eighteen decimals: the power function at the exponent of two years. -/
def rootPow : FloatPow := fun base _ => lift (fun x => (Nat.sqrt ⌊x * 10 ^ 36⌋₊ : Decimal) / 10 ^ 18) base

theorem rootPow_mono : PowMono rootPow := by
  intro base base' exponent _ hle _
  refine lift_mono (fun x y hxy => ?_) hle
  have hsquares : x * 10 ^ 36 ≤ y * 10 ^ 36 := mul_le_mul_of_nonneg_right hxy (by norm_num)
  exact div_le_div_of_nonneg_right (Nat.cast_le.2 (Nat.sqrt_le_sqrt (Nat.floor_mono hsquares))) (by norm_num)

example : rootPow (finite (Binary64.round (11 / 10))) (finite (1 / 2)) =
    finite (Binary64.round (1048808848170151547 / 10 ^ 18)) := by decide +kernel

/-- A statement of a company that sells for 100. -/
def soldFor100 (fiscalYear : ℤ) (operatingIncome : Decimal) : FinancialStatementInfo where
  symbol := "005930"
  corpCode := "00126380"
  reportType := .annual
  fiscalYear := fiscalYear
  fiscalQuarter := none
  revenue := some 100
  operatingIncome := some operatingIncome
  netIncome := none
  totalAssets := none
  totalEquity := none
  totalLiabilities := none
  per := none
  pbr := none
  roe := none
  eps := none
  bps := none

/-- The score of three years by its averages. -/
theorem scoreGrowth_eq {latest prev : FinancialStatementInfo} {rest : List FinancialStatementInfo}
    {scores cagrs : List ℤ} {yoyAvg cagrAvg : Decimal}
    (hscores : scoresOf [calcGrowthRate latest.revenue prev.revenue,
      calcGrowthRate latest.operatingIncome prev.operatingIncome] = scores)
    (hcagrs : cagrScores pow latest rest = cagrs) (hne : scores ≠ []) (hcagrsNe : cagrs ≠ [])
    (hyoy : average scores = yoyAvg) (hcagr : average cagrs = cagrAvg) :
    (scoreGrowth pow (latest :: prev :: rest)).1 = wholeScore (blend yoyAvg cagrAvg) := by
  unfold scoreGrowth
  dsimp only
  rw [hscores, hcagrs, if_neg hne, if_neg hcagrsNe, hyoy, hcagr]

/-- After a loss of 100, an operating income of 1 scores less than none: its fall from 100 two years ago counts. -/
theorem not_scoreGrowth_mono : ¬ ∀ (pow : FloatPow) (latest : FinancialStatementInfo)
    (revenue operatingIncome : Option Decimal) (prev : FinancialStatementInfo) (rest : List FinancialStatementInfo),
    PowMono pow → NotLower latest.revenue revenue → NotLower latest.operatingIncome operatingIncome →
    (scoreGrowth pow (latest :: prev :: rest)).1 ≤
      (scoreGrowth pow ({ latest with revenue, operatingIncome } :: prev :: rest)).1 := by
  intro h
  have hle := h rootPow (soldFor100 2024 0) (some 100) (some 1) (soldFor100 2023 (-100)) [soldFor100 2022 100]
    rootPow_mono (NotLower.refl _) (.some (by norm_num))
  have hyoy : average [40, 95] = 135 / 2 := by decide +kernel
  have hcagrs : cagrScores rootPow (soldFor100 2024 0) [soldFor100 2022 100] = [40] ∧
      cagrScores rootPow (soldFor100 2024 1) [soldFor100 2022 100] = [40, 10] := by decide +kernel
  have hbefore : (scoreGrowth rootPow [soldFor100 2024 0, soldFor100 2023 (-100), soldFor100 2022 100]).1 =
      wholeScore (blend (135 / 2) 40) :=
    scoreGrowth_eq (by decide +kernel) hcagrs.1 (by decide) (by decide) hyoy (by decide +kernel)
  have hafter : (scoreGrowth rootPow [{ soldFor100 2024 0 with revenue := some 100, operatingIncome := some 1 },
      soldFor100 2023 (-100), soldFor100 2022 100]).1 = wholeScore (blend (135 / 2) 25) :=
    scoreGrowth_eq (by decide +kernel) hcagrs.2 (by decide) (by decide) hyoy (by decide +kernel)
  have hblend : blend (135 / 2) 40 = 237 / 4 ∧ blend (135 / 2) 25 = 219 / 4 := by decide +kernel
  have hwhole : wholeScore (237 / 4) = 59 ∧ wholeScore (219 / 4) = 55 := by decide +kernel
  rw [hbefore, hafter, hblend.1, hblend.2, hwhole.1, hwhole.2] at hle
  norm_num at hle

theorem scoreGrowth_mono_profit :
    (scoreGrowth rootPow [soldFor100 2024 1, soldFor100 2023 (-100), soldFor100 2022 100]).1 ≤
      (scoreGrowth rootPow [{ soldFor100 2024 1 with revenue := some 110, operatingIncome := some 1 },
        soldFor100 2023 (-100), soldFor100 2022 100]).1 := by
  have hpositive : ∀ current current' : Option Decimal, (∀ c ∈ current, 0 < c) →
      ∀ base, ¬ TurnsPositive current current' base := by
    rintro current current' hcurrent base ⟨c, hc, _, _, _, _, hle, _⟩
    exact absurd (hcurrent c hc) (not_lt.2 hle)
  refine scoreGrowth_mono rootPow_mono (.some (by norm_num)) (NotLower.refl _) fun oldest _ => ⟨?_, ?_⟩
  · refine hpositive _ _ (fun c hc => ?_) _
    cases hc
    norm_num
  · refine hpositive _ _ (fun c hc => ?_) _
    cases hc
    norm_num

end FundamentalAnalyzer

end TradingAgent
