/-
The scan for chart patterns: crosses, double tops and bottoms, divergences of the price from the MACD line, and levels
of support and resistance near the last price. On prices of which none is negative the scan fails only if an indicator
does not fit the table, and the confidence of each signal is a whole number of hundredths from 0.50 to 0.90.
-/
import TradingAgent.Analysis.Reversals
import TradingAgent.Lib.Wp
import Mathlib.Data.List.MinMax
import Mathlib.Data.List.Sort

namespace TradingAgent

open Binary64 (shortestDecimal)
open Wp (bind_eq_ok)

namespace ChartPatterns

/-! ## Divergences -/

/-- The swing nearest to a position, the first of them in a tie. -/
def nearestSwing (swings : List (ℕ × Decimal)) (targetPos : ℕ) : Option (ℕ × Decimal) :=
  swings.argmin fun s => ((s.1 : ℤ) - targetPos).natAbs

inductive Divergence
  | bearish | bullish

namespace Divergence

def patternName : Divergence → String
  | bearish => "macd_bearish_divergence"
  | bullish => "macd_bullish_divergence"

def signalType : Divergence → String
  | bearish => "bearish"
  | bullish => "bullish"

def description : Divergence → String
  | bearish => "가격 고점 상승 중 MACD 고점 하락 — 상승 모멘텀 약화"
  | bullish => "가격 저점 하락 중 MACD 저점 상승 — 하락 모멘텀 약화"

/-- The highs for a bearish divergence, the lows for a bullish one. -/
def points {α : Type} : Divergence → α × α → α
  | bearish, (highs, _) => highs
  | bullish, (_, lows) => lows

/-- The price goes on in its direction and the MACD line turns against it. -/
def diverges (price₁ price₂ macd₁ macd₂ : Decimal) : Divergence → Bool
  | bearish => price₁ < price₂ ∧ macd₂ < macd₁
  | bullish => price₂ < price₁ ∧ macd₁ < macd₂

/-- The move of the price and that of the MACD line against it, each relative to its first value. -/
def strength (price₁ price₂ macd₁ macd₂ : Decimal) : Divergence → Decimal
  | bearish => min (Binary64.round (Binary64.round (Binary64.round (price₂ - price₁) / max price₁ tiny) +
      Binary64.round (Binary64.round (macd₁ - macd₂) / max |macd₁| tiny))) (Binary64.round (35 / 100))
  | bullish => min (Binary64.round (Binary64.round (Binary64.round (price₁ - price₂) / max price₁ tiny) +
      Binary64.round (Binary64.round (macd₂ - macd₁) / max |macd₁| tiny))) (Binary64.round (35 / 100))

variable (divergence : Divergence)

/-- The last two swings of the price against the swings of the MACD line nearest to them. -/
def signal (priceSwings macdSwings : List (ℕ × Decimal)) : Option PatternSignal :=
  match priceSwings.reverse, macdSwings with
  | (pos₂, price₂) :: (pos₁, price₁) :: _, _ :: _ :: _ =>
    match nearestSwing macdSwings pos₁, nearestSwing macdSwings pos₂ with
    | some (_, macd₁), some (_, macd₂) =>
      if divergence.diverges price₁ price₂ macd₁ macd₂ then some {
        patternName := divergence.patternName
        signalType := divergence.signalType
        confidence := toConfidence (min (Binary64.round (Binary64.round (5 / 10) +
          divergence.strength price₁ price₂ macd₁ macd₂)) (Binary64.round (85 / 100)))
        description := divergence.description }
      else none
    | _, _ => none
  | _, _ => none

end Divergence

/-- A bearish divergence on the days that have a price and a MACD line, or else a bullish one. -/
def detectMacdDivergence (prices macd : Series) (window : ℕ := 60) : Option PatternSignal :=
  let common := validPoints prices macd
  if common.length < 20 then none
  else
    let p := findSwingPoints ((lastDays window (common.map fun point => point.1.val)).map some) 3
    let m := findSwingPoints ((lastDays window (common.map fun point => point.2.val)).map some) 3
    (Divergence.bearish.signal (Divergence.bearish.points p) (Divergence.bearish.points m)).or
      (Divergence.bullish.signal (Divergence.bullish.points p) (Divergence.bullish.points m))

/-! ## Levels -/

/-- The level of a cluster; floats are summed as the language sums them. -/
def level (sum : List Decimal → Decimal) (cluster : List Decimal) : Decimal :=
  Binary64.round (SignificantDigits.halfEven (Binary64.round (sum cluster / cluster.length) * 100) / 100)

/-- The levels of clusters of at least two points, or else that of the first cluster. A value joins the cluster of the
one below it if it is near. -/
def cluster (sum : List Decimal → Decimal) (points : List (ℕ × Decimal))
    (tolerance : Decimal := Binary64.round (15 / 1000)) : List Decimal :=
  let values := (points.map Prod.snd).insertionSort (· ≤ ·)
  let clusters := values.splitBy fun last v =>
    Binary64.round (|Binary64.round (v - last)| / max |last| tiny) ≤ tolerance
  let levels := (clusters.filter (fun c => 2 ≤ c.length)).map (level sum)
  if levels = [] then (clusters.head?.map (level sum)).toList else levels

/-- The levels of support and of resistance. -/
def detectSupportResistance (sum : List Decimal → Decimal) (prices : Series) (window : ℕ := 5) :
    List Decimal × List Decimal :=
  let valid := dropna prices
  if valid.length < window * 2 + 1 then ([], [])
  else
    let (swingHighs, swingLows) := findSwingPoints (valid.map some) window
    (cluster sum swingLows, cluster sum swingHighs)

/-- A signal for a level near the price. -/
def nearLevel (patternName signalType : String) (description : Decimal → String) (currentPrice level : Decimal) :
    Option PatternSignal :=
  let dist := Binary64.round (|Binary64.round (currentPrice - level)| / max level tiny)
  if dist < Binary64.round (2 / 100) then some {
    patternName, signalType
    confidence := toConfidence (Binary64.round (Binary64.round (5 / 10) +
      Binary64.round (Binary64.round (Binary64.round (2 / 100) - dist) * 15)))
    description := description level }
  else none

/-- The signals of levels near the price; a price that is not a number is near none. -/
def levelSignals (patternName signalType : String) (description : Decimal → String)
    (currentPrice : Option (Binary64.Float64 Decimal)) (levels : List Decimal) : List PatternSignal :=
  match currentPrice with
  | none => []
  | some currentPrice => levels.filterMap (nearLevel patternName signalType description currentPrice)

/-! ## The scan -/

/-- What the scan gets from outside: the sum of floats, and how a level is printed. -/
structure ScanEnv where
  sum : List Decimal → Decimal
  format : Decimal → String

/-- An indicator as a series over the days of a table: a single value stands for every day, and any other number of
values has to be that of the days. An indicator without values has no series. -/
def listToSeries (data : Series) (days : ℕ) : Except Exn Series :=
  match data with
  | [] => .ok []
  | [value] => .ok (List.replicate days value)
  | _ =>
    if data.length = days then .ok data
    else .error (.valueError ("Length of values (" ++ toString data.length ++ ") does not match length of index (" ++
      toString days ++ ")"))

/-- All the signals of a table of days. -/
def scanPatterns (env : ScanEnv) (close : Series) (averages : MovingAverages) (macdLine : Series) :
    Except Exn (List PatternSignal) :=
  if close.length < 20 then .ok []
  else do
    let sma5 ← listToSeries averages.sma5 close.length
    let sma20 ← listToSeries averages.sma20 close.length
    let sma60 ← listToSeries averages.sma60 close.length
    let macdLine ← listToSeries macdLine close.length
    let doubleTop ← detectDoubleTop close
    let doubleBottom ← detectDoubleBottom close
    let divergence := if macdLine = [] then none else detectMacdDivergence close macdLine
    let (support, resistance) := detectSupportResistance env.sum close
    let currentPrice := close.getLast?.join
    pure (scanCrosses close.length { sma5, sma20, sma60 } ++ doubleTop.toList ++ doubleBottom.toList ++
      divergence.toList ++
      levelSignals "near_support" "bullish"
        (fun sup => "현재가가 지지선(" ++ env.format sup ++ ")에 근접 — 반등 가능성") currentPrice support ++
      levelSignals "near_resistance" "bearish"
        (fun res => "현재가가 저항선(" ++ env.format res ++ ")에 근접 — 돌파 또는 반락 주시") currentPrice resistance)

/-! ## Confidences -/

/-- The names of the patterns, each with its direction. -/
def patternKinds : List (String × String) :=
  [("golden_cross", "bullish"), ("death_cross", "bearish"), ("double_top", "bearish"), ("double_bottom", "bullish"),
    ("macd_bearish_divergence", "bearish"), ("macd_bullish_divergence", "bullish"), ("near_support", "bullish"),
    ("near_resistance", "bearish")]

/-- A signal whose confidence is a whole number of hundredths from 0.50 to 0.90, and whose direction is that of its
pattern. -/
structure Graded (signal : PatternSignal) : Prop where
  confidence : Hundredths 50 90 signal.confidence
  kind : (signal.patternName, signal.signalType) ∈ patternKinds

theorem round_sub_nonneg {x y : Decimal} (h : y ≤ x) : 0 ≤ Binary64.round (x - y) :=
  Binary64.round_nonneg (sub_nonneg.2 h)

theorem tiny_nonneg : 0 ≤ tiny := Binary64.round_nonneg (by norm_num)

theorem crossConfidence_hundredths (position size : ℕ) (lastDiff lastLong : Decimal) :
    Hundredths 50 90 (crossConfidence position size lastDiff lastLong) := by
  refine toConfidence_hundredths (by norm_num) (by norm_num) (by norm_num)
    (le_min ?_ (Binary64.round_mono (by norm_num))) ((min_le_right _ _).trans (Binary64.round_mono (by norm_num)))
  have hrecency : 0 ≤ Binary64.round (Binary64.round ((position : Decimal) / size) * Binary64.round (15 / 100)) :=
    Binary64.round_nonneg (mul_nonneg (Binary64.round_nonneg (by positivity)) (Binary64.round_nonneg (by norm_num)))
  have hgap : 0 ≤ Binary64.round (|lastDiff| / max |lastLong| (Binary64.round (1 / 10 ^ 10))) :=
    Binary64.round_nonneg (div_nonneg (abs_nonneg _) ((abs_nonneg _).trans (le_max_left _ _)))
  have hbonus : 0 ≤ min
      (Binary64.round (Binary64.round (|lastDiff| / max |lastLong| (Binary64.round (1 / 10 ^ 10))) * 5))
      (Binary64.round (15 / 100)) :=
    le_min (Binary64.round_nonneg (mul_nonneg hgap (by norm_num))) (Binary64.round_nonneg (by norm_num))
  calc Binary64.round (((50 : ℤ) : Decimal) / 100) ≤ Binary64.round (6 / 10) := Binary64.round_mono (by norm_num)
    _ ≤ _ := round_add_le (Binary64.isFloat_round _) hrecency
    _ ≤ _ := round_add_le (Binary64.isFloat_round _) hbonus

theorem graded_of_detectCross {turned : Decimal → Decimal → Bool} {patternName signalType description : String}
    {smaShort smaLong : Series} {lookback : ℕ} {signal : PatternSignal}
    (h : detectCross turned patternName signalType description smaShort smaLong lookback = some signal)
    (hkind : (patternName, signalType) ∈ patternKinds) : Graded signal := by
  unfold detectCross at h
  dsimp only at h
  split at h
  · cases h
  · split at h
    · cases h
    · cases h
      exact ⟨crossConfidence_hundredths _ _ _ _, hkind⟩

theorem graded_of_scanCrosses {days : ℕ} {averages : MovingAverages} {signal : PatternSignal}
    (h : signal ∈ scanCrosses days averages) : Graded signal := by
  unfold scanCrosses at h
  split at h
  · cases h
  · obtain ⟨pair, -, hsignal⟩ := List.mem_flatMap.1 h
    rcases List.mem_append.1 hsignal with hgolden | hdeath
    · exact graded_of_detectCross (Option.mem_toList.1 hgolden) (by decide)
    · exact graded_of_detectCross (Option.mem_toList.1 hdeath) (by decide)

theorem DoublePattern.kind (pattern : DoublePattern) : (pattern.patternName, pattern.signalType) ∈ patternKinds := by
  cases pattern <;> decide

theorem Divergence.strength_nonneg (divergence : Divergence) {price₁ price₂ macd₁ macd₂ : Decimal}
    (h : divergence.diverges price₁ price₂ macd₁ macd₂ = true) :
    0 ≤ divergence.strength price₁ price₂ macd₁ macd₂ := by
  have hquotient : ∀ {x y : Decimal} (z : Decimal), y ≤ x →
      0 ≤ Binary64.round (Binary64.round (x - y) / max z tiny) := fun z hle =>
    Binary64.round_nonneg (div_nonneg (round_sub_nonneg hle) (tiny_nonneg.trans (le_max_right _ _)))
  have hcap : (0 : Decimal) ≤ Binary64.round (35 / 100) := Binary64.round_nonneg (by norm_num)
  cases divergence with
  | bearish =>
    obtain ⟨hprice, hmacd⟩ := of_decide_eq_true h
    exact le_min (Binary64.round_nonneg (add_nonneg (hquotient _ hprice.le) (hquotient _ hmacd.le))) hcap
  | bullish =>
    obtain ⟨hprice, hmacd⟩ := of_decide_eq_true h
    exact le_min (Binary64.round_nonneg (add_nonneg (hquotient _ hprice.le) (hquotient _ hmacd.le))) hcap

theorem Divergence.kind (divergence : Divergence) : (divergence.patternName, divergence.signalType) ∈ patternKinds := by
  cases divergence <;> decide

theorem Divergence.graded_of_signal {divergence : Divergence} {priceSwings macdSwings : List (ℕ × Decimal)}
    {signal : PatternSignal} (h : divergence.signal priceSwings macdSwings = some signal) : Graded signal := by
  unfold Divergence.signal at h
  split at h
  · split at h
    · split at h
      · rename_i hdiverges
        cases h
        have hstrength := divergence.strength_nonneg hdiverges
        refine ⟨?_, divergence.kind⟩
        refine Hundredths.mono (toConfidence_hundredths (le_refl 50) (by norm_num) (by norm_num : (85 : ℤ) ≤ 90)
          (le_min ?_ (Binary64.round_mono (by norm_num)))
            ((min_le_right _ _).trans (Binary64.round_mono (by norm_num))))
          le_rfl (by norm_num)
        exact (Binary64.round_mono (by norm_num)).trans
          (round_add_le (Binary64.isFloat_round (5 / 10 : Decimal)) hstrength)
      · cases h
    · cases h
  · cases h

theorem graded_of_detectMacdDivergence {prices macd : Series} {window : ℕ} {signal : PatternSignal}
    (h : detectMacdDivergence prices macd window = some signal) : Graded signal := by
  unfold detectMacdDivergence at h
  dsimp only at h
  split at h
  · cases h
  · rcases Option.or_eq_some_iff.1 h with hbearish | ⟨-, hbullish⟩
    · exact Divergence.graded_of_signal hbearish
    · exact Divergence.graded_of_signal hbullish

/-- The nearer a level the surer its signal, from 0.50 to 0.80. -/
theorem graded_of_nearLevel {patternName signalType : String} {description : Decimal → String}
    {currentPrice level : Decimal} {signal : PatternSignal}
    (h : nearLevel patternName signalType description currentPrice level = some signal)
    (hkind : (patternName, signalType) ∈ patternKinds) : Graded signal := by
  unfold nearLevel at h
  dsimp only at h
  split at h
  · rename_i hnear
    cases h
    refine ⟨?_, hkind⟩
    have hdist : 0 ≤ Binary64.round (|Binary64.round (currentPrice - level)| / max level tiny) :=
      Binary64.round_nonneg (div_nonneg (abs_nonneg _) (tiny_nonneg.trans (le_max_right _ _)))
    generalize Binary64.round (|Binary64.round (currentPrice - level)| / max level tiny) = dist at hnear hdist
    have hbonus : 0 ≤ Binary64.round (Binary64.round (Binary64.round (2 / 100) - dist) * 15) :=
      Binary64.round_nonneg (mul_nonneg (round_sub_nonneg hnear.le) (by norm_num))
    have hmost : Binary64.round (Binary64.round (Binary64.round (2 / 100) - dist) * 15) ≤
        Binary64.round (Binary64.round (Binary64.round (2 / 100)) * 15) :=
      Binary64.round_mono (mul_le_mul_of_nonneg_right (Binary64.round_mono (sub_le_self _ hdist)) (by norm_num))
    have hcap : Binary64.round (Binary64.round (5 / 10 : Decimal) +
        Binary64.round (Binary64.round (Binary64.round (2 / 100)) * 15)) ≤
        Binary64.round (((90 : ℤ) : Decimal) / 100) := by
      decide +kernel
    refine toConfidence_hundredths (by norm_num) (by norm_num) (by norm_num) ?_ ?_
    · exact (Binary64.round_mono (by norm_num)).trans (round_add_le (Binary64.isFloat_round (5 / 10 : Decimal)) hbonus)
    · exact (Binary64.round_mono (add_le_add le_rfl hmost)).trans hcap
  · cases h

theorem graded_of_levelSignals {patternName signalType : String} {description : Decimal → String}
    {currentPrice : Option (Binary64.Float64 Decimal)} {levels : List Decimal} {signal : PatternSignal}
    (h : signal ∈ levelSignals patternName signalType description currentPrice levels)
    (hkind : (patternName, signalType) ∈ patternKinds) : Graded signal := by
  unfold levelSignals at h
  split at h
  · cases h
  · obtain ⟨level, -, hsignal⟩ := List.mem_filterMap.1 h
    exact graded_of_nearLevel hsignal hkind

theorem DoublePattern.graded_of_found {pattern : DoublePattern} {prices : Series} {window : ℕ} {tolerance : Decimal}
    {found : Option PatternSignal} (h : pattern.Found prices window tolerance found) {signal : PatternSignal}
    (hsignal : found = some signal) : Graded signal := by
  obtain ⟨_, _, neckline, currentPrice, -, -, -, -, hgrades, hname, htype⟩ := h.some signal hsignal
  refine ⟨?_, ?_⟩
  · unfold DoublePattern.Grades at hgrades
    split at hgrades
    · exact hgrades.mono (by norm_num) le_rfl
    · split at hgrades
      · exact ⟨60, by norm_num, by norm_num, hgrades.trans (by norm_num)⟩
      · exact ⟨50, by norm_num, by norm_num, hgrades.trans (by norm_num)⟩
  · rw [hname, htype]
    exact pattern.kind

/-- The indicator has no value, one value, or a value for each of the days. -/
def Fits (data : Series) (days : ℕ) : Prop := data.length = 0 ∨ data.length = 1 ∨ data.length = days

theorem listToSeries_returns_iff (data : Series) (days : ℕ) :
    (∃ series, listToSeries data days = .ok series) ↔ Fits data days := by
  unfold listToSeries Fits
  split
  · exact iff_of_true ⟨_, rfl⟩ (.inl rfl)
  · exact iff_of_true ⟨_, rfl⟩ (.inr (.inl rfl))
  · rename_i hnil hone
    have hzero : data.length ≠ 0 := fun h => hnil (List.length_eq_zero_iff.1 h)
    have hmore : data.length ≠ 1 := fun h => by
      obtain ⟨value, hvalue⟩ := List.length_eq_one_iff.1 h
      exact hone value hvalue
    split
    · rename_i hdays
      exact iff_of_true ⟨_, rfl⟩ (.inr (.inr hdays))
    · rename_i hdays
      exact iff_of_false nofun (by simp [hzero, hmore, hdays])

/-- The signals of a scan that has its series. -/
theorem graded_of_series {env : ScanEnv} {close : Series} {averages : MovingAverages} {macdLine : Series}
    {top bottom : Option PatternSignal} (htop : DoublePattern.top.Found close 60 (Binary64.round (2 / 100)) top)
    (hbottom : DoublePattern.bottom.Found close 60 (Binary64.round (2 / 100)) bottom)
    {support resistance : List Decimal}
    {currentPrice : Option (Binary64.Float64 Decimal)} {signal : PatternSignal}
    (h : signal ∈ scanCrosses close.length averages ++ top.toList ++ bottom.toList ++
      (if macdLine = [] then none else detectMacdDivergence close macdLine).toList ++
      levelSignals "near_support" "bullish"
        (fun sup => "현재가가 지지선(" ++ env.format sup ++ ")에 근접 — 반등 가능성") currentPrice support ++
      levelSignals "near_resistance" "bearish"
        (fun res => "현재가가 저항선(" ++ env.format res ++ ")에 근접 — 돌파 또는 반락 주시") currentPrice resistance) :
    Graded signal := by
  rcases List.mem_append.1 h with h | hresistance
  · rcases List.mem_append.1 h with h | hsupport
    · rcases List.mem_append.1 h with h | hdivergence
      · rcases List.mem_append.1 h with h | hsignal
        · rcases List.mem_append.1 h with hcross | hsignal
          · exact graded_of_scanCrosses hcross
          · exact DoublePattern.graded_of_found htop (Option.mem_toList.1 hsignal)
        · exact DoublePattern.graded_of_found hbottom (Option.mem_toList.1 hsignal)
      · have hsome := Option.mem_toList.1 hdivergence
        split at hsome
        · cases hsome
        · exact graded_of_detectMacdDivergence hsome
    · exact graded_of_levelSignals hsupport (by decide)
  · exact graded_of_levelSignals hresistance (by decide)

/-- Floats summed from left to right. -/
def leftToRight : ScanEnv where
  sum values := values.foldl (fun total v => Binary64.round (total + v)) 0
  format := toString

/-- An average of twenty days: missing on the first days, then even. -/
def evenAverage : Series := List.replicate 4 none ++ List.replicate 16 (some (Binary64.toFloat 12))

example : ((scanPatterns leftToRight mSeries { sma5 := mSeries, sma20 := evenAverage }
    mSeries.reverse).toOption.getD []).map
    (fun s => (s.patternName, s.confidence)) = [("death_cross", 82 / 100), ("double_top", 9 / 10)] := by decide +kernel

end ChartPatterns

end TradingAgent
