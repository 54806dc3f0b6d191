/-
Golden and death crosses: the first place in a window of days where the short moving average turns to the other side
of the long one. A cross is reported for as long as it is in the window, also when the averages have turned back;
when the reported crosses are those that still hold is said in terms of the averages in the window.
-/
import TradingAgent.Lib.Binary64
import TradingAgent.Lib.Groups
import TradingAgent.Analysis.Indicators

namespace TradingAgent

open Binary64

/-- A series of floats over the days; `none` is NaN. -/
abbrev Series := List (Option (Float64 Decimal))

/-- A detected chart pattern. -/
structure PatternSignal where
  patternName : String
  signalType : String
  confidence : Decimal
  description : String

namespace ChartPatterns

/-! ## Detection -/

/-- The short average less the long one, on the days that have both. -/
def differences (smaShort smaLong : Series) : List (Float64 Decimal) :=
  (List.zipWith (fun s l => s.bind fun s => l.map fun l => Binary64.sub s l) smaShort smaLong).reduceOption

/-- The last value, of which there is one. -/
def lastValue (values : List (Float64 Decimal)) : Decimal := (values.getLast?.map Subtype.val).getD 0

/-- The confidence in a cross: higher for a later one, and for a wider gap of the averages at the end. -/
def crossConfidence (position size : ℕ) (lastDiff lastLong : Decimal) : Decimal :=
  let recency := Binary64.round (Binary64.round ((position : Decimal) / size) * Binary64.round (15 / 100))
  let gap := Binary64.round (|lastDiff| / max |lastLong| (Binary64.round (1 / 10 ^ 10)))
  let gapBonus := min (Binary64.round (gap * 5)) (Binary64.round (15 / 100))
  let confidence := min (Binary64.round (Binary64.round (Binary64.round (6 / 10) + recency) + gapBonus))
    (Binary64.round (9 / 10))
  shortestDecimal (Binary64.round (SignificantDigits.halfEven (confidence * 100) / 100))

/-- The first turn of the averages in the last days. -/
def detectCross (turned : Decimal → Decimal → Bool) (patternName signalType description : String)
    (smaShort smaLong : Series) (lookback : ℕ) : Option PatternSignal :=
  let valid := differences smaShort smaLong
  if valid.length < lookback + 1 then none
  else
    let recent := valid.drop (valid.length - (lookback + 1))
    match (Groups.moves recent).findIdx? (fun move => turned move.1 move.2) with
    | none => none
    | some i => some {
        patternName, signalType, description
        confidence := crossConfidence (i + 1) recent.length (lastValue recent) (lastValue smaLong.reduceOption) }

/-- The short average crosses the long one upwards. -/
def detectGoldenCross (smaShort smaLong : Series) (lookback : ℕ := 5) : Option PatternSignal :=
  detectCross (fun prev curr => prev ≤ 0 ∧ 0 < curr) "golden_cross" "bullish"
    "단기 이동평균이 장기 이동평균을 상향 돌파 (골든크로스)" smaShort smaLong lookback

/-- The short average crosses the long one downwards. -/
def detectDeathCross (smaShort smaLong : Series) (lookback : ℕ := 5) : Option PatternSignal :=
  detectCross (fun prev curr => prev ≥ 0 ∧ 0 > curr) "death_cross" "bearish"
    "단기 이동평균이 장기 이동평균을 하향 돌파 (데드크로스)" smaShort smaLong lookback

/-- The moving averages of the indicators. -/
structure MovingAverages where
  sma5 : Series := []
  sma20 : Series := []
  sma60 : Series := []

/-- The signals of a pair of averages. -/
def crossSignals (smaShort smaLong : Series) (lookback : ℕ := 5) : List PatternSignal :=
  (detectGoldenCross smaShort smaLong lookback).toList ++ (detectDeathCross smaShort smaLong lookback).toList

/-- The pairs of averages that are compared. -/
def crossPairs (averages : MovingAverages) : List (Series × Series) :=
  (if averages.sma5 ≠ [] ∧ averages.sma20 ≠ [] then [(averages.sma5, averages.sma20)] else []) ++
    if averages.sma20 ≠ [] ∧ averages.sma60 ≠ [] then [(averages.sma20, averages.sma60)] else []

/-- The crosses that the scan of a table with so many days reports. -/
def scanCrosses (days : ℕ) (averages : MovingAverages) : List PatternSignal :=
  if days < 20 then [] else (crossPairs averages).flatMap fun pair => crossSignals pair.1 pair.2

/-! ## The days with both averages -/

/-- The averages on the days that have both. -/
def validPoints (smaShort smaLong : Series) : List (Float64 Decimal × Float64 Decimal) :=
  (List.zipWith (fun s l => s.bind fun s => l.map fun l => (s, l)) smaShort smaLong).reduceOption

/-- The last of these days, one more than the lookback. -/
def window (smaShort smaLong : Series) (lookback : ℕ) : List (Float64 Decimal × Float64 Decimal) :=
  (validPoints smaShort smaLong).drop ((validPoints smaShort smaLong).length - (lookback + 1))

/-- At the last point the short average is above the long one. -/
def EndsAbove (smaShort smaLong : Series) : Prop :=
  ∃ p ∈ (validPoints smaShort smaLong).getLast?, p.2.val < p.1.val

def EndsBelow (smaShort smaLong : Series) : Prop :=
  ∃ p ∈ (validPoints smaShort smaLong).getLast?, p.1.val < p.2.val

theorem differences_eq : ∀ smaShort smaLong : Series,
    differences smaShort smaLong = (validPoints smaShort smaLong).map (fun p => Binary64.sub p.1 p.2)
  | [], _ => rfl
  | _ :: _, [] => rfl
  | s :: smaShort, l :: smaLong => by
    have ih := differences_eq smaShort smaLong
    cases s with
    | none => exact ih
    | some s =>
      cases l with
      | none => exact ih
      | some l => exact congrArg (Binary64.sub s l :: ·) ih

/-- A cross is in the window exactly if the averages do not stay on the side where they once were. -/
theorem detectCross_isSome_iff {turned : Decimal → Decimal → Bool} {stays : Float64 Decimal × Float64 Decimal → Prop}
    {patternName signalType description : String} {smaShort smaLong : Series} {lookback : ℕ}
    (hturned : ∀ p q : Float64 Decimal × Float64 Decimal,
      turned (Binary64.sub p.1 p.2) (Binary64.sub q.1 q.2) = true ↔ stays p ∧ ¬ stays q) :
    (detectCross turned patternName signalType description smaShort smaLong lookback).isSome = true ↔
      lookback < (validPoints smaShort smaLong).length ∧
        ¬ (window smaShort smaLong lookback).Pairwise (fun p q => stays p → stays q) := by
  unfold detectCross window
  dsimp only
  rw [differences_eq, List.length_map, ← List.map_drop, Groups.moves_map]
  generalize (validPoints smaShort smaLong).drop ((validPoints smaShort smaLong).length - (lookback + 1)) = recent
  split
  · rename_i hshort
    exact iff_of_false Bool.false_ne_true fun h => by omega
  · rename_i hlong
    have hnone : ((Groups.moves recent).map fun move =>
        (Binary64.sub move.1.1 move.1.2, Binary64.sub move.2.1 move.2.2)).findIdx?
          (fun move => turned move.1 move.2) = none ↔ recent.Pairwise (fun p q => stays p → stays q) := by
      rw [List.findIdx?_eq_none_iff, ← Groups.forall_moves_iff, List.forall_mem_map]
      refine forall₂_congr fun move _ => ?_
      rw [← Bool.not_eq_true, hturned, not_and, not_not]
    rw [← hnone, and_iff_right (show lookback < (validPoints smaShort smaLong).length by omega)]
    split
    · rename_i hfind
      exact iff_of_false Bool.false_ne_true fun h => h hfind
    · rename_i i hfind
      refine iff_of_true rfl fun h => ?_
      rw [hfind] at h
      cases h

theorem detectGoldenCross_isSome_iff {smaShort smaLong : Series} {lookback : ℕ} :
    (detectGoldenCross smaShort smaLong lookback).isSome = true ↔
      lookback < (validPoints smaShort smaLong).length ∧
        ¬ (window smaShort smaLong lookback).Pairwise
          (fun p q => p.1.val ≤ p.2.val → q.1.val ≤ q.2.val) := by
  refine detectCross_isSome_iff fun p q => ?_
  rw [decide_eq_true_iff, ← not_lt, sub_pos_iff, sub_pos_iff, not_lt, not_le]

theorem detectDeathCross_isSome_iff {smaShort smaLong : Series} {lookback : ℕ} :
    (detectDeathCross smaShort smaLong lookback).isSome = true ↔
      lookback < (validPoints smaShort smaLong).length ∧
        ¬ (window smaShort smaLong lookback).Pairwise
          (fun p q => p.2.val ≤ p.1.val → q.2.val ≤ q.1.val) := by
  refine detectCross_isSome_iff fun p q => ?_
  rw [decide_eq_true_iff, ge_iff_le, gt_iff_lt, ← not_lt, sub_neg_iff, sub_neg_iff, not_lt, not_le]

theorem patternName_of_detectCross {turned : Decimal → Decimal → Bool} {patternName signalType description : String}
    {smaShort smaLong : Series} {lookback : ℕ} {signal : PatternSignal}
    (h : detectCross turned patternName signalType description smaShort smaLong lookback = some signal) :
    signal.patternName = patternName := by
  unfold detectCross at h
  dsimp only at h
  split at h
  · cases h
  · split at h
    · cases h
    · cases h
      rfl

/-- A pair of averages has a signal of a cross if that cross is detected. -/
theorem golden_mem_iff {smaShort smaLong : Series} {lookback : ℕ} :
    (∃ g ∈ crossSignals smaShort smaLong lookback, g.patternName = "golden_cross") ↔
      (detectGoldenCross smaShort smaLong lookback).isSome = true := by
  unfold crossSignals
  rw [Option.isSome_iff_exists]
  constructor
  · rintro ⟨g, hg, hname⟩
    rcases List.mem_append.1 hg with hg | hg
    · exact ⟨g, Option.mem_toList.1 hg⟩
    · rw [patternName_of_detectCross (Option.mem_toList.1 hg)] at hname
      exact absurd hname (by decide)
  · rintro ⟨g, hg⟩
    exact ⟨g, List.mem_append_left _ (Option.mem_toList.2 hg), patternName_of_detectCross hg⟩

theorem death_mem_iff {smaShort smaLong : Series} {lookback : ℕ} :
    (∃ d ∈ crossSignals smaShort smaLong lookback, d.patternName = "death_cross") ↔
      (detectDeathCross smaShort smaLong lookback).isSome = true := by
  unfold crossSignals
  rw [Option.isSome_iff_exists]
  constructor
  · rintro ⟨d, hd, hname⟩
    rcases List.mem_append.1 hd with hd | hd
    · rw [patternName_of_detectCross (Option.mem_toList.1 hd)] at hname
      exact absurd hname (by decide)
    · exact ⟨d, Option.mem_toList.1 hd⟩
  · rintro ⟨d, hd⟩
    exact ⟨d, List.mem_append_right _ (Option.mem_toList.2 hd), patternName_of_detectCross hd⟩

/-! ## Crosses that still hold -/

/-- A golden cross comes with the short average above, a death cross with the short average below, and a pair of
averages never has both. -/
structure CrossesHold (smaShort smaLong : Series) (lookback : ℕ) : Prop where
  golden : (detectGoldenCross smaShort smaLong lookback).isSome = true → EndsAbove smaShort smaLong
  death : (detectDeathCross smaShort smaLong lookback).isSome = true → EndsBelow smaShort smaLong
  exclusive : ¬ ((∃ g ∈ crossSignals smaShort smaLong lookback, g.patternName = "golden_cross") ∧
    ∃ d ∈ crossSignals smaShort smaLong lookback, d.patternName = "death_cross")

/-- In the window the averages do not turn back: unless the short one ends above, it stays at or below the long one
once it is there, and unless it ends below, it stays at or above. -/
def NeverTurnsBack (smaShort smaLong : Series) (lookback : ℕ) : Prop :=
  lookback < (validPoints smaShort smaLong).length →
    (EndsAbove smaShort smaLong ∨ (window smaShort smaLong lookback).Pairwise
      (fun p q => p.1.val ≤ p.2.val → q.1.val ≤ q.2.val)) ∧
    (EndsBelow smaShort smaLong ∨ (window smaShort smaLong lookback).Pairwise
      (fun p q => p.2.val ≤ p.1.val → q.2.val ≤ q.1.val))

theorem not_endsBelow_of_endsAbove {smaShort smaLong : Series} (h : EndsAbove smaShort smaLong) :
    ¬ EndsBelow smaShort smaLong := by
  obtain ⟨p, hp, habove⟩ := h
  rintro ⟨q, hq, hbelow⟩
  rw [Option.mem_unique hp hq] at habove
  exact lt_asymm habove hbelow

theorem crossesHold_iff (smaShort smaLong : Series) (lookback : ℕ) :
    CrossesHold smaShort smaLong lookback ↔ NeverTurnsBack smaShort smaLong lookback := by
  unfold NeverTurnsBack
  constructor
  · rintro ⟨hgolden, hdeath, -⟩ hlength
    constructor
    · by_contra hnot
      obtain ⟨hends, hstays⟩ := not_or.1 hnot
      exact hends (hgolden (detectGoldenCross_isSome_iff.2 ⟨hlength, hstays⟩))
    · by_contra hnot
      obtain ⟨hends, hstays⟩ := not_or.1 hnot
      exact hends (hdeath (detectDeathCross_isSome_iff.2 ⟨hlength, hstays⟩))
  · intro h
    have hgolden : (detectGoldenCross smaShort smaLong lookback).isSome = true → EndsAbove smaShort smaLong := by
      intro hsome
      obtain ⟨hlength, hturned⟩ := detectGoldenCross_isSome_iff.1 hsome
      exact (h hlength).1.resolve_right hturned
    have hdeath : (detectDeathCross smaShort smaLong lookback).isSome = true → EndsBelow smaShort smaLong := by
      intro hsome
      obtain ⟨hlength, hturned⟩ := detectDeathCross_isSome_iff.1 hsome
      exact (h hlength).2.resolve_right hturned
    refine ⟨hgolden, hdeath, ?_⟩
    rw [golden_mem_iff, death_mem_iff]
    rintro ⟨hsome, hsome'⟩
    exact not_endsBelow_of_endsAbove (hgolden hsome) (hdeath hsome')

/-! ## A cross that has turned back -/

/-- The short average is above the long one for a day, five days ago. -/
def oneDayAbove : Series := [1, 3, 1, 1, 1, 1].map fun x => some (toFloat x)

def flatAverage : Series := [2, 2, 2, 2, 2, 2].map fun x => some (toFloat x)

/-- The golden cross is reported although the short average is below, and the death cross with it. -/
theorem not_crossesHold : ¬ ∀ (smaShort smaLong : Series) (lookback : ℕ), 1 ≤ lookback →
    CrossesHold smaShort smaLong lookback := by
  intro h
  have hholds := h oneDayAbove flatAverage 5 (by decide)
  obtain ⟨p, hp, habove⟩ := hholds.golden (by decide +kernel)
  have hlast : (validPoints oneDayAbove flatAverage).getLast? = some (toFloat 1, toFloat 2) := rfl
  rw [hlast] at hp
  cases hp
  revert habove
  decide +kernel

/-- The scan reports both for the pair. -/
example : (scanCrosses 25 { sma5 := oneDayAbove, sma20 := flatAverage }).map (·.patternName) =
    ["golden_cross", "death_cross"] := by decide +kernel

end ChartPatterns

end TradingAgent
