/-
Double tops and double bottoms: two neighbouring extremes of about the same price with a point of the other kind
between them. The loop goes through the pairs from the latest one backwards and stops at the first that fits; the
signal says which pair that is, and how sure it is depends on whether the last price is past the neckline.
-/
import TradingAgent.Analysis.Crosses
import TradingAgent.Analysis.Extrema

namespace TradingAgent

open Binary64 (shortestDecimal)

namespace ChartPatterns

/-! ## Detection -/

/-- The values of a series that are numbers. -/
def dropna (prices : Series) : List Decimal := prices.reduceOption.map Subtype.val

/-- `iloc[-window:]`; for a window of zero that is everything. -/
def lastDays {α : Type} (window : ℕ) (values : List α) : List α :=
  if window = 0 then values else values.drop (values.length - window)

/-- The float 1e-10, by which a price of zero is replaced in a denominator. -/
def tiny : Decimal := Binary64.round (1 / 10 ^ 10)

/-- The distance of a price from an earlier one, relative to that one. -/
def priceDiff (earlier later : Decimal) : Decimal :=
  Binary64.round (|Binary64.round (later - earlier)| / max earlier tiny)

/-- A confidence to two decimal places, as it is printed. -/
def toConfidence (confidence : Decimal) : Decimal :=
  shortestDecimal (Binary64.round (SignificantDigits.halfEven (confidence * 100) / 100))

inductive DoublePattern
  | top | bottom
  deriving DecidableEq

namespace DoublePattern

def patternName : DoublePattern → String
  | top => "double_top"
  | bottom => "double_bottom"

def signalType : DoublePattern → String
  | top => "bearish"
  | bottom => "bullish"

def description : DoublePattern → String
  | top => "M자 패턴 감지 — 두 고점 형성 후 하락 가능성"
  | bottom => "W자 패턴 감지 — 두 저점 형성 후 상승 가능성"

/-- Of the highs and lows those that are compared, and those between which the neckline is taken. -/
def points {α : Type} : DoublePattern → α × α → α × α
  | top, (highs, lows) => (highs, lows)
  | bottom, (highs, lows) => (lows, highs)

/-- The lowest low of a top, the highest high of a bottom. -/
def extremest : DoublePattern → List Decimal → Option Decimal
  | top => List.min?
  | bottom => List.max?

/-- The price has gone past the neckline. -/
def broken (currentPrice neckline : Decimal) : DoublePattern → Bool
  | top => currentPrice < neckline
  | bottom => neckline < currentPrice

/-- How far the price is past the neckline. -/
def past (currentPrice neckline : Decimal) : DoublePattern → Decimal
  | top => Binary64.round (neckline - currentPrice)
  | bottom => Binary64.round (currentPrice - neckline)

/-- How far the price is from the neckline before it gets there. -/
def dist (currentPrice neckline : Decimal) : DoublePattern → Decimal
  | top => Binary64.round (Binary64.round (currentPrice - neckline) / max neckline tiny)
  | bottom => Binary64.round (Binary64.round (neckline - currentPrice) / max neckline tiny)

variable (pattern : DoublePattern)

/-- The neckline of two neighbouring extremes, if they are about equal and there is a point between them. -/
def neckline (tolerance : Decimal) (candidates : List (ℕ × Decimal)) (pair : (ℕ × Decimal) × (ℕ × Decimal)) :
    Option Decimal :=
  if pair.2.1 ≤ pair.1.1 then none
  else if priceDiff pair.1.2 pair.2.2 > tolerance then none
  else pattern.extremest ((candidates.filter (fun p => pair.1.1 < p.1 ∧ p.1 < pair.2.1)).map Prod.snd)

/-- The confidence for a price and a neckline. A neckline of zero that the price is past is a division by zero. -/
def confidence (currentPrice neckline : Decimal) : Except Exn Decimal :=
  if pattern.broken currentPrice neckline then
    if neckline = 0 then .error .divisionByZero
    else
      let bonus := min (Binary64.round (Binary64.round (pattern.past currentPrice neckline / neckline) * 5))
        (Binary64.round (2 / 10))
      .ok (toConfidence (min (Binary64.round (Binary64.round (7 / 10) + bonus)) (Binary64.round (9 / 10))))
  else
    let forming := Binary64.round (5 / 10)
    let forming := if pattern.dist currentPrice neckline < Binary64.round (3 / 100) then
      Binary64.round (forming + Binary64.round (1 / 10)) else forming
    .ok (toConfidence (min forming (Binary64.round (9 / 10))))

/-- The latest pair that fits. -/
def detect (prices : Series) (window : ℕ) (tolerance : Decimal) : Except Exn (Option PatternSignal) :=
  let valid := dropna prices
  if valid.length < 20 then .ok none
  else
    let recent := lastDays window valid
    let (swings, candidates) := pattern.points (findSwingPoints (recent.map some) 3)
    if swings.length < 2 ∨ candidates = [] then .ok none
    else
      match (Groups.moves swings).reverse.findSome? (pattern.neckline tolerance candidates) with
      | none => .ok none
      | some neckline => do
        let confidence ← pattern.confidence (recent.getLast?.getD 0) neckline
        pure (some {
          patternName := pattern.patternName
          signalType := pattern.signalType
          confidence
          description := pattern.description })

end DoublePattern

def detectDoubleTop (prices : Series) (window : ℕ := 60) (tolerance : Decimal := Binary64.round (2 / 100)) :
    Except Exn (Option PatternSignal) := DoublePattern.top.detect prices window tolerance

def detectDoubleBottom (prices : Series) (window : ℕ := 60) (tolerance : Decimal := Binary64.round (2 / 100)) :
    Except Exn (Option PatternSignal) := DoublePattern.bottom.detect prices window tolerance

/-! ## Confidences -/

/-- A confidence in whole hundredths, from so many to so many of them. -/
def Hundredths (low high : ℤ) (confidence : Decimal) : Prop := ∃ k : ℤ, low ≤ k ∧ k ≤ high ∧ confidence = k / 100

theorem Hundredths.mono {low low' high high' : ℤ} {confidence : Decimal} (h : Hundredths low high confidence)
    (hlow : low' ≤ low) (hhigh : high ≤ high') : Hundredths low' high' confidence := by
  obtain ⟨k, hk, hk', hconfidence⟩ := h
  exact ⟨k, hlow.trans hk, hk'.trans hhigh, hconfidence⟩

/-- The hundredths from 0.50 to 0.90 are rounded to themselves, and printed as they are. -/
theorem hundredths_exact : ∀ n ∈ List.range 41,
    SignificantDigits.halfEven (Binary64.round (((50 + n : ℕ) : Decimal) / 100) * 100) = ((50 + n : ℕ) : ℤ) ∧
      shortestDecimal (Binary64.round (((50 + n : ℕ) : Decimal) / 100)) = ((50 + n : ℕ) : Decimal) / 100 := by
  decide +kernel

theorem hundredth_exact {k : ℤ} (hlow : 50 ≤ k) (hhigh : k ≤ 90) :
    SignificantDigits.halfEven (Binary64.round ((k : Decimal) / 100) * 100) = k ∧
      shortestDecimal (Binary64.round ((k : Decimal) / 100)) = k / 100 := by
  obtain ⟨n, rfl⟩ : ∃ n : ℕ, k = ((50 + n : ℕ) : ℤ) := ⟨(k - 50).toNat, by omega⟩
  rw [Int.cast_natCast]
  exact hundredths_exact n (List.mem_range.2 (by omega))

theorem toConfidence_hundredths {low high : ℤ} {x : Decimal} (h50 : 50 ≤ low) (hle : low ≤ high) (h90 : high ≤ 90)
    (hlow : Binary64.round ((low : Decimal) / 100) ≤ x) (hhigh : x ≤ Binary64.round ((high : Decimal) / 100)) :
    Hundredths low high (toConfidence x) := by
  have hfirst := SignificantDigits.halfEven_mono
    (mul_le_mul_of_nonneg_right hlow (show (0 : Decimal) ≤ 100 by norm_num))
  have hlast := SignificantDigits.halfEven_mono
    (mul_le_mul_of_nonneg_right hhigh (show (0 : Decimal) ≤ 100 by norm_num))
  rw [(hundredth_exact h50 (hle.trans h90)).1] at hfirst
  rw [(hundredth_exact (h50.trans hle) h90).1] at hlast
  exact ⟨_, hfirst, hlast, (hundredth_exact (h50.trans hfirst) (hlast.trans h90)).2⟩

/-- A sum with something that is not negative does not fall below a float. -/
theorem round_add_le {x y : Decimal} (hx : Binary64.IsFloat x) (hy : 0 ≤ y) : x ≤ Binary64.round (x + y) := by
  have hround := Binary64.round_mono (le_add_of_nonneg_right (a := x) hy)
  rwa [hx] at hround

/-! ## What a double is -/

namespace DoublePattern

/-- A place that is compared: a high of a top, a low of a bottom. -/
def IsSwing (values : List (Option Decimal)) (i : ℕ) : DoublePattern → Prop
  | top => IsHigh values 3 i
  | bottom => IsLow values 3 i

/-- A place where the neckline may be: a low of a top, a high of a bottom. -/
def IsCandidate (values : List (Option Decimal)) (i : ℕ) : DoublePattern → Prop
  | top => IsLow values 3 i
  | bottom => IsHigh values 3 i

/-- A value is at least as far out as another one: not above it for a top, not below it for a bottom. -/
def Beyond (x y : Decimal) : DoublePattern → Prop
  | top => x ≤ y
  | bottom => y ≤ x

variable (pattern : DoublePattern)

/-- Two neighbouring extremes of about the same price with a point of the other kind between them. -/
structure IsDouble (values : List (Option Decimal)) (tolerance : Decimal) (a b : ℕ) : Prop where
  first : pattern.IsSwing values a
  second : pattern.IsSwing values b
  lt : a < b
  neighbours : ∀ c, a < c → c < b → ¬ pattern.IsSwing values c
  level : ∃ v w, values[a]? = some (some v) ∧ values[b]? = some (some w) ∧ priceDiff v w ≤ tolerance
  between : ∃ c, a < c ∧ c < b ∧ pattern.IsCandidate values c

/-- The neckline of two places is the outermost of the points between them. -/
structure IsNeckline (values : List (Option Decimal)) (a b : ℕ) (neckline : Decimal) : Prop where
  attained : ∃ c, a < c ∧ c < b ∧ pattern.IsCandidate values c ∧ values[c]? = some (some neckline)
  extremest : ∀ c v, a < c → c < b → pattern.IsCandidate values c → values[c]? = some (some v) →
    pattern.Beyond neckline v

/-! ## The points -/

theorem mem_pointsAt {values : List (Option Decimal)} {indices : List ℕ} {point : ℕ × Decimal} :
    point ∈ pointsAt values indices ↔ point.1 ∈ indices ∧ values[point.1]? = some (some point.2) := by
  unfold pointsAt
  rw [List.mem_filterMap]
  constructor
  · rintro ⟨i, hi, hvalue⟩
    obtain ⟨v, hv, rfl⟩ := Option.map_eq_some_iff.1 hvalue
    exact ⟨hi, join_eq_some_iff.1 hv⟩
  · rintro ⟨hi, hvalue⟩
    exact ⟨point.1, hi, by rw [hvalue]; rfl⟩

theorem mem_points {values : List (Option Decimal)} {point : ℕ × Decimal} :
    (point ∈ (pattern.points (findSwingPoints values 3)).1 ↔
      pattern.IsSwing values point.1 ∧ values[point.1]? = some (some point.2)) ∧
    (point ∈ (pattern.points (findSwingPoints values 3)).2 ↔
      pattern.IsCandidate values point.1 ∧ values[point.1]? = some (some point.2)) := by
  cases pattern with
  | top =>
    exact ⟨mem_pointsAt.trans (and_congr_left' mem_findLocalExtrema.1),
      mem_pointsAt.trans (and_congr_left' mem_findLocalExtrema.2)⟩
  | bottom =>
    exact ⟨mem_pointsAt.trans (and_congr_left' mem_findLocalExtrema.2),
      mem_pointsAt.trans (and_congr_left' mem_findLocalExtrema.1)⟩

theorem swings_increasing (values : List (Option Decimal)) :
    (pattern.points (findSwingPoints values 3)).1.Pairwise (fun p q => p.1 < q.1) := by
  obtain ⟨hhighs, hlows⟩ := findLocalExtrema_increasing values 3
  obtain ⟨hhighs', hlows'⟩ := findSwingPoints_indices values 3
  rw [← hhighs', List.pairwise_map] at hhighs
  rw [← hlows', List.pairwise_map] at hlows
  cases pattern with
  | top => exact hhighs
  | bottom => exact hlows

/-- Every extreme has a value. -/
theorem IsSwing.value {values : List (Option Decimal)} {i : ℕ} (h : pattern.IsSwing values i) :
    ∃ v, values[i]? = some (some v) := by
  cases pattern with
  | top =>
    obtain ⟨-, -, v, hv, -⟩ := h
    exact ⟨v, hv⟩
  | bottom =>
    obtain ⟨-, -, v, hv, -⟩ := h
    exact ⟨v, hv⟩

theorem IsCandidate.value {values : List (Option Decimal)} {i : ℕ} (h : pattern.IsCandidate values i) :
    ∃ v, values[i]? = some (some v) := by
  cases pattern with
  | top => exact IsSwing.value .bottom h
  | bottom => exact IsSwing.value .top h

theorem extremest_eq_some_iff {values : List Decimal} {x : Decimal} :
    pattern.extremest values = some x ↔ x ∈ values ∧ ∀ y ∈ values, pattern.Beyond x y := by
  cases pattern with
  | top => exact List.min?_eq_some_iff
  | bottom => exact List.max?_eq_some_iff

theorem extremest_eq_none_iff {values : List Decimal} : pattern.extremest values = none ↔ values = [] := by
  cases pattern with
  | top => exact List.min?_eq_none_iff
  | bottom => exact List.max?_eq_none_iff

/-! ## The pairs -/

section Pairs

variable {values : List (Option Decimal)} {tolerance : Decimal} {a b : ℕ} {v w : Decimal}

theorem mem_between {x : Decimal} :
    x ∈ (((pattern.points (findSwingPoints values 3)).2.filter (fun p => a < p.1 ∧ p.1 < b)).map Prod.snd) ↔
      ∃ c, a < c ∧ c < b ∧ pattern.IsCandidate values c ∧ values[c]? = some (some x) := by
  rw [List.mem_map]
  constructor
  · rintro ⟨⟨c, y⟩, hmem, rfl⟩
    obtain ⟨hc, hfilter⟩ := List.mem_filter.1 hmem
    obtain ⟨hac, hcb⟩ := of_decide_eq_true hfilter
    obtain ⟨hcandidate, hvalue⟩ := pattern.mem_points.2.1 hc
    exact ⟨c, hac, hcb, hcandidate, hvalue⟩
  · rintro ⟨c, hac, hcb, hcandidate, hvalue⟩
    exact ⟨(c, x), List.mem_filter.2 ⟨pattern.mem_points.2.2 ⟨hcandidate, hvalue⟩, decide_eq_true ⟨hac, hcb⟩⟩, rfl⟩

/-- The moves of the extremes are those from one to the next. -/
theorem mem_moves : ((a, v), (b, w)) ∈ Groups.moves (pattern.points (findSwingPoints values 3)).1 ↔
    (pattern.IsSwing values a ∧ values[a]? = some (some v)) ∧ (pattern.IsSwing values b ∧ values[b]? = some (some w)) ∧
      a < b ∧ ∀ c, a < c → c < b → ¬ pattern.IsSwing values c := by
  rw [@Groups.mem_moves_iff _ _ _ Prod.fst (a, v) (b, w) _ (pattern.swings_increasing values), pattern.mem_points.1,
    pattern.mem_points.1]
  refine and_congr_right fun _ => and_congr_right fun _ => and_congr_right fun _ => ?_
  constructor
  · intro h c hac hcb hswing
    obtain ⟨x, hx⟩ := hswing.value
    exact absurd hcb (not_lt.2 (h (c, x) (pattern.mem_points.1.2 ⟨hswing, hx⟩) hac))
  · intro h point hpoint hac
    by_contra hlt
    exact h point.1 hac (not_le.1 hlt) (pattern.mem_points.1.1 hpoint).1

/-- A move has a neckline if it is a double, and no other one. -/
theorem neckline_eq_some_iff (hmove : ((a, v), (b, w)) ∈ Groups.moves (pattern.points (findSwingPoints values 3)).1)
    {x : Decimal} :
    pattern.neckline tolerance (pattern.points (findSwingPoints values 3)).2 ((a, v), (b, w)) = some x ↔
      pattern.IsDouble values tolerance a b ∧ pattern.IsNeckline values a b x := by
  obtain ⟨⟨ha, hv⟩, ⟨hb, hw⟩, hlt, hnone⟩ := pattern.mem_moves.1 hmove
  have hdouble : pattern.IsDouble values tolerance a b ↔
      priceDiff v w ≤ tolerance ∧ ∃ c, a < c ∧ c < b ∧ pattern.IsCandidate values c := by
    constructor
    · rintro ⟨-, -, -, -, ⟨v', w', hv', hw', hlevel⟩, hbetween⟩
      rw [hv] at hv'
      rw [hw] at hw'
      cases hv'
      cases hw'
      exact ⟨hlevel, hbetween⟩
    · rintro ⟨hlevel, hbetween⟩
      exact ⟨ha, hb, hlt, hnone, ⟨v, w, hv, hw, hlevel⟩, hbetween⟩
  unfold neckline
  dsimp only
  rw [if_neg (not_le.2 hlt), hdouble]
  split
  · rename_i hfar
    exact iff_of_false (fun h => by cases h) fun h => absurd h.1.1 (not_le.2 hfar)
  · rename_i hnear
    rw [extremest_eq_some_iff, mem_between]
    constructor
    · rintro ⟨⟨c, hac, hcb, hc, hx⟩, hall⟩
      refine ⟨⟨not_lt.1 hnear, c, hac, hcb, hc⟩, ⟨c, hac, hcb, hc, hx⟩, fun d y had hdb hd hy => ?_⟩
      exact hall y (pattern.mem_between.2 ⟨d, had, hdb, hd, hy⟩)
    · rintro ⟨-, hattained, hextremest⟩
      refine ⟨hattained, fun y hy => ?_⟩
      obtain ⟨d, had, hdb, hd, hy⟩ := pattern.mem_between.1 hy
      exact hextremest d y had hdb hd hy

/-- A double has a neckline. -/
theorem IsDouble.exists_neckline (h : pattern.IsDouble values tolerance a b) :
    ∃ x, pattern.IsNeckline values a b x := by
  obtain ⟨c, hac, hcb, hc⟩ := h.between
  obtain ⟨y, hy⟩ := hc.value
  have hmem := pattern.mem_between.2 ⟨c, hac, hcb, hc, hy⟩
  obtain ⟨x, hx⟩ := Option.ne_none_iff_exists'.1 fun hnone =>
    List.ne_nil_of_mem hmem ((pattern.extremest_eq_none_iff).1 hnone)
  obtain ⟨hx, hall⟩ := (pattern.extremest_eq_some_iff).1 hx
  exact ⟨x, pattern.mem_between.1 hx, fun d y had hdb hd hy => hall y (pattern.mem_between.2 ⟨d, had, hdb, hd, hy⟩)⟩

theorem IsDouble.move (h : pattern.IsDouble values tolerance a b) :
    ∃ v w, ((a, v), (b, w)) ∈ Groups.moves (pattern.points (findSwingPoints values 3)).1 := by
  obtain ⟨v, w, hv, hw, -⟩ := h.level
  exact ⟨v, w, pattern.mem_moves.2 ⟨⟨h.first, hv⟩, ⟨h.second, hw⟩, h.lt, h.neighbours⟩⟩

/-- The loop ends without a neckline if there is no double. -/
theorem findNeckline_eq_none_iff :
    (Groups.moves (pattern.points (findSwingPoints values 3)).1).reverse.findSome?
      (pattern.neckline tolerance (pattern.points (findSwingPoints values 3)).2) = none ↔
    ¬ ∃ a b, pattern.IsDouble values tolerance a b := by
  rw [List.findSome?_eq_none_iff]
  constructor
  · rintro h ⟨a, b, hdouble⟩
    obtain ⟨v, w, hmove⟩ := hdouble.move
    obtain ⟨x, hx⟩ := hdouble.exists_neckline
    have hnone := h _ (List.mem_reverse.2 hmove)
    rw [(pattern.neckline_eq_some_iff hmove).2 ⟨hdouble, hx⟩] at hnone
    cases hnone
  · rintro h ⟨⟨a, v⟩, ⟨b, w⟩⟩ hmove
    rw [List.mem_reverse] at hmove
    by_contra hsome
    obtain ⟨x, hx⟩ := Option.ne_none_iff_exists'.1 hsome
    exact h ⟨a, b, ((pattern.neckline_eq_some_iff hmove).1 hx).1⟩

/-- The loop ends with the neckline of the latest double. -/
theorem findNeckline_eq_some {x : Decimal}
    (h : (Groups.moves (pattern.points (findSwingPoints values 3)).1).reverse.findSome?
      (pattern.neckline tolerance (pattern.points (findSwingPoints values 3)).2) = some x) :
    ∃ a b, pattern.IsDouble values tolerance a b ∧ pattern.IsNeckline values a b x ∧
      ∀ a' b', pattern.IsDouble values tolerance a' b' → b' ≤ b := by
  obtain ⟨later, ⟨⟨a, v⟩, ⟨b, w⟩⟩, earlier, hsplit, hx, hlater⟩ := List.findSome?_eq_some_iff.1 h
  have hmoves : Groups.moves (pattern.points (findSwingPoints values 3)).1 =
      earlier.reverse ++ ((a, v), (b, w)) :: later.reverse := by
    rw [← List.reverse_reverse (Groups.moves _), hsplit]
    simp
  have hmove : ((a, v), (b, w)) ∈ Groups.moves (pattern.points (findSwingPoints values 3)).1 := by
    rw [hmoves]
    exact List.mem_append_right _ List.mem_cons_self
  obtain ⟨hdouble, hneckline⟩ := (pattern.neckline_eq_some_iff hmove).1 hx
  refine ⟨a, b, hdouble, hneckline, fun a' b' hdouble' => ?_⟩
  obtain ⟨v', w', hmove'⟩ := hdouble'.move
  have hincreasing := @Groups.moves_increasing _ _ _ Prod.fst _ (pattern.swings_increasing values)
  rw [hmoves, List.pairwise_append] at hincreasing
  have hmem := hmove'
  rw [hmoves, List.mem_append, List.mem_cons] at hmem
  rcases hmem with hmem | heq | hmem
  · exact (hincreasing.2.2 _ hmem _ List.mem_cons_self).le
  · cases heq
    exact le_rfl
  · -- a later pair that is a double would have ended the loop before
    obtain ⟨y, hy⟩ := hdouble'.exists_neckline
    have hnone := hlater _ (List.mem_reverse.1 hmem)
    rw [(pattern.neckline_eq_some_iff hmove').2 ⟨hdouble', hy⟩] at hnone
    cases hnone

end Pairs

/-! ## How sure a double is -/

/-- How sure a double is: from 0.70 to 0.90 once the price is past the neckline, and before that 0.60 near the neckline
and 0.50 otherwise. -/
def Grades (currentPrice neckline confidence : Decimal) : Prop :=
  if pattern.broken currentPrice neckline = true then Hundredths 70 90 confidence
  else confidence = if pattern.dist currentPrice neckline < Binary64.round (3 / 100) then 6 / 10 else 5 / 10

theorem past_nonneg {currentPrice neckline : Decimal} (h : pattern.broken currentPrice neckline = true) :
    0 ≤ pattern.past currentPrice neckline := by
  cases pattern with
  | top => exact Binary64.round_nonneg (sub_nonneg.2 (of_decide_eq_true h).le)
  | bottom => exact Binary64.round_nonneg (sub_nonneg.2 (of_decide_eq_true h).le)

theorem confidence_grades {currentPrice neckline : Decimal}
    (hpos : pattern.broken currentPrice neckline = true → 0 < neckline) :
    ∃ confidence, pattern.confidence currentPrice neckline = .ok confidence ∧
      pattern.Grades currentPrice neckline confidence := by
  unfold confidence Grades
  split
  · rename_i hbroken
    have hneckline := hpos hbroken
    rw [if_neg hneckline.ne']
    refine ⟨_, rfl, ?_⟩
    have hquotient : 0 ≤ pattern.past currentPrice neckline / neckline :=
      div_nonneg (pattern.past_nonneg hbroken) hneckline.le
    have hbonus : 0 ≤ min (Binary64.round (Binary64.round (pattern.past currentPrice neckline / neckline) * 5))
        (Binary64.round (2 / 10)) :=
      le_min (Binary64.round_nonneg (mul_nonneg (Binary64.round_nonneg hquotient) (by norm_num)))
        (Binary64.round_nonneg (by norm_num))
    refine toConfidence_hundredths (by norm_num) (by norm_num) (by norm_num) (le_min ?_ ?_) ?_
    · have hsum := round_add_le (Binary64.isFloat_round (7 / 10 : Decimal)) hbonus
      exact (Binary64.round_mono (by norm_num)).trans hsum
    · exact Binary64.round_mono (by norm_num)
    · exact (min_le_right _ _).trans (Binary64.round_mono (by norm_num))
  · rename_i hforming
    refine ⟨_, rfl, ?_⟩
    split
    · decide +kernel
    · decide +kernel

/-! ## The signal -/

section Exact

variable {prices : Series} {window : ℕ}

theorem mem_lastDays {α : Type} {window : ℕ} {values : List α} {x : α} (h : x ∈ lastDays window values) :
    x ∈ values := by
  unfold lastDays at h
  split at h
  · exact h
  · exact List.mem_of_mem_drop h

/-- A neckline that the price is past is positive if no price is negative. -/
theorem neckline_pos {recent : List Decimal} {a b : ℕ} {neckline currentPrice : Decimal}
    (hprices : ∀ x ∈ recent, 0 ≤ x) (hprice : currentPrice ∈ recent)
    (hneckline : pattern.IsNeckline (recent.map some) a b neckline)
    (hbroken : pattern.broken currentPrice neckline = true) : 0 < neckline := by
  cases pattern with
  | top => exact (hprices _ hprice).trans_lt (of_decide_eq_true hbroken)
  | bottom =>
    -- the neckline is a high, so it is above its neighbour
    obtain ⟨c, -, -, ⟨-, -, v, hv, hneighbours⟩, hc⟩ := hneckline.attained
    rw [hv] at hc
    cases hc
    obtain ⟨left, _, hleft, -, hlt, -⟩ := hneighbours 1 le_rfl (by norm_num)
    obtain ⟨x, hx, heq⟩ := List.mem_map.1 (List.mem_of_getElem? hleft)
    cases heq
    exact (hprices _ hx).trans_lt hlt

/-- What the detection finds: nothing without twenty days and a double, otherwise the latest double, its neckline, and
how sure that is for the last price. -/
structure Found (prices : Series) (window : ℕ) (tolerance : Decimal) (found : Option PatternSignal) : Prop where
  none_iff : found = none ↔ ¬ (20 ≤ (dropna prices).length ∧
    ∃ a b, pattern.IsDouble ((lastDays window (dropna prices)).map some) tolerance a b)
  some : ∀ signal, found = some signal → ∃ a b neckline currentPrice,
    pattern.IsDouble ((lastDays window (dropna prices)).map some) tolerance a b ∧
    (∀ a' b', pattern.IsDouble ((lastDays window (dropna prices)).map some) tolerance a' b' → b' ≤ b) ∧
    pattern.IsNeckline ((lastDays window (dropna prices)).map some) a b neckline ∧
    (dropna prices).getLast? = some currentPrice ∧ pattern.Grades currentPrice neckline signal.confidence ∧
    signal.patternName = pattern.patternName ∧ signal.signalType = pattern.signalType

theorem getLast?_lastDays {α : Type} (window : ℕ) (values : List α) :
    (lastDays window values).getLast? = values.getLast? := by
  unfold lastDays
  split
  · rfl
  · rename_i hwindow
    rw [List.getLast?_drop]
    split
    · rename_i hshort
      have hnil : values = [] := List.eq_nil_of_length_eq_zero (by omega)
      rw [hnil]
      rfl
    · rfl

theorem detect_exact (hprices : ∀ x ∈ dropna prices, 0 ≤ x) (tolerance : Decimal) :
    ∃ found, pattern.detect prices window tolerance = .ok found ∧ pattern.Found prices window tolerance found := by
  unfold detect
  dsimp only
  split
  · rename_i hshort
    refine ⟨none, rfl, iff_of_true rfl fun h => absurd h.1 (not_le.2 hshort), fun signal h => ?_⟩
    cases h
  rename_i hlong
  have hlength : 20 ≤ (dropna prices).length := not_lt.1 hlong
  have hne : dropna prices ≠ [] := by
    intro hnil
    rw [hnil] at hlength
    exact absurd hlength (by decide)
  obtain ⟨currentPrice, hlast⟩ := Option.ne_none_iff_exists'.1 (mt List.getLast?_eq_none_iff.1 hne)
  have hprice : currentPrice ∈ lastDays window (dropna prices) :=
    List.mem_of_getLast? ((getLast?_lastDays window _).trans hlast)
  have hrecent : ∀ x ∈ lastDays window (dropna prices), 0 ≤ x := fun x hx => hprices x (mem_lastDays hx)
  rw [getLast?_lastDays, hlast]
  split
  · rename_i hfew
    refine ⟨none, rfl, iff_of_true rfl ?_, fun signal h => (by cases h)⟩
    rintro ⟨-, a, b, hdouble⟩
    obtain ⟨v, w, hmove⟩ := hdouble.move
    rcases hfew with hfew | hempty
    · have hpairs := List.length_pos_of_mem hmove
      unfold Groups.moves at hpairs
      rw [List.length_zip, List.length_tail] at hpairs
      omega
    · obtain ⟨c, -, -, hc⟩ := hdouble.between
      obtain ⟨x, hx⟩ := hc.value
      have hmem := pattern.mem_points.2.2 (show pattern.IsCandidate _ (c, x).1 ∧ _ from ⟨hc, hx⟩)
      rw [hempty] at hmem
      exact List.not_mem_nil hmem
  · split
    · rename_i hfind
      have hnot := pattern.findNeckline_eq_none_iff.1 hfind
      exact ⟨none, rfl, iff_of_true rfl fun h => hnot h.2, fun signal h => (by cases h)⟩
    · rename_i neckline hfind
      obtain ⟨a, b, hdouble, hneckline, hlatest⟩ := pattern.findNeckline_eq_some hfind
      obtain ⟨confidence, hconfidence, hgrades⟩ :=
        pattern.confidence_grades (pattern.neckline_pos hrecent hprice hneckline)
      rw [Option.getD_some, hconfidence]
      refine ⟨_, rfl, iff_of_false (Option.some_ne_none _) fun h => h ⟨hlength, a, b, hdouble⟩, fun signal h => ?_⟩
      cases h
      exact ⟨a, b, neckline, currentPrice, hdouble, hlatest, hneckline, hlast, hgrades, rfl, rfl⟩

end Exact

end DoublePattern

/-- On prices of which none is negative a double top and a double bottom are found exactly where there is one, and the
latest of them is reported. -/
theorem detectDouble_exact (prices : Series) (window : ℕ) (tolerance : Decimal) (hprices : ∀ x ∈ dropna prices, 0 ≤ x) :
    (∃ found, detectDoubleTop prices window tolerance = .ok found ∧
      DoublePattern.top.Found prices window tolerance found) ∧
    ∃ found, detectDoubleBottom prices window tolerance = .ok found ∧
      DoublePattern.bottom.Found prices window tolerance found :=
  ⟨DoublePattern.top.detect_exact hprices tolerance, DoublePattern.bottom.detect_exact hprices tolerance⟩

/-- Prices in the form of an M, which end below the low in the middle. -/
def mSeries : Series :=
  [10, 11, 12, 13, 14, 15, 14, 13, 12, 11, 12, 13, 14, 15, 14, 13, 12, 11, 10, 9].map fun x => some (Binary64.toFloat x)

theorem detectDouble_exact_m :
    (∃ found, detectDoubleTop mSeries 60 (Binary64.round (2 / 100)) = .ok found ∧
      DoublePattern.top.Found mSeries 60 (Binary64.round (2 / 100)) found) ∧
    ∃ found, detectDoubleBottom mSeries 60 (Binary64.round (2 / 100)) = .ok found ∧
      DoublePattern.bottom.Found mSeries 60 (Binary64.round (2 / 100)) found :=
  detectDouble_exact mSeries 60 (Binary64.round (2 / 100)) (by decide +kernel)

example : (detectDoubleTop mSeries).toOption.join.map (·.confidence) = some (9 / 10) := by decide +kernel

end ChartPatterns

end TradingAgent
