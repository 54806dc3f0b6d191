/-
Exactness of the risk check. Each rule is an exact limit on the quantity: its violation test and the
cap it reports, written apart in the source, agree on every positive quantity. Hence the reported
`max_allowed_quantity` is the same for every request and decides which requests pass.
-/
import TradingAgent.Strategy.RiskManager
import TradingAgent.Lib.Limit
import Mathlib.Tactic.FieldSimp

namespace TradingAgent

namespace AlgoRiskManager

/-! ## A rule's result against a limit -/

/-- The result of a rule on a quantity says what the limit says: it violates when the limit rejects,
and it reports the room of the limit. -/
structure Reports (r : RuleResult) (l : Limit) (q : ℤ) : Prop where
  rejects : r.violation.isSome = true ↔ l.rejects q
  room : r.maxQuantity = l.room

/-- The limit of a rule that compares the cost of the quantity with a budget. -/
def budgetLimit (budget unit : Decimal) (hu : 0 < unit) : Limit where
  rejects q := budget < q * unit
  room := some (Rounding.trunc (budget / unit))
  exact q hq := by
    simp only [Option.some.injEq, exists_eq_left']
    exact (Rounding.trunc_div_lt_iff_of_pos hu hq).symm

/-- The limit of a rule that compares the cost with a budget and reports zero once nothing is left. -/
def remainingLimit (budget unit : Decimal) (hu : 0 < unit) : Limit where
  rejects q := budget < q * unit
  room := some (if budget ≤ 0 then 0 else Rounding.trunc (budget / unit))
  exact q hq := by
    simp only [Option.some.injEq, exists_eq_left']
    split
    · rename_i hb
      have h2 : 0 < (q : Decimal) * unit := mul_pos (Int.cast_pos.2 hq) hu
      exact iff_of_true (hb.trans_lt h2) hq
    · exact (Rounding.trunc_div_lt_iff_of_pos hu hq).symm

/-- A rule that does not look at the quantity and reports zero when it blocks. -/
theorem reports_block {p : Prop} [Decidable p] {v : String} (q : ℤ) :
    Reports (if p then { violation := some v, maxQuantity := some 0 } else {})
      (Limit.block p) q := by
  unfold Limit.block
  constructor
  · dsimp only; split <;> simp_all
  · dsimp only; split <;> rfl

theorem reports_free {r : RuleResult} (hv : r.violation = none) (hm : r.maxQuantity = none) (q : ℤ) :
    Reports r Limit.free q := by
  constructor
  · rw [hv]; simp [Limit.free]
  · rw [hm]; rfl

/-! ## The limits of the rules -/

variable (cfg : Settings) (src : ReturnsSource) (state : PortfolioState) (symbol : String)
  (price : Decimal) (stopLossPrice : Option Decimal) (sector : String)

theorem positionSizing_exact : ∃ l : Limit, ∀ q,
    Reports (checkPositionSizing cfg state q price stopLossPrice) l q := by
  cases stopLossPrice with
  | none => exact ⟨Limit.free, fun q => reports_free rfl rfl q⟩
  | some stop =>
    by_cases h0 : |price - stop| = 0
    · refine ⟨Limit.free, fun q => reports_free ?_ ?_ q⟩ <;>
        simp only [checkPositionSizing, h0, if_true]
    · have hu : 0 < |price - stop| := lt_of_le_of_ne (abs_nonneg _) (Ne.symm h0)
      refine ⟨budgetLimit (state.totalValue * cfg.riskPerTradePct / 100) _ hu, fun q => ?_⟩
      simp only [checkPositionSizing, if_neg h0, gt_iff_lt]
      constructor
      · split <;> simp_all [budgetLimit]
      · split <;> rfl

theorem maxPosition_exact (hp : 0 < price) : ∃ l : Limit, ∀ q,
    Reports (checkMaxPosition cfg state symbol q price) l q := by
  let budget := min (state.totalValue * cfg.maxPositionPct / 100) (cfg.maxPositionSizeKrw : Decimal) -
    existingValue state symbol
  refine ⟨remainingLimit budget price hp, fun q => ?_⟩
  have hcmp : budget < q * price ↔ min (state.totalValue * cfg.maxPositionPct / 100)
      (cfg.maxPositionSizeKrw : Decimal) < existingValue state symbol + q * price := sub_lt_iff_lt_add'
  simp only [checkMaxPosition, gt_iff_lt]
  constructor
  · rw [show (remainingLimit budget price hp).rejects q ↔ _ from hcmp]
    split <;> simp_all
  · split <;> rfl

theorem maxHoldings_exact : ∃ l : Limit, ∀ q,
    Reports (checkMaxHoldings cfg state symbol) l q := by
  unfold checkMaxHoldings
  split
  · exact ⟨Limit.free, reports_free rfl rfl⟩
  · exact ⟨_, reports_block⟩

theorem sectorConcentration_exact (hv : 0 < state.totalValue) (hp : 0 < price) : ∃ l : Limit, ∀ q,
    Reports (checkSectorConcentration cfg state q price sector) l q := by
  let current := (state.sectorAllocations.get? sector).getD 0
  let allowed := cfg.sectorConcentrationPct - current
  let budget := allowed / 100 * state.totalValue
  have hsign : budget ≤ 0 ↔ allowed ≤ 0 := by
    rw [← not_lt, ← not_lt, mul_pos_iff_of_pos_right hv, div_pos_iff_of_pos_right (by norm_num)]
  refine ⟨remainingLimit budget price hp, fun q => ?_⟩
  -- the percentage test, cleared of the division by the total value
  have hcmp : budget < q * price ↔
      cfg.sectorConcentrationPct < current + q * price / state.totalValue * 100 := by
    have h1 : q * price / state.totalValue * 100 = q * price * (100 / state.totalValue) := by
      field_simp
    have h2 : budget * (100 / state.totalValue) = allowed := by
      simp only [budget]; field_simp
    have hc : 0 < 100 / state.totalValue := div_pos (by norm_num) hv
    rw [← mul_lt_mul_iff_left₀ hc, h2, h1]
    exact sub_lt_iff_lt_add'
  simp only [checkSectorConcentration, gt_iff_lt]
  constructor
  · rw [show (remainingLimit budget price hp).rejects q ↔ _ from hcmp]
    split <;> simp_all [current]
  · have hroom : (remainingLimit budget price hp).room =
        some (if allowed ≤ 0 then 0 else Rounding.trunc (budget / price)) := by
      simp only [remainingLimit, hsign]
    rw [hroom]
    split <;> rfl

theorem maxDrawdown_exact : ∃ l : Limit, ∀ q, Reports (checkMaxDrawdown cfg state) l q :=
  ⟨_, reports_block⟩

theorem dailyLossLimit_exact : ∃ l : Limit, ∀ q,
    Reports (checkDailyLossLimit cfg state) l q :=
  ⟨_, reports_block⟩

theorem dailyTrades_exact : ∃ l : Limit, ∀ q, Reports (checkDailyTrades cfg state) l q :=
  ⟨_, reports_block⟩

/-- The correlation rule never violates and never caps. -/
theorem correlation_exact : ∃ l : Limit, ∀ q,
    Reports (checkCorrelation cfg src state symbol) l q := by
  refine ⟨Limit.free, fun q => reports_free ?_ ?_ q⟩ <;>
  · unfold checkCorrelation
    dsimp only
    repeat' split
    all_goals rfl

/-! ## The check as a list of limits -/

/-- The eight rules are eight exact limits, the same for every requested quantity. -/
theorem ruleResults_exact (hv : 0 < state.totalValue) (hp : 0 < price) : ∃ ls : List Limit, ∀ q,
    List.Forall₂ (fun r l => Reports r l q)
      (ruleResults cfg src state symbol q price stopLossPrice sector) ls := by
  obtain ⟨l1, h1⟩ := positionSizing_exact cfg state price stopLossPrice
  obtain ⟨l2, h2⟩ := maxPosition_exact cfg state symbol price hp
  obtain ⟨l3, h3⟩ := maxHoldings_exact cfg state symbol
  obtain ⟨l4, h4⟩ := sectorConcentration_exact cfg state price sector hv hp
  obtain ⟨l5, h5⟩ := maxDrawdown_exact cfg state
  obtain ⟨l6, h6⟩ := dailyLossLimit_exact cfg state
  obtain ⟨l7, h7⟩ := correlation_exact cfg src state symbol
  obtain ⟨l8, h8⟩ := dailyTrades_exact cfg state
  exact ⟨[l1, l2, l3, l4, l5, l6, l7, l8], fun q =>
    .cons (h1 q) (.cons (h2 q) (.cons (h3 q) (.cons (h4 q) (.cons (h5 q) (.cons (h6 q)
      (.cons (h7 q) (.cons (h8 q) .nil)))))))⟩

theorem no_violation_iff {results : List RuleResult} {ls : List Limit} {q : ℤ}
    (h : List.Forall₂ (fun r l => Reports r l q) results ls) :
    results.filterMap (·.violation) = [] ↔ Limit.Passes ls q := by
  induction h with
  | nil => simp [Limit.Passes]
  | @cons r l rs ls hr _ ih =>
    have hpass : Limit.Passes (l :: ls) q ↔ ¬ l.rejects q ∧ Limit.Passes ls q := by
      simp [Limit.Passes]
    rw [hpass, ← ih, ← hr.rejects]
    cases hv : r.violation with
    | none => simp [hv]
    | some v => simp [hv]

theorem caps_eq_rooms {results : List RuleResult} {ls : List Limit} {q : ℤ}
    (h : List.Forall₂ (fun r l => Reports r l q) results ls) :
    results.filterMap (·.maxQuantity) = Limit.rooms ls := by
  unfold Limit.rooms
  induction h with
  | nil => rfl
  | cons hr _ ih => rw [List.filterMap_cons, List.filterMap_cons, hr.room, ih]

/-- The position rule always sets a cap, so there is a smallest one. -/
theorem caps_min?_isSome (q : ℤ) : ∃ m,
    ((ruleResults cfg src state symbol q price stopLossPrice sector).filterMap
      (·.maxQuantity)).min? = some m := by
  have hmem : ∃ c, (checkMaxPosition cfg state symbol q price).maxQuantity = some c := by
    unfold checkMaxPosition; dsimp only; split <;> exact ⟨_, rfl⟩
  obtain ⟨c, hc⟩ := hmem
  rw [← Option.isSome_iff_exists, List.isSome_min?_iff, Ne, List.filterMap_eq_nil_iff]
  intro hnil
  have := hnil (checkMaxPosition cfg state symbol q price) (by simp [ruleResults])
  rw [hc] at this; cases this

/-- Only a violated rule blocks. -/
theorem not_blocked_of_no_violation {results : List RuleResult}
    (h : results.filterMap (·.violation) = []) :
    results.any (fun r => r.violation.isSome && r.maxQuantity == some 0) = false := by
  rw [List.any_eq_false]
  intro r hr
  have hr' : r.violation = none := List.filterMap_eq_nil_iff.1 h r hr
  simp [hr']

theorem check_buy {quantity : ℤ} (hv : 0 < state.totalValue) (hp : 0 < price) :
    check cfg src state symbol .buy quantity price stopLossPrice sector =
      summarize (ruleResults cfg src state symbol quantity price stopLossPrice sector)
        symbol quantity price := by
  unfold check
  rw [if_neg (not_le.2 hp), if_neg (not_le.2 hv)]

/-- What the check reports on a BUY: one list of limits and its smallest room `m` give the answer
for every quantity. -/
theorem check_buy_reports (hv : 0 < state.totalValue) (hp : 0 < price) :
    ∃ (ls : List Limit) (m : ℤ), (Limit.rooms ls).min? = some m ∧ ∀ q,
      let r := check cfg src state symbol .buy q price stopLossPrice sector
      (r.passed = true ↔ Limit.Passes ls q) ∧ (r.passed = true → r.violations = []) ∧
      r.maxAllowedQuantity = max 0 m ∧
      (r.adjustedQuantity = 0 ∨ r.adjustedQuantity = max 0 (min q m)) ∧
      (r.passed = true → r.adjustedQuantity = max 0 (min q m)) := by
  obtain ⟨ls, hls⟩ := ruleResults_exact cfg src state symbol price stopLossPrice sector hv hp
  obtain ⟨m, hm⟩ := caps_min?_isSome cfg src state symbol price stopLossPrice sector 0
  rw [caps_eq_rooms (hls 0)] at hm
  refine ⟨ls, m, hm, fun q => ?_⟩
  have hcaps := caps_eq_rooms (hls q)
  simp only [check_buy cfg src state symbol price stopLossPrice sector hv hp, summarize, hcaps, hm,
    List.isEmpty_iff, Option.getD_some, true_and]
  refine ⟨no_violation_iff (hls q), id, ?_, fun hpass => ?_⟩
  · split
    · exact .inl rfl
    · exact .inr rfl
  · rw [if_neg (Bool.not_eq_true _ ▸ not_blocked_of_no_violation hpass)]

/-! ## Exactness -/

/-- The check of a BUY as a function of the requested quantity. -/
def checkBuy (quantity : ℤ) : RiskCheckResult :=
  check cfg src state symbol .buy quantity price stopLossPrice sector

/-- For positive prices and a portfolio with value, the largest allowed quantity does not depend on
the request and a positive request passes just when it does not exceed it. So the adjusted quantity
never exceeds the request, passing is downward closed, and a positive adjusted quantity passes the
same check without violation. -/
theorem check_exact (hv : 0 < state.totalValue) (hp : 0 < price) :
    (∀ q q', (checkBuy cfg src state symbol price stopLossPrice sector q).maxAllowedQuantity =
      (checkBuy cfg src state symbol price stopLossPrice sector q').maxAllowedQuantity) ∧
    (∀ q, 0 < q → ((checkBuy cfg src state symbol price stopLossPrice sector q).passed = true ↔
      q ≤ (checkBuy cfg src state symbol price stopLossPrice sector q).maxAllowedQuantity)) ∧
    (∀ q, 0 ≤ q → (checkBuy cfg src state symbol price stopLossPrice sector q).adjustedQuantity ≤ q) ∧
    (∀ q q', 0 < q' → q' ≤ q →
      (checkBuy cfg src state symbol price stopLossPrice sector q).passed = true →
      (checkBuy cfg src state symbol price stopLossPrice sector q').passed = true) ∧
    (∀ q adjusted, adjusted = (checkBuy cfg src state symbol price stopLossPrice sector q).adjustedQuantity →
      0 < adjusted →
      (checkBuy cfg src state symbol price stopLossPrice sector adjusted).passed = true ∧
      (checkBuy cfg src state symbol price stopLossPrice sector adjusted).violations = []) := by
  obtain ⟨ls, m, hm, hrep⟩ := check_buy_reports cfg src state symbol price stopLossPrice sector hv hp
  have hpass : ∀ q, (checkBuy cfg src state symbol price stopLossPrice sector q).passed = true ↔
      Limit.Passes ls q := fun q => (hrep q).1
  have hmax : ∀ q, (checkBuy cfg src state symbol price stopLossPrice sector q).maxAllowedQuantity =
      max 0 m := fun q => (hrep q).2.2.1
  refine ⟨fun q q' => (hmax q).trans (hmax q').symm, fun q hq => ?_, fun q hq => ?_, ?_, ?_⟩
  · rw [hpass, hmax]; exact Limit.passes_iff_le_smallest hm hq
  · rcases (hrep q).2.2.2.1 with h | h
    · exact h ▸ hq
    · exact h ▸ max_le hq (min_le_left q m)
  · intro q q' hq' hle h
    exact (hpass q').2 (((hpass q).1 h).mono hq' hle)
  · rintro q adjusted rfl hq
    have hadj : (checkBuy cfg src state symbol price stopLossPrice sector q).adjustedQuantity =
        max 0 (min q m) := (hrep q).2.2.2.1.resolve_left (ne_of_gt hq)
    have hp' : (checkBuy cfg src state symbol price stopLossPrice sector (checkBuy cfg src state symbol price
        stopLossPrice sector q).adjustedQuantity).passed = true := by
      rw [hpass, hadj]; exact Limit.passes_cut hm (hadj ▸ hq)
    exact ⟨hp', (hrep _).2.1 hp'⟩

/-! ## Passed checks -/

/-- A BUY that passes is cut to a cap that it keeps if it is positive. -/
theorem adjusted_to_cap {q : ℤ}
    (h : (check cfg src state symbol .buy q price stopLossPrice sector).passed = true) :
    ∃ m, (0 < q → q ≤ m) ∧
      (check cfg src state symbol .buy q price stopLossPrice sector).adjustedQuantity = max 0 (min q m) := by
  by_cases hp : price ≤ 0
  · simp [check, hp] at h
  by_cases hv : state.totalValue ≤ 0
  · simp [check, hp, hv] at h
  obtain ⟨ls, m, hm, hrep⟩ := check_buy_reports cfg src state symbol price stopLossPrice sector
    (not_le.1 hv) (not_le.1 hp)
  obtain ⟨hpass, _, _, _, hadj⟩ := hrep q
  refine ⟨m, fun hq => ?_, hadj h⟩
  have hle : q ≤ max 0 m := (Limit.passes_iff_le_smallest hm hq).1 (hpass.1 h)
  omega

/-- A passed check of a positive quantity leaves it as it is. -/
theorem adjusted_eq_of_passed {q : ℤ} (hq : 0 < q)
    (h : (check cfg src state symbol .buy q price stopLossPrice sector).passed = true) :
    (check cfg src state symbol .buy q price stopLossPrice sector).adjustedQuantity = q := by
  obtain ⟨m, hm, hadj⟩ := adjusted_to_cap cfg src state symbol price stopLossPrice sector h
  rw [hadj]
  have := hm hq
  omega

/-- A passed check adjusts the quantity to itself, if it adjusts it at all. -/
theorem adjusted_of_passed {action : SignalAction} {q : ℤ}
    (h : (check cfg src state symbol action q price stopLossPrice sector).passed = true) :
    (check cfg src state symbol action q price stopLossPrice sector).adjustedQuantity = 0 ∨
    (check cfg src state symbol action q price stopLossPrice sector).adjustedQuantity = q := by
  cases action with
  | sell => exact .inr rfl
  | hold => exact .inr rfl
  | buy =>
    obtain ⟨m, hm, hadj⟩ := adjusted_to_cap cfg src state symbol price stopLossPrice sector h
    rw [hadj]
    by_cases hq : 0 < q
    · have := hm hq
      omega
    · omega

theorem correlation_violation : (checkCorrelation cfg src state symbol).violation = none := by
  unfold checkCorrelation
  dsimp only
  repeat' split
  all_goals rfl

/-- A BUY passes exactly if the price and the portfolio have value and no rule is violated; the
correlation rule never is. -/
theorem passed_buy_iff {q : ℤ} :
    (check cfg src state symbol .buy q price stopLossPrice sector).passed = true ↔
      (0 < price ∧ 0 < state.totalValue) ∧
      (checkPositionSizing cfg state q price stopLossPrice).violation = none ∧
      (checkMaxPosition cfg state symbol q price).violation = none ∧
      (checkMaxHoldings cfg state symbol).violation = none ∧
      (checkSectorConcentration cfg state q price sector).violation = none ∧
      (checkMaxDrawdown cfg state).violation = none ∧
      (checkDailyLossLimit cfg state).violation = none ∧
      (checkDailyTrades cfg state).violation = none := by
  by_cases hp : price ≤ 0
  · simp [check, hp, not_lt.2 hp]
  by_cases hv : state.totalValue ≤ 0
  · simp [check, hp, hv, not_lt.2 hv]
  rw [check_buy cfg src state symbol price stopLossPrice sector (not_le.1 hv) (not_le.1 hp)]
  simp only [summarize, List.isEmpty_iff, List.filterMap_eq_nil_iff, ruleResults, List.mem_cons,
    List.not_mem_nil, or_false, forall_eq_or_imp, forall_eq, correlation_violation, true_and,
    not_le.1 hp, not_le.1 hv]

/-- A BUY that passes for one sector passes for another exactly if the rule for that sector lets it
through; where the returns come from plays no part. -/
theorem passed_other_sector {src' : ReturnsSource} {sector' : String} {q : ℤ}
    (h : (check cfg src state symbol .buy q price stopLossPrice sector).passed = true) :
    (check cfg src' state symbol .buy q price stopLossPrice sector').passed = true ↔
      (checkSectorConcentration cfg state q price sector').violation = none := by
  rw [passed_buy_iff] at h ⊢
  tauto

/-- A returns source without any data. -/
def noReturns : ReturnsSource := ⟨fun _ _ => none, fun _ => [], fun _ _ => none⟩

/-- A portfolio of ten million won in cash. -/
def tenMillion : PortfolioState := { totalValue := 10000000, cash := 10000000 }

/-- With ten million won, no holdings and the default limits, the position cap of one million won
lets 14 shares at 70,000 won through and no 15th. -/
theorem check_exact_default_limits :
    (checkBuy {} noReturns tenMillion "005930" 70000 (some 67900) "기타" 14).passed = true ∧
    ¬ (checkBuy {} noReturns tenMillion "005930" 70000 (some 67900) "기타" 15).passed = true := by
  have h := check_exact {} noReturns tenMillion "005930" 70000 (some 67900) "기타" (by decide +kernel)
    (by decide +kernel)
  have hmax : (checkBuy {} noReturns tenMillion "005930" 70000 (some 67900) "기타" 14).maxAllowedQuantity = 14 := by
    decide +kernel
  have hmax' := (h.1 15 14).trans hmax
  exact ⟨(h.2.1 14 (by decide)).2 hmax.ge, fun hp => absurd ((h.2.1 15 (by decide)).1 hp)
    (by rw [hmax']; decide)⟩

end AlgoRiskManager

end TradingAgent
