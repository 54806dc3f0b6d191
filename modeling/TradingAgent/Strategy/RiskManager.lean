/-
The algorithmic risk manager: eight rules over a portfolio state, each with a violation test and,
for some, the largest quantity it allows. `check` runs all of them for a BUY, collects violations
and warnings, and cuts the requested quantity down to the smallest cap.
-/
import TradingAgent.Core.Models
import TradingAgent.Lib.Rounding

namespace TradingAgent

/-- Result of a single rule. -/
structure RuleResult where
  violation : Option String := none
  warning : Option String := none
  maxQuantity : Option ℤ := none

/-- Where the correlation rule gets its numbers: the stored closes of a symbol, newest first (`none`
when the query fails), and the two operations of the data frame library on them. -/
structure ReturnsSource where
  recentCloses : String → ℕ → Option (List (ℤ × Decimal))
  pctChange : List Decimal → List (Option ℚ)
  corr : List ℚ → List ℚ → Option ℚ

namespace AlgoRiskManager

def minCorrelationDays : ℕ := 20

def correlationLookback : ℕ := 60

/-! ## Rules 1 to 6 and 8 -/

/-- Rule 1: the risk of one trade against `RISK_PER_TRADE_PCT` of the total value. -/
def checkPositionSizing (cfg : Settings) (state : PortfolioState) (quantity : ℤ) (price : Decimal)
    (stopLossPrice : Option Decimal) : RuleResult :=
  match stopLossPrice with
  | none => { warning := some "손절가 미설정 — 고정비율법 리스크 계산을 건너뜁니다." }
  | some stop =>
    let riskPerShare := |price - stop|
    if riskPerShare = 0 then
      { warning := some "진입가와 손절가가 동일 — 고정비율법 리스크 계산을 건너뜁니다." }
    else
      let maxRisk := state.totalValue * cfg.riskPerTradePct / 100
      let riskAmount := quantity * riskPerShare
      let maxQty := Rounding.trunc (maxRisk / riskPerShare)
      if riskAmount > maxRisk then
        { violation := some "RISK_PER_TRADE", maxQuantity := some maxQty }
      else { maxQuantity := some maxQty }

/-- The market value already held in a symbol. -/
def existingValue (state : PortfolioState) (symbol : String) : Decimal :=
  ((state.positions.filter (fun p => p.symbol = symbol)).map (fun p => p.marketValue)).sum

/-- Rule 2: the weight of a single symbol against `MAX_POSITION_PCT` and the hard cap. -/
def checkMaxPosition (cfg : Settings) (state : PortfolioState) (symbol : String) (quantity : ℤ)
    (price : Decimal) : RuleResult :=
  let existing := existingValue state symbol
  let newTotal := existing + quantity * price
  let pctLimit := state.totalValue * cfg.maxPositionPct / 100
  let hardCap : Decimal := cfg.maxPositionSizeKrw
  let effectiveLimit := min pctLimit hardCap
  let remaining := effectiveLimit - existing
  let maxQty := if remaining ≤ 0 then 0 else Rounding.trunc (remaining / price)
  if newTotal > effectiveLimit then { violation := some "MAX_POSITION", maxQuantity := some maxQty }
  else { maxQuantity := some maxQty }

/-- The held symbols, each once. -/
def heldSymbols (state : PortfolioState) : List String := (state.positions.map (·.symbol)).dedup

/-- Rule 3: the number of held symbols; adding to a held symbol is always allowed. -/
def checkMaxHoldings (cfg : Settings) (state : PortfolioState) (symbol : String) : RuleResult :=
  if symbol ∈ heldSymbols state then {}
  else if (heldSymbols state).length ≥ cfg.maxPortfolioPositions then
    { violation := some "MAX_HOLDINGS", maxQuantity := some 0 }
  else {}

/-- Rule 4: the weight of the symbol's sector against `SECTOR_CONCENTRATION_PCT`. -/
def checkSectorConcentration (cfg : Settings) (state : PortfolioState) (quantity : ℤ)
    (price : Decimal) (sector : String) : RuleResult :=
  let currentPct := (state.sectorAllocations.get? sector).getD 0
  let additionalPct := quantity * price / state.totalValue * 100
  let newPct := currentPct + additionalPct
  let limit := cfg.sectorConcentrationPct
  let allowedPct := limit - currentPct
  let maxQty := if allowedPct ≤ 0 then 0
    else Rounding.trunc (allowedPct / 100 * state.totalValue / price)
  if newPct > limit then { violation := some "SECTOR_CONCENTRATION", maxQuantity := some maxQty }
  else { maxQuantity := some maxQty }

/-- Rule 5: the drawdown of the portfolio. -/
def checkMaxDrawdown (cfg : Settings) (state : PortfolioState) : RuleResult :=
  if state.drawdownPct ≥ cfg.maxDrawdownPct then
    { violation := some "MAX_DRAWDOWN", maxQuantity := some 0 }
  else {}

/-- Rule 6: the loss of the day, in percent and in won. -/
def checkDailyLossLimit (cfg : Settings) (state : PortfolioState) : RuleResult :=
  let violations :=
    (if state.dailyPnlPct < -cfg.dailyLossLimitPct then ["DAILY_LOSS_PCT"] else []) ++
    (if state.dailyPnl < -(cfg.dailyLossLimitKrw : Decimal) then ["DAILY_LOSS_KRW"] else [])
  if violations ≠ [] then { violation := some "DAILY_LOSS_LIMIT", maxQuantity := some 0 } else {}

/-- Rule 8: the number of trades of the day. -/
def checkDailyTrades (cfg : Settings) (state : PortfolioState) : RuleResult :=
  if state.dailyTradeCount ≥ cfg.maxDailyTrades then
    { violation := some "MAX_DAILY_TRADES", maxQuantity := some 0 }
  else {}

/-! ## Rule 7: correlation -/

/-- The daily returns of a symbol, oldest first, by date. -/
def getDailyReturns (src : ReturnsSource) (symbol : String) : Option (List (ℤ × ℚ)) :=
  match src.recentCloses symbol (correlationLookback + 1) with
  | none => none
  | some rows =>
    if rows.length < 2 then none
    else
      let rows := rows.reverse
      some (((rows.map Prod.fst).zip (src.pctChange (rows.map Prod.snd))).filterMap
        (fun e => e.2.map (fun r => (e.1, r))))

/-- The correlation of two return series over their common dates, if there are enough of them. -/
def pearsonCorrelation (src : ReturnsSource) (s1 s2 : List (ℤ × ℚ)) : Option ℚ :=
  let common := (s1.map Prod.fst).filter (fun d => d ∈ s2.map Prod.fst)
  if common.length < minCorrelationDays then none
  else src.corr (common.filterMap (fun d => List.lookup d s1)) (common.filterMap (fun d => List.lookup d s2))

/-- A number with two decimals, rounded half to even. -/
def fixed2 (x : ℚ) : String :=
  let scaled := |x| * 100
  let floor := ⌊scaled⌋.toNat
  let rest := scaled - floor
  let n := if rest > 1 / 2 ∨ (rest = 1 / 2 ∧ floor % 2 = 1) then floor + 1 else floor
  let cents := n % 100
  (if x < 0 then "-" else "") ++ toString (n / 100) ++ "." ++ (if cents < 10 then "0" else "") ++
    toString cents

/-- Rule 7: correlation with the held symbols. It only ever warns. The order in which the source
visits the held symbols is that of a set. -/
def checkCorrelation (cfg : Settings) (src : ReturnsSource) (state : PortfolioState)
    (symbol : String) : RuleResult :=
  if state.positions = [] then {}
  else
    let holdingSymbols := (heldSymbols state).filter (· ≠ symbol)
    if holdingSymbols = [] then {}
    else
      let candidate := getDailyReturns src symbol
      let n := (candidate.getD []).length
      if n < minCorrelationDays then
        { warning := some (symbol ++ " OHLCV 데이터 부족 (" ++ toString n ++ "일) — 상관계수 미산출.") }
      else
        let highCorrPairs := holdingSymbols.filterMap (fun h =>
          match getDailyReturns src h with
          | none => none
          | some hReturns =>
            if hReturns.length < minCorrelationDays then none
            else match pearsonCorrelation src (candidate.getD []) hReturns with
              | none => none
              | some corr =>
                if corr ≥ cfg.correlationThreshold then some (h ++ "(" ++ fixed2 corr ++ ")") else none)
        if highCorrPairs ≠ [] then
          { warning := some ("높은 상관관계 종목: " ++ String.intercalate ", " highCorrPairs ++ ".") }
        else {}

/-! ## The check -/

/-- The results of the eight rules, in the order they run. -/
def ruleResults (cfg : Settings) (src : ReturnsSource) (state : PortfolioState) (symbol : String)
    (quantity : ℤ) (price : Decimal) (stopLossPrice : Option Decimal) (sector : String) :
    List RuleResult :=
  [checkPositionSizing cfg state quantity price stopLossPrice,
   checkMaxPosition cfg state symbol quantity price,
   checkMaxHoldings cfg state symbol,
   checkSectorConcentration cfg state quantity price sector,
   checkMaxDrawdown cfg state,
   checkDailyLossLimit cfg state,
   checkCorrelation cfg src state symbol,
   checkDailyTrades cfg state]

/-- The result in one sentence or more. -/
def buildReasoning (passed : Bool) (violations warnings : List String)
    (originalQty adjustedQty : ℤ) : String :=
  let parts :=
    (if passed then ["모든 리스크 규칙을 통과했습니다."]
      else ["위반 규칙: " ++ String.intercalate ", " violations ++ "."]) ++
    (if warnings ≠ [] then ["경고: " ++ String.intercalate "; " warnings ++ "."] else []) ++
    (if adjustedQty ≠ originalQty then
      ["수량 조정: " ++ toString originalQty ++ "주 → " ++ toString adjustedQty ++ "주."] else [])
  String.intercalate " " parts

/-- What the results of the rules say about a requested quantity. -/
def summarize (results : List RuleResult) (symbol : String) (quantity : ℤ) (price : Decimal) :
    RiskCheckResult :=
  let violations := results.filterMap (·.violation)
  let warnings := results.filterMap (·.warning)
  let qtyCaps := results.filterMap (·.maxQuantity)
  let hasBlock := results.any (fun r => r.violation.isSome && r.maxQuantity == some 0)
  let adjustedQuantity := if hasBlock then 0
    else match qtyCaps.min? with
      | some m => max 0 (min quantity m)
      | none => quantity
  let maxAllowedQuantity := max 0 (qtyCaps.min?.getD quantity)
  let passed := violations.isEmpty
  { passed, symbol, violations, warnings, adjustedQuantity, maxAllowedQuantity
    adjustedAmountKrw := adjustedQuantity * price
    reasoning := buildReasoning passed violations warnings quantity adjustedQuantity }

/-- Run the eight rules on a requested trade. A SELL or HOLD always passes. -/
def check (cfg : Settings) (src : ReturnsSource) (state : PortfolioState) (symbol : String)
    (action : SignalAction) (quantity : ℤ) (price : Decimal) (stopLossPrice : Option Decimal)
    (sector : String) : RiskCheckResult :=
  match action with
  | .sell | .hold =>
    { passed := true, symbol, violations := [], warnings := []
      adjustedQuantity := quantity, adjustedAmountKrw := quantity * price
      maxAllowedQuantity := quantity
      reasoning := "SELL/HOLD 액션은 리스크 체크를 면제합니다." }
  | .buy =>
    if price ≤ 0 then
      { passed := false, symbol, violations := ["INVALID_PRICE"], warnings := []
        adjustedQuantity := 0, adjustedAmountKrw := 0, maxAllowedQuantity := 0
        reasoning := "유효하지 않은 가격입니다 (price ≤ 0)." }
    else if state.totalValue ≤ 0 then
      { passed := false, symbol, violations := ["ZERO_PORTFOLIO"]
        warnings := ["총자산이 0이어서 비율 기반 리스크 규칙을 적용할 수 없습니다."]
        adjustedQuantity := 0, adjustedAmountKrw := 0, maxAllowedQuantity := 0
        reasoning := "총자산이 0원이므로 신규 매수가 불가합니다." }
    else
      summarize (ruleResults cfg src state symbol quantity price stopLossPrice sector)
        symbol quantity price

end AlgoRiskManager

end TradingAgent
