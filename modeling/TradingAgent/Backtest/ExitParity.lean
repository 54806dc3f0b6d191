/-
Live and simulated exits of one and the same entry. A position that the executor has entered carries no
trailing stop and no holding limit, so the live job closes it at its stop or its target only, as the table has
them with two decimals. The backtest closes it on the same day for the same reason exactly if neither its
trailing stop nor its holding limit comes in before that and no close lies between a price and its rounding.
-/
import TradingAgent.Lib.Watch
import TradingAgent.Scheduler.StopLoss
import TradingAgent.Backtest.Frame

namespace TradingAgent

open Wp

namespace ExitParity

/-! ## The checks -/

/-- The live check of a day and its close, with the reason in its stored spelling. -/
def liveCheck (row : PositionRecord) : Unit → ℤ × Decimal → Except Exn (Unit × Option String) := fun _ x =>
  .ok ((), (StopLossJob.checkConditions x.1 row x.2).map (·.reason.value))

/-- The check of the backtest, which carries the highest close since the entry. -/
def backtestCheck (config : BacktestConfig) (pos : PositionRecord) :
    Decimal → ℤ × Decimal → Except Exn (Decimal × Option String) := fun highest x =>
  if pos.entryPrice = 0 then .error .divisionByZero
  else do
    let signal ← BacktestEngine.exitSignal config pos x.2 ((x.2 - pos.entryPrice) / pos.entryPrice * 100)
      (max highest x.2) x.1
    pure (max highest x.2, signal.map (·.reason.value))

/-- The two positions have the same stop and target, rounded in the live one, and that has no further limits. -/
structure SameTerms (row pos : PositionRecord) : Prop where
  stop : row.stopLossPrice = quantize2 pos.stopLossPrice
  target : row.takeProfitPrice = pos.takeProfitPrice.map quantize2
  noTrailing : row.trailingStopPct = none
  noLimit : row.maxHoldingDays = none

/-- The close is at or under the stop. -/
def AtStop (pos : PositionRecord) (close : Decimal) : Prop := close ≤ pos.stopLossPrice

/-- The close is at or over the target. -/
def AtTarget (pos : PositionRecord) (close : Decimal) : Prop :=
  ∃ target, pos.takeProfitPrice = some target ∧ target ≤ close

/-- The close is on the same side of the stop when that is rounded to two decimals and, where it is over the stop,
on the same side of the target. -/
structure SameSides (pos : PositionRecord) (close : Decimal) : Prop where
  stop : close ≤ quantize2 pos.stopLossPrice ↔ close ≤ pos.stopLossPrice
  target : pos.stopLossPrice < close → ∀ target, pos.takeProfitPrice = some target →
    (quantize2 target ≤ close ↔ target ≤ close)

/-- The trailing stop, where there is one, is not active yet, or the close is over it. -/
def OverTrailing (pos : PositionRecord) (highest close : Decimal) : Prop :=
  ∀ pct, pos.trailingStopPct = some pct → (close - pos.entryPrice) / pos.entryPrice * 100 < pct ∨
    (0 < highest ∧ 0 < pct ∧ highest * (1 - pct / 100) < close)

/-- The holding limit, where there is one, has not come. -/
def WithinLimit (pos : PositionRecord) (day : ℤ) : Prop :=
  ∀ days, pos.maxHoldingDays = some days → day - pos.entryDate < days

/-- Until the close first gets to the stop or the target, rounding these makes no difference and the other limits
of the position do not come in. On a day at the stop they do not count, on a day at the target only the trailing
stop does. -/
def Unhindered (pos : PositionRecord) : Decimal → List (ℤ × Decimal) → Prop
  | _, [] => True
  | highest, (day, close) :: series => pos.entryPrice ≠ 0 ∧ SameSides pos close ∧
    (AtStop pos close ∨ OverTrailing pos (max highest close) close ∧
      (AtTarget pos close ∨ WithinLimit pos day ∧ Unhindered pos (max highest close) series))

variable (config : BacktestConfig) {row pos : PositionRecord}

/-- The trailing stop is silent over its price; under it, it reports or raises. -/
theorem trailingSignal_cases (pos : PositionRecord) (close highest : Decimal) :
    let pnlPct := (close - pos.entryPrice) / pos.entryPrice * 100
    OverTrailing pos highest close ∧ BacktestEngine.trailingSignal pos close pnlPct highest = .ok none ∨
    ¬ OverTrailing pos highest close ∧
      ((∃ e, BacktestEngine.trailingSignal pos close pnlPct highest = .error e) ∨
        ∃ s, BacktestEngine.trailingSignal pos close pnlPct highest = .ok (some s) ∧ s.reason = .trailingStop) := by
  intro pnlPct
  unfold OverTrailing BacktestEngine.trailingSignal
  cases hpct : pos.trailingStopPct with
  | none => exact .inl ⟨nofun, rfl⟩
  | some pct =>
    simp only [Option.some.injEq, forall_eq']
    by_cases hactive : pnlPct < pct
    · exact .inl ⟨.inl hactive, if_neg (not_le.2 hactive)⟩
    rw [if_pos (not_lt.1 hactive)]
    unfold ExitPriceCalculator.trailingStopPrice
    by_cases hhigh : highest ≤ 0
    · refine .inr ⟨?_, .inl ⟨_, by rw [if_pos hhigh]; rfl⟩⟩
      rintro (h | ⟨h, -, -⟩)
      · exact hactive h
      · exact absurd h (not_lt.2 hhigh)
    by_cases hpos : pct ≤ 0
    · refine .inr ⟨?_, .inl ⟨_, by rw [if_neg hhigh, if_pos hpos]; rfl⟩⟩
      rintro (h | ⟨-, h, -⟩)
      · exact hactive h
      · exact absurd h (not_lt.2 hpos)
    rw [if_neg hhigh, if_neg hpos]
    unfold ExitConditionChecker.checkTrailingStop
    by_cases hle : close ≤ highest * (1 - pct / 100)
    · refine .inr ⟨?_, .inr ⟨_, by simp only [bind, Except.bind, if_pos hle]; rfl, rfl⟩⟩
      rintro (h | ⟨-, -, h⟩)
      · exact hactive h
      · exact absurd hle (not_le.2 h)
    · refine .inl ⟨.inr ⟨not_le.1 hhigh, not_le.1 hpos, not_le.1 hle⟩, ?_⟩
      simp only [bind, Except.bind, if_neg hle]
      rfl

theorem checkTakeProfit_reason {close pnlPct : Decimal} :
    (AtTarget pos close ∧
      ∃ s, ExitConditionChecker.checkTakeProfit pos close pnlPct = some s ∧ s.reason = .takeProfit) ∨
      ¬ AtTarget pos close ∧ ExitConditionChecker.checkTakeProfit pos close pnlPct = none := by
  unfold AtTarget ExitConditionChecker.checkTakeProfit
  cases pos.takeProfitPrice with
  | none => exact .inr ⟨nofun, rfl⟩
  | some target =>
    by_cases hle : target ≤ close
    · exact .inl ⟨⟨target, rfl, hle⟩, _, if_pos hle, rfl⟩
    · refine .inr ⟨?_, if_neg hle⟩
      rintro ⟨_, ⟨⟩, h⟩
      exact hle h

theorem checkTimeBased_reason {close pnlPct : Decimal} {day : ℤ} {urgency : String} :
    (WithinLimit pos day ∧ ExitConditionChecker.checkTimeBased pos close pnlPct day urgency = none) ∨
      ¬ WithinLimit pos day ∧
        ∃ s, ExitConditionChecker.checkTimeBased pos close pnlPct day urgency = some s ∧ s.reason = .timeBased := by
  unfold WithinLimit ExitConditionChecker.checkTimeBased
  cases pos.maxHoldingDays with
  | none => exact .inl ⟨nofun, rfl⟩
  | some days =>
    by_cases hle : day - pos.entryDate ≥ days
    · exact .inr ⟨fun h => absurd hle (not_le.2 (h days rfl)), _, if_pos hle, rfl⟩
    · refine .inl ⟨?_, if_neg hle⟩
      rintro _ ⟨⟩
      exact not_le.1 hle

/-! ## Reports -/

theorem backtestCheck_atStop {highest close : Decimal} {day : ℤ} (hentry : pos.entryPrice ≠ 0) (h : AtStop pos close) :
    backtestCheck config pos highest (day, close) = .ok (max highest close, some "stop_loss") := by
  have hsome : ∀ pnlPct, ∃ s, ExitConditionChecker.checkStopLoss pos close pnlPct = some s ∧ s.reason = .stopLoss :=
    fun pnlPct => ⟨_, if_pos h, rfl⟩
  obtain ⟨s, hs, hreason⟩ := hsome ((close - pos.entryPrice) / pos.entryPrice * 100)
  unfold backtestCheck BacktestEngine.exitSignal
  rw [if_neg hentry, hs]
  simp only [bind, Except.bind, pure, Except.pure, Option.map_some, hreason]
  rfl

/-- How soon the time based exit of a backtest is to be carried out. -/
def urgencyOf (config : BacktestConfig) : String := match config.strategyType with
  | .position => "next_session"
  | .swing => "end_of_day"

/-- On a day that is not at the stop, the trailing stop comes first, then the target, then the holding limit. -/
theorem backtestCheck_of_not_atStop (highest : Decimal) (day : ℤ) {close : Decimal} (hentry : pos.entryPrice ≠ 0)
    (hstop : ¬ AtStop pos close) :
    ∃ pnlPct urgency, pnlPct = (close - pos.entryPrice) / pos.entryPrice * 100 ∧
      backtestCheck config pos highest (day, close) =
        (BacktestEngine.trailingSignal pos close pnlPct (max highest close)).bind fun trailing =>
          .ok (max highest close, (trailing.or ((ExitConditionChecker.checkTakeProfit pos close pnlPct).or
            (ExitConditionChecker.checkTimeBased pos close pnlPct day urgency))).map (·.reason.value)) := by
  refine ⟨_, urgencyOf config, rfl, ?_⟩
  have hno : ExitConditionChecker.checkStopLoss pos close ((close - pos.entryPrice) / pos.entryPrice * 100) = none :=
    if_neg hstop
  unfold backtestCheck BacktestEngine.exitSignal
  rw [if_neg hentry, hno]
  dsimp only [bind, Except.bind]
  cases BacktestEngine.trailingSignal pos close ((close - pos.entryPrice) / pos.entryPrice * 100)
    (max highest close) with
  | error e => rfl
  | ok trailing =>
    cases trailing with
    | some s => rfl
    | none =>
      cases ExitConditionChecker.checkTakeProfit pos close ((close - pos.entryPrice) / pos.entryPrice * 100) with
      | none => rfl
      | some s => rfl

/-- Between stop and trailing stop the backtest looks at the target and at the holding limit. -/
theorem backtestCheck_over {highest close : Decimal} (day : ℤ) (hentry : pos.entryPrice ≠ 0)
    (hstop : ¬ AtStop pos close)
    (hover : OverTrailing pos (max highest close) close) :
    ∃ report, backtestCheck config pos highest (day, close) = .ok (max highest close, report) ∧
      (AtTarget pos close → report = some "take_profit") ∧
      (¬ AtTarget pos close → ¬ WithinLimit pos day → report = some "time_based") ∧
      (¬ AtTarget pos close → WithinLimit pos day → report = none) := by
  obtain ⟨pnlPct, urgency, rfl, hcheck⟩ := backtestCheck_of_not_atStop config highest day hentry hstop
  rcases trailingSignal_cases pos close (max highest close) with ⟨-, hsilent⟩ | ⟨hnot, -⟩
  · rw [hcheck, hsilent]
    refine ⟨_, rfl, fun htarget => ?_, fun htarget hlimit => ?_, fun htarget hlimit => ?_⟩
    · rcases checkTakeProfit_reason with ⟨-, s, hs, hreason⟩ | ⟨hnot, -⟩
      · rw [Option.none_or, hs, Option.some_or, Option.map_some, hreason]
        rfl
      · exact absurd htarget hnot
    · rcases checkTakeProfit_reason with ⟨hat, -⟩ | ⟨-, hnone⟩
      · exact absurd hat htarget
      · rcases checkTimeBased_reason with ⟨hin, -⟩ | ⟨-, s, hs, hreason⟩
        · exact absurd hin hlimit
        · rw [Option.none_or, hnone, Option.none_or, hs, Option.map_some, hreason]
          rfl
    · rcases checkTakeProfit_reason with ⟨hat, -⟩ | ⟨-, hnone⟩
      · exact absurd hat htarget
      · rcases checkTimeBased_reason with ⟨-, hs⟩ | ⟨hout, -⟩
        · rw [Option.none_or, hnone, Option.none_or, hs, Option.map_none]
        · exact absurd hlimit hout
  · exact absurd hover hnot

/-- Under the trailing stop the backtest raises, or reports it. -/
theorem backtestCheck_under {highest close : Decimal} (day : ℤ) (hentry : pos.entryPrice ≠ 0)
    (hstop : ¬ AtStop pos close)
    (hunder : ¬ OverTrailing pos (max highest close) close) :
    (∃ e, backtestCheck config pos highest (day, close) = .error e) ∨
      backtestCheck config pos highest (day, close) = .ok (max highest close, some "trailing_stop") := by
  obtain ⟨pnlPct, urgency, rfl, hcheck⟩ := backtestCheck_of_not_atStop config highest day hentry hstop
  rw [hcheck]
  rcases trailingSignal_cases pos close (max highest close) with ⟨hover, -⟩ | ⟨-, ⟨e, he⟩ | ⟨s, hs, hreason⟩⟩
  · exact absurd hover hunder
  · exact .inl ⟨e, by rw [he]; rfl⟩
  · refine .inr ?_
    rw [hs]
    show Except.ok _ = _
    rw [Option.some_or, Option.map_some, hreason]
    rfl

/-- Over the stop the backtest does not report the stop. -/
theorem backtestCheck_of_over_stop (highest : Decimal) (day : ℤ) {close : Decimal} (hentry : pos.entryPrice ≠ 0)
    (hstop : ¬ AtStop pos close) :
    (∃ e, backtestCheck config pos highest (day, close) = .error e) ∨
      ∃ s report, backtestCheck config pos highest (day, close) = .ok (s, report) ∧ report ≠ some "stop_loss" := by
  by_cases hover : OverTrailing pos (max highest close) close
  · obtain ⟨report, hreport, hprofit, htime, hnone⟩ := backtestCheck_over config day hentry hstop hover
    refine .inr ⟨_, report, hreport, ?_⟩
    by_cases htarget : AtTarget pos close
    · rw [hprofit htarget]
      decide
    · by_cases hlimit : WithinLimit pos day
      · rw [hnone htarget hlimit]
        exact nofun
      · rw [htime htarget hlimit]
        decide
  · rcases backtestCheck_under config day hentry hstop hover with he | hunder
    · exact .inl he
    · exact .inr ⟨_, _, hunder, by decide⟩

/-- What the live job reports for a position without further limits. -/
theorem liveCheck_of_noLimits (htrailing : row.trailingStopPct = none) (hlimit : row.maxHoldingDays = none) (day : ℤ)
    (close : Decimal) :
    (AtStop row close → liveCheck row () (day, close) = .ok ((), some "stop_loss")) ∧
    (¬ AtStop row close → AtTarget row close → liveCheck row () (day, close) = .ok ((), some "take_profit")) ∧
    (¬ AtStop row close → ¬ AtTarget row close → liveCheck row () (day, close) = .ok ((), none)) := by
  unfold liveCheck StopLossJob.checkConditions ExitConditionChecker.checkStopLoss ExitConditionChecker.checkTakeProfit
    ExitConditionChecker.checkTimeBased AtStop AtTarget
  rw [htrailing, hlimit]
  refine ⟨fun hstop => ?_, fun hstop htarget => ?_, fun hstop htarget => ?_⟩
  · simp [hstop, ExitReason.value]
  · obtain ⟨target, heq, hle⟩ := htarget
    simp [hstop, heq, hle, ExitReason.value]
  · cases heq : row.takeProfitPrice with
    | none => simp [hstop]
    | some target =>
      have hlt : ¬ target ≤ close := fun hle => htarget ⟨target, heq, hle⟩
      simp [hstop, hlt]

theorem SameTerms.sameSides_iff (h : SameTerms row pos) {close : Decimal} : SameSides pos close ↔
    (AtStop row close ↔ AtStop pos close) ∧ (¬ AtStop pos close → (AtTarget row close ↔ AtTarget pos close)) := by
  unfold AtStop AtTarget
  rw [h.stop, h.target]
  constructor
  · intro hsides
    refine ⟨hsides.stop, fun hover => ?_⟩
    cases htarget : pos.takeProfitPrice with
    | none => exact iff_of_false nofun nofun
    | some target => simpa using hsides.target (not_le.1 hover) target htarget
  · rintro ⟨hstop, htarget⟩
    refine ⟨hstop, fun hover target heq => ?_⟩
    simpa [heq] using htarget (not_le.2 hover)

/-- The live check raises nothing. -/
theorem liveCheck_ne_error (row : PositionRecord) (s : Unit) (x : ℤ × Decimal) (e : Exn) :
    liveCheck row s x ≠ .error e := by
  unfold liveCheck
  exact nofun

theorem not_endAlike_error {R : Unit → Decimal → Prop} {x : ℤ × Decimal} {step : Except Exn (Decimal × Option String)}
    {e : Exn} (h : step = .error e) : ¬ Watch.EndAlike R (liveCheck row () x) step := by
  rw [h]
  unfold liveCheck
  cases (StopLossJob.checkConditions x.1 row x.2).map (·.reason.value) <;> exact id

/-- A live check that is not at the stop does not end as a check at the stop does. -/
theorem not_endAlike_stop {R : Unit → Decimal → Prop} {day : ℤ} {close highest : Decimal}
    (htrailing : row.trailingStopPct = none) (hlimit : row.maxHoldingDays = none) (hlive : ¬ AtStop row close) :
    ¬ Watch.EndAlike R (liveCheck row () (day, close)) (.ok (highest, some "stop_loss")) := by
  obtain ⟨-, hprofitLive, hnoneLive⟩ := liveCheck_of_noLimits htrailing hlimit day close
  by_cases htarget : AtTarget row close
  · rw [hprofitLive hlive htarget]
    show "take_profit" ≠ "stop_loss"
    decide
  · rw [hnoneLive hlive htarget]
    exact id

/-- The checks of live job and backtest agree along a series exactly if it is unhindered. -/
theorem agree_iff (h : SameTerms row pos) : ∀ (series : List (ℤ × Decimal)) (highest : Decimal),
    Watch.Agree (liveCheck row) (backtestCheck config pos) series () highest ↔ Unhindered pos highest series
  | [], _ => Iff.rfl
  | (day, close) :: series, highest => by
    obtain ⟨hlossLive, hprofitLive, hnoneLive⟩ := liveCheck_of_noLimits h.noTrailing h.noLimit day close
    unfold Watch.Agree Unhindered
    rw [h.sameSides_iff]
    by_cases hentry : pos.entryPrice = 0
    · have hraise : backtestCheck config pos highest (day, close) = .error .divisionByZero := if_pos hentry
      rw [hraise]
      exact iff_of_false (not_endAlike_error rfl) fun hno => hno.1 hentry
    by_cases hstop : AtStop pos close
    · rw [backtestCheck_atStop config hentry hstop]
      by_cases hlive : AtStop row close
      · rw [hlossLive hlive]
        exact iff_of_true rfl ⟨hentry, ⟨iff_of_true hlive hstop, fun hno => absurd hstop hno⟩, .inl hstop⟩
      · exact iff_of_false (not_endAlike_stop h.noTrailing h.noLimit hlive) fun hall => hlive (hall.2.1.1.2 hstop)
    by_cases hlive : AtStop row close
    · -- the rounded stop is at the close or over it, the stop itself is not
      refine iff_of_false ?_ fun hall => hstop (hall.2.1.1.1 hlive)
      rcases backtestCheck_of_over_stop config highest day hentry hstop with ⟨e, he⟩ | ⟨s, report, hreport, hne⟩
      · exact not_endAlike_error he
      · rw [hlossLive hlive, hreport]
        cases report with
        | none => exact id
        | some reason => exact fun heq => hne (congrArg some heq.symm)
    by_cases hover : OverTrailing pos (max highest close) close
    · obtain ⟨report, hreport, hprofit, htime, hnone⟩ := backtestCheck_over config day hentry hstop hover
      rw [hreport]
      by_cases htarget : AtTarget pos close
      · rw [hprofit htarget]
        by_cases hliveTarget : AtTarget row close
        · rw [hprofitLive hlive hliveTarget]
          exact iff_of_true rfl ⟨hentry, ⟨iff_of_false hlive hstop, fun _ => iff_of_true hliveTarget htarget⟩,
            .inr ⟨hover, .inl htarget⟩⟩
        · rw [hnoneLive hlive hliveTarget]
          exact iff_of_false id fun hall => hliveTarget ((hall.2.1.2 hstop).2 htarget)
      by_cases hlimit : WithinLimit pos day
      · rw [hnone htarget hlimit]
        by_cases hliveTarget : AtTarget row close
        · rw [hprofitLive hlive hliveTarget]
          exact iff_of_false id fun hall => htarget ((hall.2.1.2 hstop).1 hliveTarget)
        · rw [hnoneLive hlive hliveTarget]
          show Watch.Agree (liveCheck row) (backtestCheck config pos) series () (max highest close) ↔ _
          rw [agree_iff h series (max highest close)]
          refine ⟨fun hrest => ⟨hentry, ⟨iff_of_false hlive hstop, fun _ => iff_of_false hliveTarget htarget⟩,
            .inr ⟨hover, .inr ⟨hlimit, hrest⟩⟩⟩, fun hall => ?_⟩
          rcases hall.2.2 with hat | ⟨-, hat | hrest⟩
          · exact absurd hat hstop
          · exact absurd hat htarget
          · exact hrest.2
      · rw [htime htarget hlimit]
        refine iff_of_false ?_ ?_
        · by_cases hliveTarget : AtTarget row close
          · rw [hprofitLive hlive hliveTarget]
            show "take_profit" ≠ "time_based"
            decide
          · rw [hnoneLive hlive hliveTarget]
            exact id
        · rintro ⟨-, -, hat | ⟨-, hat | ⟨hin, -⟩⟩⟩
          · exact hstop hat
          · exact htarget hat
          · exact hlimit hin
    · have hno : ¬ (pos.entryPrice ≠ 0 ∧ ((AtStop row close ↔ AtStop pos close) ∧
          (¬ AtStop pos close → (AtTarget row close ↔ AtTarget pos close))) ∧
          (AtStop pos close ∨ OverTrailing pos (max highest close) close ∧
          (AtTarget pos close ∨ WithinLimit pos day ∧ Unhindered pos (max highest close) series))) := by
        rintro ⟨-, -, hat | ⟨hin, -⟩⟩
        · exact hstop hat
        · exact hover hin
      rcases backtestCheck_under config day hentry hstop hover with ⟨e, he⟩ | hunder
      · rw [he]
        exact iff_of_false (not_endAlike_error rfl) hno
      · rw [hunder]
        by_cases htarget : AtTarget row close
        · rw [hprofitLive hlive htarget]
          exact iff_of_false (by show "take_profit" ≠ "trailing_stop"; decide) hno
        · rw [hnoneLive hlive htarget]
          exact iff_of_false id hno

/-! ## The backtest -/

section Backtest

open BacktestEngine

variable (B : Bench)

/-- The start of a day and its exits. -/
def backtestDay (tradingDate : ℤ) : BacktestEngine.M PUnit := do
  startDay B tradingDate
  checkExits B config tradingDate

/-- The stored reason of the last closed position, once the symbol is not held any more. -/
def closedReason (symbol : String) (w : Backtest) : Option String :=
  if w.engine.positions.contains symbol then none else w.engine.closedPositions.getLast?.bind (·.exitReason)

/-- A day of the backtest, and the reason for which it closes the position. -/
def backtestStep (symbol : String) (w : Backtest) (x : ℤ × Decimal) : Except Exn (Backtest × Option String) :=
  match backtestDay config B x.1 w with
  | .ok _ w' => .ok (w', closedReason symbol w')
  | .error e _ => .error e

/-- The engine holds this position alone, and the broker its shares. -/
structure HeldAlone (symbol : String) (pos : PositionRecord) (w : Backtest) (highest : Decimal) : Prop where
  alone : w.engine.positions.items = [(symbol, pos)]
  highest : w.engine.highestPrices.get? symbol = some highest
  quantity_pos : 0 < pos.quantity
  shares : ∃ p, w.broker.openPosition symbol = some p ∧ pos.quantity ≤ p.quantity

variable {B} {symbol : String} {highest : Decimal} {w : Backtest}

theorem HeldAlone.startDay (h : HeldAlone symbol pos w highest) (tradingDate : ℤ) :
    wp (BacktestEngine.startDay B tradingDate)
      (fun _ w' => HeldAlone symbol pos w' highest ∧ w'.broker.currentDate = some tradingDate)
      (fun _ _ => False) w := by
  obtain ⟨p, hp, hq⟩ := h.shares
  unfold BacktestEngine.startDay SimulatedBroker.setCurrentDate
  rw [wp_bind, wp_modifyEngine, wp_onBroker, wp_modify]
  refine ⟨⟨h.alone, h.highest, h.quantity_pos, ?_⟩, rfl⟩
  refine ⟨SimulatedBroker.revalue B.loader tradingDate symbol p, ?_, ?_⟩
  · rw [SimulatedBroker.openPosition_revalued B.loader rfl symbol, hp]
    rfl
  · rw [(SimulatedBroker.revalue_frame B.loader tradingDate symbol p).2.1]
    exact hq

theorem HeldAlone.get? (h : HeldAlone symbol pos w highest) : w.engine.positions.get? symbol = some pos := by
  rw [← Dict.mem_items_iff, h.alone]
  exact List.mem_singleton_self _

theorem HeldAlone.closedReason_eq_none (h : HeldAlone symbol pos w highest) : closedReason symbol w = none := by
  unfold closedReason Dict.contains
  rw [h.get?]
  rfl

/-- The broker sells the shares at the close. -/
theorem placeOrder_sells {b : SimulatedBroker} {d : ℤ} (hdate : b.currentDate = some d) {order : OrderRequest}
    (hside : order.side = .sell) (htype : order.orderType = .limit) (hprice : order.price ≠ none) {p : Position}
    (hshares : b.openPosition order.symbol = some p) (hq : order.quantity ≤ p.quantity) :
    wp (SimulatedBroker.placeOrder B.loader B.brokerConfig order) (fun _ _ => True) (fun _ _ => False) b := by
  obtain ⟨price, hprice⟩ := Option.ne_none_iff_exists'.1 hprice
  unfold SimulatedBroker.openPosition at hshares
  unfold SimulatedBroker.placeOrder SimulatedBroker.ensureDateSet SimulatedBroker.getFillPrice
    SimulatedBroker.executeOrder SimulatedBroker.executeSell
  simp only [wp_bind, wp_get, hdate, wp_pure, htype, hprice, hside, hshares, wp_ite, wp_throw, wp_modify]
  rw [if_neg (not_lt.2 hq)]
  trivial

/-- The exit of the position goes through. -/
theorem HeldAlone.executeExit (h : HeldAlone symbol pos w highest) {tradingDate d : ℤ} {close : Decimal}
    (hdate : w.broker.currentDate = some d) (hclose : B.loader.getClosePrice symbol tradingDate = some close)
    (reason : ExitReason) :
    wp (BacktestEngine.executeExit B symbol tradingDate reason.value)
      (fun _ w' => closedReason symbol w' = some reason.value) (fun _ _ => False) w := by
  obtain ⟨p, hp, hq⟩ := h.shares
  unfold BacktestEngine.executeExit
  rw [wp_bind, wp_get, h.get?, hclose]
  dsimp only
  cases hmake : OrderRequest.make? symbol .sell .limit pos.quantity (some close) ("backtest_exit_" ++ reason.value) with
  | none =>
    unfold OrderRequest.make? at hmake
    rw [dif_pos h.quantity_pos] at hmake
    cases hmake
  | some order =>
    obtain ⟨hsymbol, hside, htype, hquantity, hprice⟩ := make?_eq_some hmake
    dsimp only
    rw [wp_bind, wp_onBroker]
    refine wp_mono (placeOrder_sells hdate hside htype (by rw [hprice]; nofun) (hsymbol ▸ hp) (hquantity ▸ hq))
      (fun r b' _ => ?_) fun _ _ hno => hno
    rw [wp_bind, wp_modifyEngine, (ExitReason.ofValue?_eq_some_iff _ reason).2 rfl]
    dsimp only
    rw [wp_modifyEngine]
    have hgone : (w.engine.positions.erase symbol).contains symbol = false :=
      (Dict.contains_eq_false_iff _ _).2 (Dict.get?_erase_self _ _)
    unfold closedReason
    dsimp only
    rw [if_neg (by rw [hgone]; decide), List.getLast?_concat]
    rfl

/-- On every day the backtest does what its check says. -/
theorem HeldAlone.backtestDay (h : HeldAlone symbol pos w highest) {tradingDate : ℤ} {close : Decimal}
    (hclose : B.loader.getClosePrice symbol tradingDate = some close) :
    wp (ExitParity.backtestDay config B tradingDate)
      (fun _ w' => Watch.EndAlike (HeldAlone symbol pos) (.ok (w', closedReason symbol w'))
        (backtestCheck config pos highest (tradingDate, close)))
      (fun e _ => Watch.EndAlike (HeldAlone symbol pos) (.error e)
        (backtestCheck config pos highest (tradingDate, close))) w := by
  unfold ExitParity.backtestDay
  rw [wp_bind]
  refine wp_mono (h.startDay tradingDate) (fun _ w₁ hw₁ => ?_) fun _ _ hno => hno.elim
  obtain ⟨h₁, hdate⟩ := hw₁
  unfold checkExits
  rw [wp_bind, wp_get, h₁.alone]
  unfold collectExits collectExits checkExit backtestCheck
  rw [hclose]
  dsimp only
  by_cases hentry : pos.entryPrice = 0
  · rw [if_pos hentry, if_pos hentry]
    exact rfl
  rw [if_neg hentry, if_neg hentry]
  simp only [wp_bind, wp_get, wp_modifyEngine, h₁.highest, Option.getD_some]
  have hraised : HeldAlone symbol pos { w₁ with engine := { w₁.engine with
      highestPrices := w₁.engine.highestPrices.set symbol (max highest close) } } (max highest close) :=
    ⟨h₁.alone, Dict.get?_set_self _ _ _, h₁.quantity_pos, h₁.shares⟩
  cases hsignal : exitSignal config pos close ((close - pos.entryPrice) / pos.entryPrice * 100) (max highest close)
      tradingDate with
  | error e => exact rfl
  | ok signal =>
    cases signal with
    | none =>
      show Watch.EndAlike _ (.ok (_, closedReason symbol _)) (.ok (_, none))
      rw [hraised.closedReason_eq_none]
      exact hraised
    | some s =>
      show wp ([(symbol, s.reason.value)].forM fun e => BacktestEngine.executeExit B e.1 tradingDate e.2) _ _ _
      rw [List.forM_eq_forM, List.forM_cons, wp_bind]
      refine wp_mono (hraised.executeExit hdate hclose s.reason) (fun _ w' hw' => ?_) fun _ _ hno => hno.elim
      show Watch.EndAlike _ (.ok (w', closedReason symbol w')) (.ok (_, some s.reason.value))
      rw [hw']
      exact rfl

/-- The backtest of a held position reports what its checks do. -/
theorem HeldAlone.run_eq (h : HeldAlone symbol pos w highest) {series : List (ℤ × Decimal)}
    (hcloses : ∀ x ∈ series, B.loader.getClosePrice symbol x.1 = some x.2) (n : ℕ) :
    Watch.run (backtestStep config B symbol) w series n = Watch.run (backtestCheck config pos) highest series n := by
  refine Watch.run_eq_of_endAlike (fun x hx w' highest' h' => ?_) n h
  have hday := h'.backtestDay config (hcloses x hx)
  unfold backtestStep
  unfold wp at hday
  cases hrun : ExitParity.backtestDay config B x.1 w' with
  | ok a w'' =>
    rw [hrun] at hday
    exact hday
  | error e w'' =>
    rw [hrun] at hday
    exact hday

end Backtest

/-! ## The live job -/

section Live

open OrderExecutor (ExitArgs)

/-- A run of the job on a day, with the close as the price; nothing else happens, and nothing fails. -/
def dayEnv (base : Env) (x : ℤ × Decimal) : JobEnv where
  steps _ := []
  price _ := x.2
  exits _ := { base with steps := fun _ => [], fault := fun _ => none, today := x.1 }
  today := x.1
  str := base.str

/-- The stored reason of a row that is closed. -/
def rowReason (id : ℕ) (w : World) : Option String :=
  (w.positions.get? id).bind fun row => if row.status = "closed" then row.exitReason else none

/-- A day of the live job, and the reason for which it closes the row. -/
def liveStep (base : Env) (accountId : String) (id : ℕ) (w : World) (x : ℤ × Decimal) :
    Except Exn (World × Option String) :=
  match (StopLossJob.jobStopLossCheck (dayEnv base x) accountId).run [] w with
  | .ok _ w' => .ok (w', rowReason id w')
  | .error e _ => .error e

/-- The row is the only open one of the account. -/
structure OpenAlone (base : Env) (accountId : String) (row : PositionRecord) (w : World) (_ : Unit) : Prop where
  held : w.positions.get? row.id = some row
  alone : PositionManager.openRows .inserted accountId w.positions = [row]
  quantity_pos : 0 < row.quantity
  fresh : w.approvals.contains base.requestId = false

/-- Nothing blocks the orders: the web verification lets them pass, and the broker fills them. -/
structure Works (base : Env) : Prop where
  verified : base.verification.result ≠ .blocked
  fills : ∀ r, (base.placeOrder r).status = .filled

variable {base : Env} {accountId : String}

/-- Nothing else happens, and nothing fails. -/
structure Calm (env : Env) : Prop where
  steps : ∀ site, env.steps site = []
  fault : ∀ site, env.fault site = none

theorem calm_exits (x : ℤ × Decimal) (i : ℕ) : Calm ((dayEnv base x).exits i) := ⟨fun _ => rfl, fun _ => rfl⟩

section Calm

variable {env : Env} (hcalm : Calm env)
include hcalm

theorem Calm.wp_await {α : Type} {site : Site} {op : Execution.M α} {Q : α → World → Prop} {R : Exn → World → Prop}
    {w : World} : wp (Execution.await env site op) Q R w = wp op Q R w := by
  unfold Execution.await
  rw [eq_iff_iff, Async.wp_await, hcalm.steps, hcalm.fault]
  exact ⟨fun h => h.1 rfl, fun h => ⟨fun _ => h, nofun⟩⟩

variable {exit : ExitArgs} {w : World}

theorem Calm.close (hheld : w.positions.get? exit.position.id = some exit.position)
    (hopen : exit.position.status = "open") (price : Decimal) :
    wp (PositionManager.close env exit.position.id price exit.exitSignal.reason)
      (fun _ w' => rowReason exit.position.id w' = some exit.exitSignal.reason.value) (fun _ _ => False) w := by
  unfold PositionManager.close
  rw [wp_tryCatch, hcalm.wp_await, wp_bind, wp_get, hheld]
  dsimp only
  rw [if_neg (by rw [hopen]; decide), wp_modify]
  unfold rowReason
  rw [Table.get?_update, if_pos rfl, hheld]
  rfl

/-- After the fill the position is closed, and the rest leaves it so. -/
theorem Calm.fill (hheld : w.positions.get? exit.position.id = some exit.position)
    (hopen : exit.position.status = "open") {id : ℕ} {q : ℤ} {status : ApprovalStatus}
    {verification : WebVerification} {result : OrderResult} :
    wp (OrderExecutor.fill env exit.run id q status verification result (OrderExecutor.trackExit env exit))
      (fun _ w' => rowReason exit.position.id w' = some exit.exitSignal.reason.value) (fun _ _ => False) w := by
  unfold OrderExecutor.fill OrderExecutor.recordExecution OrderExecutor.trackExit OrderExecutor.updateOrder
    OrderExecutor.notifySafe OrderExecutor.recordDecisionSafe
  simp only [wp_bind, hcalm.wp_await, wp_modify, wp_tryCatch, wp_pure, wp_map]
  refine wp_mono (hcalm.close ?_ hopen _) (fun _ _ h => h) fun _ _ hno => False.elim hno
  exact hheld

/-- An exit at the stop or at the target needs no approval. -/
theorem Calm.requestApproval (hreason : exit.exitSignal.reason = .stopLoss ∨ exit.exitSignal.reason = .takeProfit)
    (hfresh : w.approvals.contains env.requestId = false) (orderId : ℕ) (state : PortfolioState) (accountId : String) :
    wp (ApprovalManager.requestApproval env (OrderExecutor.buildExitTradeDecision exit) orderId state accountId)
      (fun status w' => status = .autoApproved ∧ w'.positions = w.positions) (fun _ _ => False) w := by
  have hauto : ∃ reason, ApprovalManager.checkAutoApprove env (OrderExecutor.buildExitTradeDecision exit)
      (ApprovalManager.portfolioPct (OrderExecutor.buildExitTradeDecision exit) state) = some reason := by
    have haction : (OrderExecutor.buildExitTradeDecision exit).action = .stopLoss ∨
        (OrderExecutor.buildExitTradeDecision exit).action = .takeProfit := by
      unfold OrderExecutor.buildExitTradeDecision
      rcases hreason with h | h
      · rw [h]
        exact .inl rfl
      · rw [h]
        exact .inr rfl
    unfold ApprovalManager.checkAutoApprove
    by_cases hoff : env.cfg.humanApprovalRequired = false
    · exact ⟨_, if_pos hoff⟩
    · exact ⟨_, by rw [if_neg hoff, if_pos haction]⟩
  obtain ⟨reason, hauto⟩ := hauto
  unfold ApprovalManager.requestApproval ApprovalManager.handleAutoApprove ApprovalManager.insertRequest
  rw [hauto]
  simp only [wp_bind, hcalm.wp_await, wp_get, hfresh, wp_ite, wp_modify, wp_pure, wp_throw]
  rw [if_neg (by decide)]
  exact ⟨trivial, trivial⟩

/-- The exit of an open position at its stop or its target closes it for that reason. -/
theorem Calm.executeExit (hverified : env.verification.result ≠ .blocked)
    (hfills : ∀ r, (env.placeOrder r).status = .filled)
    (hreason : exit.exitSignal.reason = .stopLoss ∨ exit.exitSignal.reason = .takeProfit)
    (hquantity : 0 < exit.position.quantity) (hfresh : w.approvals.contains env.requestId = false)
    (hheld : w.positions.get? exit.position.id = some exit.position) (hopen : exit.position.status = "open") :
    wp (OrderExecutor.executeExit env exit)
      (fun _ w' => rowReason exit.position.id w' = some exit.exitSignal.reason.value) (fun _ _ => False) w := by
  unfold OrderExecutor.executeExit OrderExecutor.submit OrderExecutor.createOrder OrderExecutor.verifyAndApprove
    OrderExecutor.verify OrderExecutor.updateOrder OrderExecutor.approve OrderExecutor.getCurrentState
  rw [wp_tryCatch, wp_bind, hcalm.wp_await, wp_modifyGet, wp_tryCatch, wp_bind, hcalm.wp_await, wp_pure, wp_bind,
    hcalm.wp_await, wp_modify, if_neg hverified, wp_bind, hcalm.wp_await, wp_pure, wp_bind]
  refine wp_mono (hcalm.requestApproval hreason ?_ _ _ _) (fun status w₁ hw₁ => ?_) fun _ _ hno => False.elim hno
  · exact hfresh
  obtain ⟨rfl, hpositions⟩ := hw₁
  rw [if_neg (by decide)]
  unfold OrderExecutor.confirmExit OrderExecutor.execute OrderExecutor.placeOrder OrderRequest.make?
  rw [wp_bind, dif_pos (show 0 < exit.run.quantity from hquantity)]
  dsimp only
  rw [wp_bind, wp_modify, wp_bind, hcalm.wp_await, wp_pure, wp_bind, wp_modify, wp_pure, hfills, if_neg (by decide)]
  refine wp_mono (hcalm.fill ?_ hopen) (fun _ _ h => h) fun _ _ hno => False.elim hno
  show w₁.positions.get? _ = _
  rw [hpositions]
  exact hheld

end Calm

variable {w : World}

theorem wp_dayEnv_await {α : Type} {x : ℤ × Decimal} {site : JobSite} {op : Execution.M α} {Q : α → World → Prop}
    {R : Exn → World → Prop} : wp ((dayEnv base x).await site op) Q R w = wp op Q R w := by
  unfold JobEnv.await
  rw [eq_iff_iff, Async.wp_await]
  exact ⟨fun h => h.1 rfl, fun h => ⟨fun _ => h, nofun⟩⟩

theorem wp_run_bind {α β : Type} {x : JobM α} {f : α → JobM β} {calls : List ExitArgs}
    {Q : β × List ExitArgs → World → Prop} {R : Exn → World → Prop} :
    wp ((x >>= f).run calls) Q R w = wp (x.run calls) (fun r w' => wp ((f r.1).run r.2) Q R w') R w := by
  rw [StateT.run_bind, wp_bind]

theorem wp_run_lift {α : Type} {x : Execution.M α} {calls : List ExitArgs}
    {Q : α × List ExitArgs → World → Prop} {R : Exn → World → Prop} :
    wp ((monadLift x : JobM α).run calls) Q R w = wp x (fun a w' => Q (a, calls) w') R w := by
  show wp (x >>= fun a => pure (a, calls)) Q R w = _
  rw [wp_bind]
  rfl

theorem wp_collectSignals_row (x : ℤ × Decimal) (row : PositionRecord) :
    wp (StopLossJob.collectSignals (dayEnv base x) 0 [row])
      (fun signals w' => signals = (StopLossJob.checkConditions x.1 row x.2).toList ∧ w' = w) (fun _ _ => False) w := by
  unfold StopLossJob.collectSignals StopLossJob.collectSignals
  have hcheck : wp (StopLossJob.checkPosition (dayEnv base x) 0 row)
      (fun signal w' => signal = StopLossJob.checkConditions x.1 row x.2 ∧ w' = w) (fun _ _ => False) w := by
    unfold StopLossJob.checkPosition
    rw [wp_tryCatch, wp_bind, wp_dayEnv_await, wp_pure, wp_pure]
    exact ⟨rfl, rfl⟩
  rw [wp_bind]
  refine wp_mono hcheck (fun signal w' hw' => ?_) fun _ _ hno => hno
  rw [wp_bind, wp_pure, wp_pure, List.append_nil]
  exact ⟨congrArg Option.toList hw'.1, hw'.2⟩

/-- The signal of the only open position goes to the executor. -/
theorem wp_processExitSignals_row {x : ℤ × Decimal} {row : PositionRecord} (hopen : row.status = "open")
    {signal : ExitSignal} (hsymbol : signal.symbol = row.symbol) (hdue : ExitExecutionService.DueToday signal)
    {Q : World → Prop} (hexit : wp (OrderExecutor.executeExit ((dayEnv base x).exits 0)
      { exitSignal := signal, position := row, accountId }) (fun _ w' => Q w') (fun _ _ => False) w) :
    wp ((ExitExecutionService.processExitSignals (dayEnv base x) [signal] [row] accountId).run [])
      (fun _ w' => Q w') (fun _ _ => False) w := by
  have hmatch : ExitExecutionService.matchSignalToPosition signal [row] = some row := by
    unfold ExitExecutionService.matchSignalToPosition
    rw [List.find?_cons_of_pos (by simp [hsymbol, hopen])]
  unfold ExitExecutionService.processExitSignals
  rw [if_neg (by simp)]
  show wp ((ExitExecutionService.processSorted (dayEnv base x) [row] accountId 0 [signal]).run []) _ _ _
  unfold ExitExecutionService.processSorted
  rw [hmatch]
  dsimp only
  unfold ExitExecutionService.handleSignal ExitExecutionService.executeSignal
  rw [wp_run_bind, if_pos hdue, wp_run_bind]
  show wp ((monadLift (_ : Execution.M _) : JobM _).run _) _ _ _
  rw [wp_run_lift, wp_tryCatch]
  exact wp_mono hexit (fun _ _ h => h) fun _ _ hno => False.elim hno

theorem OpenAlone.isOpen {row : PositionRecord} (h : OpenAlone base accountId row w ()) : row.status = "open" := by
  have hmem : row ∈ PositionManager.openRows .inserted accountId w.positions := h.alone ▸ List.mem_singleton_self _
  exact (PositionManager.mem_openRows.1 hmem).2.1

theorem OpenAlone.rowReason_eq_none {row : PositionRecord} (h : OpenAlone base accountId row w ()) :
    rowReason row.id w = none := by
  unfold rowReason
  rw [h.held]
  exact if_neg (by rw [h.isOpen]; decide)

/-- A position without further limits is closed at its stop or at its target only. -/
theorem checkConditions_reason {row : PositionRecord} (htrailing : row.trailingStopPct = none)
    (hlimit : row.maxHoldingDays = none) {day : ℤ} {close : Decimal} {signal : ExitSignal}
    (h : StopLossJob.checkConditions day row close = some signal) :
    signal.reason = .stopLoss ∨ signal.reason = .takeProfit := by
  unfold StopLossJob.checkConditions ExitConditionChecker.checkTimeBased at h
  rw [htrailing, hlimit] at h
  simp only [Option.orElse_eq_orElse, Option.orElse_eq_or, Option.or_eq_some_iff] at h
  rcases h with h | ⟨_, h | ⟨_, h | ⟨_, h⟩⟩⟩
  · unfold ExitConditionChecker.checkStopLoss at h
    split at h
    · cases h
      exact .inl rfl
    · cases h
  · unfold ExitConditionChecker.checkTakeProfit at h
    split at h
    · cases h
    · split at h
      · cases h
        exact .inr rfl
      · cases h
  · cases h
  · cases h

/-- On every day the job does what its check says. -/
theorem OpenAlone.jobStopLossCheck (hworks : Works base) {row : PositionRecord} (h : OpenAlone base accountId row w ())
    (htrailing : row.trailingStopPct = none) (hlimit : row.maxHoldingDays = none) (x : ℤ × Decimal) :
    wp ((StopLossJob.jobStopLossCheck (dayEnv base x) accountId).run [])
      (fun _ w' => Watch.EndAlike (OpenAlone base accountId row) (.ok (w', rowReason row.id w')) (liveCheck row () x))
      (fun _ _ => False) w := by
  unfold StopLossJob.jobStopLossCheck PositionManager.getOpen
  rw [wp_run_bind]
  show wp ((monadLift (_ : Execution.M _) : JobM _).run _) _ _ _
  have halone : PositionManager.openRows (dayEnv base x).rowOrder accountId w.positions = [row] := h.alone
  rw [wp_run_lift, wp_tryCatch, wp_dayEnv_await, wp_bind, wp_get, wp_pure, halone]
  show wp ((if [row].isEmpty then _ else _ : JobM _).run _) _ _ _
  rw [if_neg (by simp)]
  unfold StopLossJob.checkPositions
  rw [wp_run_bind]
  show wp ((monadLift (_ : Execution.M _) : JobM _).run _) _ _ _
  rw [wp_run_lift]
  refine wp_mono (wp_collectSignals_row x row) (fun signals w' hw' => ?_) fun _ _ hno => hno
  obtain ⟨rfl, rfl⟩ := hw'
  unfold liveCheck
  cases hcheck : StopLossJob.checkConditions x.1 row x.2 with
  | none =>
    show Watch.EndAlike _ (.ok (w', rowReason row.id w')) (.ok ((), none))
    rw [h.rowReason_eq_none]
    exact h
  | some signal =>
    obtain ⟨hsymbol, hdue⟩ := StopLossJob.checkConditions_due hcheck
    show wp ((ExitExecutionService.processExitSignals (dayEnv base x) [signal] [row] accountId >>=
      _ : JobM _).run _) _ _ _
    rw [wp_run_bind]
    refine wp_mono (wp_processExitSignals_row (Q := fun w' => rowReason row.id w' = some signal.reason.value) h.isOpen
      hsymbol hdue ?_) (fun _ w'' hw'' => ?_) fun _ _ hno => hno
    · exact (calm_exits x 0).executeExit hworks.verified hworks.fills
        (checkConditions_reason htrailing hlimit hcheck) h.quantity_pos h.fresh h.held h.isOpen
    · show Watch.EndAlike _ (.ok (w'', rowReason row.id w'')) (.ok ((), some signal.reason.value))
      rw [hw'']
      exact rfl

/-- The live job reports for the row what its checks do. -/
theorem OpenAlone.run_eq (hworks : Works base) {row : PositionRecord} (h : OpenAlone base accountId row w ())
    (htrailing : row.trailingStopPct = none) (hlimit : row.maxHoldingDays = none) (series : List (ℤ × Decimal))
    (n : ℕ) :
    Watch.run (liveStep base accountId row.id) w series n = Watch.run (liveCheck row) () series n := by
  refine Watch.run_eq_of_endAlike (fun x _ w' _ h' => ?_) n h
  have hday := OpenAlone.jobStopLossCheck hworks h' htrailing hlimit x
  unfold liveStep
  unfold wp at hday
  cases hrun : (StopLossJob.jobStopLossCheck (dayEnv base x) accountId).run [] w' with
  | ok a w'' =>
    rw [hrun] at hday
    exact hday
  | error e w'' =>
    rw [hrun] at hday
    exact hday.elim

end Live

/-! ## Entries -/

/-- The row that `execute_entry` creates for a fill. -/
def enteredRow (env : Env) (args : OrderExecutor.EntryArgs) (id : ℕ) (fillQuantity : ℤ) (fillPrice : Decimal) :
    PositionRecord :=
  CreateArgs.record
    { symbol := args.tradeDecision.symbol
      strategyType := args.strategyType
      quantity := fillQuantity
      entryPrice := fillPrice
      stopLossPrice := args.tradeDecision.stopLossPrice.getD 0
      takeProfitPrice := args.tradeDecision.takeProfitPrice
      accountId := args.accountId } env.today id

theorem trackEntry_enters (env : Env) (args : OrderExecutor.EntryArgs) (fillQuantity : ℤ) (fillPrice : Decimal)
    (w : World) :
    wp (OrderExecutor.trackEntry env args fillQuantity fillPrice)
      (fun entered w' => ∀ id, entered = some id →
        w'.positions.get? id = some (enteredRow env args id fillQuantity fillPrice)) (fun _ _ => False) w := by
  unfold OrderExecutor.trackEntry PositionManager.create Execution.await
  rw [wp_tryCatch, wp_map, wp_tryCatch]
  refine Async.wp_await_of (I := fun _ => True) (fun _ _ _ _ => trivial) trivial (fun w₁ _ _ => ?_)
    fun _ _ _ _ => ⟨nofun, nofun⟩
  rintro id ⟨⟩
  show (w₁.positions.insert _).get? _ = _
  rw [Table.get?_insert, if_pos rfl]
  rfl

/-- The position that the backtest records for a filled signal. -/
def recordedPosition (config : BacktestConfig) (signal : Signal) (tradingDate : ℤ) (adjustedQty : ℤ)
    (fillPrice : Decimal) (limits : Option Decimal × ℤ) (id : ℕ) : PositionRecord where
  id := id
  symbol := signal.symbol
  strategyType := config.strategyType
  quantity := adjustedQty
  avgCost := fillPrice
  entryPrice := fillPrice
  entryDate := tradingDate
  stopLossPrice := signal.stopLossPrice.getD 0
  takeProfitPrice := signal.targetPrice
  trailingStopPct := limits.1
  maxHoldingDays := some limits.2

theorem recordEntry_records (signal : Signal) (tradingDate : ℤ) (adjustedQty : ℤ) (openPrice : Decimal)
    (result : OrderResult) (w : Backtest) :
    wp (BacktestEngine.recordEntry config signal tradingDate adjustedQty openPrice result)
      (fun _ w' => ∃ limits id, w'.engine.positions.get? signal.symbol = some
        (recordedPosition config signal tradingDate
          adjustedQty (BacktestEngine.fillPriceOf result openPrice) limits id) ∧
        w'.engine.highestPrices.get? signal.symbol = some (BacktestEngine.fillPriceOf result openPrice))
      (fun _ _ => True) w := by
  unfold BacktestEngine.recordEntry
  dsimp only
  rw [wp_bind]
  refine wp_mono (wp_true _ w) (fun limits w₁ _ => ?_) fun _ _ _ => trivial
  rw [BacktestEngine.wp_modifyEngine]
  exact ⟨limits, w₁.engine.positionIdCounter + 1, Dict.get?_set_self _ _ _, Dict.get?_set_self _ _ _⟩

/-- A live decision and a signal of the backtest with the same symbol, strategy, stop and target. -/
structure SameEntry (args : OrderExecutor.EntryArgs) (config : BacktestConfig) (signal : Signal) : Prop where
  symbol : args.tradeDecision.symbol = signal.symbol
  strategyType : args.strategyType = config.strategyType
  stop : args.tradeDecision.stopLossPrice = signal.stopLossPrice
  target : args.tradeDecision.takeProfitPrice = signal.targetPrice

theorem SameEntry.sameTerms {args : OrderExecutor.EntryArgs} {config : BacktestConfig} {signal : Signal}
    (h : SameEntry args config signal) (env : Env) (id : ℕ) (fillQuantity : ℤ) (fillPrice : Decimal) (tradingDate : ℤ)
    (adjustedQty : ℤ) (fillPrice' : Decimal) (limits : Option Decimal × ℤ) (id' : ℕ) :
    SameTerms (enteredRow env args id fillQuantity fillPrice)
      (recordedPosition config signal tradingDate adjustedQty fillPrice' limits id') := by
  refine ⟨?_, ?_, rfl, rfl⟩
  · show quantize2 (args.tradeDecision.stopLossPrice.getD 0) = quantize2 (signal.stopLossPrice.getD 0)
    rw [h.stop]
  · show args.tradeDecision.takeProfitPrice.map quantize2 = signal.targetPrice.map quantize2
    rw [h.target]

/-- The runs of live job and backtest report alike exactly if the series is unhindered. -/
theorem runs_eq_iff {base : Env} (hworks : Works base) {accountId : String} {row pos : PositionRecord}
    (hterms : SameTerms row pos) {w : World} (hrow : OpenAlone base accountId row w ()) {B : Bench} {symbol : String}
    {b : Backtest} {highest : Decimal} (hpos : HeldAlone symbol pos b highest) {series : List (ℤ × Decimal)}
    (hcloses : ∀ x ∈ series, B.loader.getClosePrice symbol x.1 = some x.2) :
    Watch.run (liveStep base accountId row.id) w series 0 = Watch.run (backtestStep config B symbol) b series 0 ↔
      Unhindered pos highest series := by
  rw [hrow.run_eq hworks hterms.noTrailing hterms.noLimit, hpos.run_eq config hcloses,
    Watch.run_eq_iff_agree (liveCheck_ne_error row)]
  exact agree_iff config hterms series highest

/-- For every live entry and every entry of the backtest with the same symbol, strategy, stop and target, and every
series of closes: the live job closes its position on the same day and for the same reason as the backtest exactly
if neither the trailing stop nor the holding limit of the backtest comes in before, and until then no close lies
between the stop or the target and its rounding. -/
theorem sameExits_iff {args : OrderExecutor.EntryArgs} {config : BacktestConfig} {signal : Signal}
    (hsame : SameEntry args config signal) (env : Env) (id : ℕ) (fillQuantity : ℤ) (fillPrice : Decimal)
    (tradingDate : ℤ) (adjustedQty : ℤ) (fillPrice' : Decimal) (limits : Option Decimal × ℤ) (id' : ℕ)
    {base : Env} (hworks : Works base) {w : World}
    (hrow : OpenAlone base args.accountId (enteredRow env args id fillQuantity fillPrice) w ()) {B : Bench}
    {b : Backtest}
    (hpos : HeldAlone signal.symbol (recordedPosition config signal tradingDate adjustedQty fillPrice' limits id') b
      fillPrice') {series : List (ℤ × Decimal)}
    (hcloses : ∀ x ∈ series, B.loader.getClosePrice signal.symbol x.1 = some x.2) :
    Watch.run (liveStep base args.accountId id) w series 0 =
        Watch.run (backtestStep config B signal.symbol) b series 0 ↔
      Unhindered (recordedPosition config signal tradingDate adjustedQty fillPrice' limits id') fillPrice' series :=
  runs_eq_iff config hworks
    (hsame.sameTerms env id fillQuantity fillPrice tradingDate adjustedQty fillPrice' limits id')
    hrow hpos hcloses

/-! ## A trailing stop -/

/-- A decision of the position strategy, with a stop at 63,000 won and a target at 84,000. -/
def positionEntry : OrderExecutor.EntryArgs where
  tradeDecision := { symbol := "005930", action := .buy, quantity := 10, price := some 70000
                     stopLossPrice := some 63000, takeProfitPrice := some 84000 }
  strategyType := .position

def positionConfig : BacktestConfig where
  strategyType := .position
  startDate := 1
  endDate := 2
  symbols := ["005930"]

def positionSignal : Signal where
  symbol := "005930"
  action := .buy
  confidence := 8 / 10
  targetPrice := some 84000
  stopLossPrice := some 63000
  quantity := 10
  reasoning := .replay ""

/-- Ten shares at 70,000 won, with the default limits of the position strategy. -/
def positionHeld : PositionRecord := recordedPosition positionConfig positionSignal 0 10 70000 (some 5, 60) 1

def bar (day : ℤ) (close : Decimal) : DailyOHLCV :=
  { symbol := "005930", date := day, openPrice := close, high := close, low := close, close, volume := 0 }

/-- The price goes up to 80,000 won, and the next day down to 75,000. -/
def fallingBack : HistoricalDataLoader where
  rows := [bar 1 80000, bar 2 75000]
  sorted := by decide +kernel
  unique := by decide

def fallingBench : Bench := BacktestEngine.replayBench fallingBack [] {}

def liveHolding : World := { positions := Table.empty.insert fun id => enteredRow plainEnv positionEntry id 10 70000 }

def backtestHolding : Backtest where
  engine := { positions := Dict.empty.set "005930" positionHeld, highestPrices := Dict.empty.set "005930" 70000 }
  broker := { cash := 0, positions := Dict.empty.set "005930"
                { symbol := "005930", quantity := 10, averageCost := 70000, currentPrice := 70000 } }

theorem works_plainEnv : Works plainEnv := ⟨by decide, fun _ => rfl⟩

theorem openAlone_liveHolding : OpenAlone plainEnv "default"
    (enteredRow plainEnv positionEntry 1 10 70000) liveHolding () :=
  ⟨by decide +kernel, by decide +kernel, by decide, rfl⟩

theorem heldAlone_backtestHolding : HeldAlone "005930" positionHeld backtestHolding 70000 :=
  ⟨rfl, Dict.get?_set_self _ _ _, by decide, _,
    SimulatedBroker.openPosition_eq_some.2 ⟨Dict.get?_set_self _ _ _, by decide⟩, by decide⟩

theorem positionEntry_same : SameEntry positionEntry positionConfig positionSignal := ⟨rfl, rfl, rfl, rfl⟩

/-- The price goes up to 72,000 won, and the next day down to 62,000. -/
def throughStop : HistoricalDataLoader where
  rows := [bar 1 72000, bar 2 62000]
  sorted := by decide +kernel
  unique := by decide

/-- Both runs close the position at its stop on the second day. -/
theorem sameExits_throughStop :
    Watch.run (liveStep plainEnv positionEntry.accountId 1) liveHolding [(1, 72000), (2, 62000)] 0 =
      Watch.run (backtestStep positionConfig (BacktestEngine.replayBench throughStop [] {}) positionSignal.symbol)
        backtestHolding [(1, 72000), (2, 62000)] 0 := by
  refine (sameExits_iff positionEntry_same plainEnv 1 10 70000 0 10 70000 (some 5, 60) 1 works_plainEnv
    openAlone_liveHolding heldAlone_backtestHolding (by decide +kernel)).2 ?_
  have hsides : ∀ close : Decimal, SameSides positionHeld close := by
    intro close
    have hstop : quantize2 positionHeld.stopLossPrice = positionHeld.stopLossPrice := by decide +kernel
    have htarget : ∀ target, positionHeld.takeProfitPrice = some target → quantize2 target = target := by decide +kernel
    exact ⟨by rw [hstop], fun _ target h => by rw [htarget target h]⟩
  refine ⟨by decide +kernel, hsides _, .inr ⟨?_, .inr ⟨?_, by decide +kernel, hsides _, .inl ?_⟩⟩⟩
  · rintro _ ⟨⟩
    exact .inl (by decide +kernel)
  · rintro _ ⟨⟩
    decide
  · unfold AtStop
    decide +kernel

/-- The backtest closes the position at its trailing stop on the second day, the live job does not close it. -/
theorem falling_exits_differ :
    Watch.run (liveStep plainEnv "default" 1) liveHolding [(1, 80000), (2, 75000)] 0 ≠
      Watch.run (backtestStep positionConfig fallingBench "005930") backtestHolding [(1, 80000), (2, 75000)] 0 := by
  have hlive : Watch.run (liveStep plainEnv "default" 1) liveHolding [(1, 80000), (2, 75000)] 0 = .ok none := by
    refine (openAlone_liveHolding.run_eq works_plainEnv rfl rfl _ 0).trans ?_
    decide +kernel
  have hbacktest : Watch.run (backtestStep positionConfig fallingBench "005930") backtestHolding
      [(1, 80000), (2, 75000)] 0 = .ok (some (1, "trailing_stop")) := by
    refine (heldAlone_backtestHolding.run_eq positionConfig (by decide +kernel) 0).trans ?_
    decide +kernel
  rw [hlive, hbacktest]
  decide

end ExitParity

end TradingAgent
