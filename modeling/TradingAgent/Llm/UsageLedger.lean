/-
The usage of the language models as the database keeps it, while routed calls run side by side. A call records what
its answers used in a row of the day, the provider, the model and the agent, which adds up; before a second model is
asked the costs of the month are held against the budget. A recording that fails is given up, and the call goes on.
-/
import TradingAgent.Llm.Escalation
import TradingAgent.Lib.Calendar
import TradingAgent.Lib.Groups
import TradingAgent.Lib.Pool
import TradingAgent.Lib.Rounding
import TradingAgent.Lib.Tally

namespace TradingAgent

/-! ## The table -/

/-- What an answer of a model used. -/
structure ModelUsage where
  provider : LLMProviderType
  model : String
  tokensIn : ℤ
  tokensOut : ℤ
  costUsd : Decimal
  cost_nonneg : 0 ≤ costUsd := by norm_num

/-- A row: the usage of a day. -/
structure LLMUsage where
  date : ℤ
  provider : LLMProviderType
  model : String
  agentType : String
  tokensIn : ℤ
  tokensOut : ℤ
  costUsd : Decimal
  callCount : ℤ
  escalationCount : ℤ
  deriving DecidableEq

namespace LLMUsage

/-- The column of the costs has six decimal places. -/
def numeric (cost : Decimal) : Decimal := Rounding.halfUp (cost * 1000000) / 1000000

/-- The values that a recording inserts; without an agent it is the system that calls. -/
def ofUsage (today : ℤ) (agentType : String) (isEscalation : Bool) (usage : ModelUsage) : LLMUsage where
  date := today
  provider := usage.provider
  model := usage.model
  agentType := if agentType = "" then "__system__" else agentType
  tokensIn := usage.tokensIn
  tokensOut := usage.tokensOut
  costUsd := numeric usage.costUsd
  callCount := 1
  escalationCount := if isEscalation then 1 else 0

/-- One row for each day, provider, model and agent. A row in conflict adds to the one that is there. -/
def uqLlmUsageDaily : Upsert.Constraint LLMUsage (ℤ × LLMProviderType × String × String) where
  key row := some (row.date, row.provider, row.model, row.agentType)
  merge row excluded := { row with
    tokensIn := row.tokensIn + excluded.tokensIn
    tokensOut := row.tokensOut + excluded.tokensOut
    costUsd := row.costUsd + excluded.costUsd
    callCount := row.callCount + excluded.callCount
    escalationCount := row.escalationCount + excluded.escalationCount }
  key_merge _ _ := rfl

theorem ofUsage_cost_nonneg (today : ℤ) (agentType : String) (isEscalation : Bool) (usage : ModelUsage) :
    0 ≤ (ofUsage today agentType isEscalation usage).costUsd := by
  have hround : 0 ≤ Rounding.halfUp (usage.costUsd * 1000000) :=
    Rounding.halfUp_nonneg (mul_nonneg usage.cost_nonneg (by norm_num))
  exact div_nonneg (by exact_mod_cast hround) (by norm_num)

end LLMUsage

/-! ## Queries -/

/-- The calls of a provider in a summary. -/
structure ProviderSummary where
  costUsd : Decimal
  callCount : ℤ
  deriving DecidableEq

structure MonthlySummary where
  year : ℤ
  month : ℕ
  totalCostUsd : Decimal
  totalCalls : ℤ
  totalTokensIn : ℤ
  totalTokensOut : ℤ
  totalEscalations : ℤ
  byProvider : Dict LLMProviderType ProviderSummary

/-- The table and the date. The rows that were inserted are recorded as they were sent. -/
structure UsageLedger where
  today : ℤ
  rows : List LLMUsage := []
  inserted : List LLMUsage := []

namespace UsageLedger

open Upsert LLMUsage

variable (s : UsageLedger)

/-- The insertion of a row. -/
def recordUsage (row : LLMUsage) : UsageLedger :=
  { s with rows := Upsert.one uqLlmUsageDaily s.rows row, inserted := s.inserted ++ [row] }

def firstOfMonth (day : ℤ) : ℤ := Calendar.ofDate (Calendar.yearOf day) (Calendar.monthOf day) 1

/-- The costs since the first day of the month of a day. -/
def currentCost (today : ℤ) : Decimal := total (·.costUsd) (fun row => firstOfMonth today ≤ row.date) s.rows

/-- The budget of the month, with the costs that the table sums up. -/
def costTracker (today : ℤ) (monthlyBudgetUsd budgetWarningPct : Decimal) : CostTracker :=
  { currentCost := .ok (s.currentCost today), monthlyBudgetUsd, budgetWarningPct }

def lastDay (year : ℤ) (month : ℕ) : ℤ :=
  if month = 12 then Calendar.ofDate (year + 1) 1 1 else Calendar.ofDate year (month + 1) 1

/-- The rows of a month. -/
def inMonth (year : ℤ) (month : ℕ) (row : LLMUsage) : Bool :=
  Calendar.ofDate year month 1 ≤ row.date ∧ row.date < lastDay year month

/-- The summary of a month. The sums by provider come from a statement of their own, which finds the table as it is by
then. -/
def getMonthlySummary (next : UsageLedger) (year : ℤ) (month : ℕ) : MonthlySummary where
  year := year
  month := month
  totalCostUsd := total (·.costUsd) (inMonth year month) s.rows
  totalCalls := total (·.callCount) (inMonth year month) s.rows
  totalTokensIn := total (·.tokensIn) (inMonth year month) s.rows
  totalTokensOut := total (·.tokensOut) (inMonth year month) s.rows
  totalEscalations := total (·.escalationCount) (inMonth year month) s.rows
  byProvider := (Groups.group (·.provider) (next.rows.filter (inMonth year month))).mapValues fun _ rows =>
    { costUsd := (rows.map (·.costUsd)).sum, callCount := (rows.map (·.callCount)).sum }

end UsageLedger

/-! ## Routed calls -/

/-- Where a routed call stands. -/
inductive RouteStage
  | asking
  | recording (row : LLMUsage) (unsure : Bool)
  | checking (today : ℤ)
  | escalating
  | recordingEscalation (row : LLMUsage)
  | done

/-- A routed call. It notes the rows that are due for its answers, those it inserted, whether a recording failed or was
cut off, and whether it was admitted to the second model. -/
structure RoutedCall where
  agentType : String
  stage : RouteStage := .asking
  due : List LLMUsage := []
  inserted : List LLMUsage := []
  troubled : Bool := false
  admitted : Bool := false

/-- How the awaited call ends: a model answers, and is unsure if the configuration and its confidence ask for a second
model; a statement is done; it fails, where it may have had its effect; or the routed call ends with an error. -/
inductive RouteChoice
  | answers (usage : ModelUsage) (unsure : Bool)
  | returns
  | raises (applied : Bool)
  | ends (applied : Bool)

namespace RoutedCall

variable (monthlyBudgetUsd budgetWarningPct : Decimal) (s : UsageLedger) (call : RoutedCall)

def move (stage : RouteStage) : RoutedCall := { call with stage }

/-- An answer; a row is due that says what it used. -/
def answered (row : LLMUsage) (stage : RouteStage) : RoutedCall := { call with due := call.due ++ [row], stage }

def insertRow (row : LLMUsage) (stage : RouteStage) : UsageLedger × RoutedCall :=
  (s.recordUsage row, { call with inserted := call.inserted ++ [row], stage })

/-- A recording that fails or is cut off may have had its effect. -/
def recordFails (applied : Bool) (row : LLMUsage) (stage : RouteStage) : UsageLedger × RoutedCall :=
  let (s', call') := if applied then call.insertRow s row stage else (s, call.move stage)
  (s', { call' with troubled := true })

/-- What follows the first answer. -/
def afterFirst (unsure : Bool) : RouteStage := if unsure then .checking s.today else .done

/-- A second model is asked unless the budget is used up. -/
def checkBudget (today : ℤ) : RoutedCall :=
  match (s.costTracker today monthlyBudgetUsd budgetWarningPct).getBudgetStatus with
  | .ok status =>
    if status.escalationDisabled then call.move .done else { call with stage := .escalating, admitted := true }
  | .error _ => call.move .done

/-- The steps of a routed call with `record_usage` and `get_budget_status`. A choice that does not fit the stage is no
step. -/
def step : RouteStage → RouteChoice → UsageLedger × RoutedCall
  | .asking, .answers usage unsure =>
    let row := LLMUsage.ofUsage s.today call.agentType false usage
    (s, call.answered row (.recording row unsure))
  | .recording row unsure, .returns => call.insertRow s row (afterFirst s unsure)
  | .recording row unsure, .raises applied => call.recordFails s applied row (afterFirst s unsure)
  | .checking today, .returns => (s, call.checkBudget monthlyBudgetUsd budgetWarningPct s today)
  | .escalating, .answers usage _ =>
    let row := LLMUsage.ofUsage s.today call.agentType true usage
    (s, call.answered row (.recordingEscalation row))
  | .recordingEscalation row, .returns => call.insertRow s row .done
  | .recordingEscalation row, .raises applied => call.recordFails s applied row .done
  | .recording row _, .ends applied | .recordingEscalation row, .ends applied => call.recordFails s applied row .done
  | .asking, .raises _ | .asking, .ends _ | .checking _, .raises _ | .checking _, .ends _ | .escalating, .raises _
  | .escalating, .ends _ => (s, call.move .done)
  | _, _ => (s, call)

end RoutedCall

namespace UsageLedger

/-- All routed calls; a call is started for an agent, and days pass. -/
def system (monthlyBudgetUsd budgetWarningPct : Decimal) :
    Pool.System UsageLedger RoutedCall String ℕ RouteChoice where
  start agentType _ := some { agentType }
  env days s := { s with today := s.today + days }
  step choice s call := call.step monthlyBudgetUsd budgetWarningPct s call.stage choice

end UsageLedger

end TradingAgent
