/-
The positions table while calls of the position manager run side by side. A call that changes a position loads its
row first and commits later; by then another call may have changed the row. The session writes only the columns whose
value is another one than the one it loaded.
-/
import TradingAgent.Execution.Executor
import TradingAgent.Lib.Pool
import TradingAgent.Lib.Table
import TradingAgent.Strategy.Exit
import Mathlib.Data.List.Sort

namespace TradingAgent

/-! ## Rows -/

/-- A row of the positions table, with the sessions in which the position was opened and closed. -/
structure PositionRow extends PositionRecord where
  entrySessionId : Option ℕ := none
  exitSessionId : Option ℕ := none
  deriving DecidableEq

/-- The row that is inserted. -/
def CreateArgs.row (args : CreateArgs) (today : ℤ) (id : ℕ) : PositionRow where
  toPositionRecord := args.record today id
  entrySessionId := args.entrySessionId

namespace PositionRow

/-- What the row says about the entry. -/
def entry (row : PositionRow) : PositionRow :=
  { row with
    stopLossPrice := 0
    status := "open"
    exitPrice := none
    exitDate := none
    exitReason := none
    realizedPnl := none
    exitSessionId := none }

/-- A column as a session writes it. -/
def column {β : Type} [DecidableEq β] (loaded new : β) (store : β → β) (stored : β) : β :=
  if new = loaded then stored else store new

/-- The update of a row that a session had loaded and changed. -/
def flush (loaded new stored : PositionRow) : PositionRow :=
  { stored with
    stopLossPrice := column loaded.stopLossPrice new.stopLossPrice quantize2 stored.stopLossPrice
    status := column loaded.status new.status id stored.status
    exitPrice := column loaded.exitPrice new.exitPrice (Option.map quantize2) stored.exitPrice
    exitDate := column loaded.exitDate new.exitDate id stored.exitDate
    exitReason := column loaded.exitReason new.exitReason id stored.exitReason
    realizedPnl := column loaded.realizedPnl new.realizedPnl (Option.map quantize2) stored.realizedPnl
    exitSessionId := column loaded.exitSessionId new.exitSessionId id stored.exitSessionId }

end PositionRow

namespace PositionBook

/-! ## Calls -/

/-- A change of a position. -/
inductive Change
  | close (exitPrice : Decimal) (exitReason : ExitReason) (exitSessionId : Option ℕ)
  | updateStopLoss (newStopLoss : Decimal)

/-- What a change assigns to the row it has loaded. The profit is that of the price as it was given. -/
def Change.assign (today : ℤ) (record : PositionRow) : Change → PositionRow
  | .close exitPrice exitReason exitSessionId =>
    { record with
      status := "closed"
      exitPrice := some exitPrice
      exitDate := some today
      exitReason := some exitReason.value
      realizedPnl := some ((exitPrice - record.avgCost) * record.quantity)
      exitSessionId := exitSessionId }
  | .updateStopLoss newStopLoss => { record with stopLossPrice := newStopLoss }

inductive Call
  | create (args : CreateArgs)
  | change (positionId : ℕ) (c : Change)

/-- What the message of an error of the database begins with. -/
def Call.failed : Call → String
  | .create _ => "Position create failed: "
  | .change _ (.close ..) => "Position close failed: "
  | .change _ (.updateStopLoss _) => "Stop loss update failed: "

/-- The message of a change of a closed position. -/
def Change.refused (positionId : ℕ) : Change → String
  | .close .. => "Position already closed: id=" ++ toString positionId
  | .updateStopLoss _ => "Cannot update closed position: id=" ++ toString positionId

/-- What a transaction writes. -/
inductive Write
  | insert (args : CreateArgs) (today : ℤ)
  | update (loaded : PositionRow) (c : Change) (today : ℤ)

/-- What a call awaits next. -/
inductive Phase
  | inserting (args : CreateArgs) (today : ℤ)
  | loading (positionId : ℕ) (c : Change)
  | committing (positionId : ℕ) (loaded : PositionRow) (c : Change) (today : ℤ)
  | refreshing (id : ℕ)
  | ended (result : Except String (Option PositionRow))

/-- A call under way. The row that its transaction has written to is recorded. -/
structure Task where
  call : Call
  phase : Phase
  wrote : Option (ℕ × Write) := none

def Task.raise (t : Task) (message : String) : Task := { t with phase := .ended (.error message) }

end PositionBook

open PositionBook

/-- The table and the date. -/
structure PositionBook where
  today : ℤ
  positions : Table PositionRow := Table.empty

namespace PositionBook

/-! ## Steps -/

/-- A call reads the date where it begins to insert. -/
def start (call : Call) (s : PositionBook) : Option Task :=
  match call with
  | .create args => some { call, phase := .inserting args s.today }
  | .change positionId c => some { call, phase := .loading positionId c }

/-- The row of a change: one that is missing or closed raises. The date of an exit is read here. -/
def load (s : PositionBook) (positionId : ℕ) (c : Change) (t : Task) : Task :=
  match s.positions.get? positionId with
  | none => t.raise ("Position not found: id=" ++ toString positionId)
  | some record =>
    if record.status = "closed" then t.raise (c.refused positionId)
    else { t with phase := .committing positionId record c s.today }

/-- After its commit a close reads the row again; an update of the stop loss is done. -/
def Change.after (positionId : ℕ) : Change → Phase
  | .close .. => .refreshing positionId
  | .updateStopLoss _ => .ended (.ok none)

/-- The row as it stands now. -/
def refresh (s : PositionBook) (id : ℕ) (t : Task) : Task :=
  match s.positions.get? id with
  | none => t.raise (t.call.failed ++ "Could not refresh instance")
  | some record => { t with phase := .ended (.ok (some record)) }

/-- The next await of a call succeeds. -/
def proceed (s : PositionBook) (t : Task) : PositionBook × Task :=
  match t.phase with
  | .inserting args today =>
    ({ s with positions := s.positions.insert (args.row today) },
      { t with
        phase := .refreshing s.positions.nextId
        wrote := some (s.positions.nextId, .insert args today) })
  | .loading positionId c => (s, s.load positionId c t)
  | .committing positionId loaded c today =>
    ({ s with positions := s.positions.update positionId (PositionRow.flush loaded (c.assign today loaded)) },
      { t with
        phase := c.after positionId
        wrote := some (positionId, .update loaded c today) })
  | .refreshing id => (s, s.refresh id t)
  | .ended _ => (s, t)

/-- The next await of a call; it may fail with the text of an exception, before it took effect or after. -/
def step (fault : Option (Async.Fault String)) (s : PositionBook) (t : Task) : PositionBook × Task :=
  match t.phase, fault with
  | .ended _, _ => (s, t)
  | _, some f =>
    let (s', t') := if f.applied then s.proceed t else (s, t)
    (s', t'.raise (t.call.failed ++ f.exn))
  | _, none => s.proceed t

/-- Calls of the position manager side by side. Outside them the date changes. -/
def manager : Pool.System PositionBook Task Call ℤ (Option (Async.Fault String)) where
  start := start
  env today s := { s with today }
  step := step

/-! ## Queries -/

/-- The rows of the table in the order in which the database comes to them. -/
structure Scan (s : PositionBook) where
  rows : List PositionRow
  perm : rows.Perm s.positions.rows.values

variable {s : PositionBook} (scan : Scan s)

/-- A filter that is left out when its value is none. -/
def filterBy {β : Type} [DecidableEq β] (value : Option β) (column : β) : Bool :=
  match value with
  | none => true
  | some value => column = value

def Scan.getOpen (strategyType : Option StrategyType) (accountId : Option String) : List PositionRow :=
  (scan.rows.filter (fun row => row.status = "open" && filterBy strategyType row.strategyType &&
    filterBy accountId row.accountId)).insertionSort (fun a b => a.entryDate ≤ b.entryDate)

/-- One row of the symbol. -/
def Scan.getBySymbol (symbol : String) (status : String := "open") (accountId : Option String := none) :
    Option PositionRow :=
  (scan.rows.filter (fun row => row.symbol = symbol && row.status = status && filterBy accountId row.accountId)).head?

def Scan.getDailyEntries (targetDate : ℤ) (accountId : Option String) : ℕ :=
  scan.rows.countP (fun row => row.entryDate = targetDate && filterBy accountId row.accountId)

end PositionBook

end TradingAgent
