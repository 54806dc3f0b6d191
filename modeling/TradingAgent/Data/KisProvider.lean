/-
The provider of daily bars, with any number of reads and syncs under way at once. A read looks into the
cache, then into the database, and writes its entry last; a sync commits first and deletes the entry last.
Between its two halves a read may be overtaken by a whole sync, and then its entry holds rows that are no
longer in the database.
-/
import TradingAgent.Data.Cache
import TradingAgent.Lib.Upsert
import TradingAgent.Lib.Async
import Mathlib.Data.List.Sort
import Mathlib.Logic.Function.Basic

namespace TradingAgent

open CacheAside

/-- A row of the table of daily bars. -/
structure OhlcvRow where
  symbol : String
  date : ℤ
  openPrice : Decimal
  high : Decimal
  low : Decimal
  close : Decimal
  volume : ℤ
  tradingValue : Option Decimal
  deriving DecidableEq

/-- A daily bar as the client delivers it and the provider returns it. -/
structure OhlcvBar where
  symbol : String
  date : ℤ
  openPrice : Decimal
  high : Decimal
  low : Decimal
  close : Decimal
  volume : ℤ
  value : Decimal
  deriving DecidableEq

/-- Bars of one symbol, as the client makes them. -/
structure DailyBars (symbol : String) where
  bars : List OhlcvBar
  ofSymbol : ∀ b ∈ bars, b.symbol = symbol

namespace KisDataProvider

def upsertBatchSize : ℕ := 500

def ohlcvCacheNs : String := "kis:ohlcv"

/-! ## The table -/

/-- `uq_daily_ohlcv_symbol_date`. -/
def ohlcvConstraint : Upsert.Constraint OhlcvRow (String × ℤ) where
  key row := some (row.symbol, row.date)
  merge row new := { row with
    openPrice := new.openPrice, high := new.high, low := new.low, close := new.close
    volume := new.volume, tradingValue := new.tradingValue }
  key_merge _ _ := rfl

/-- The row of a bar, with the decimals of its columns. -/
def rowOf (bar : OhlcvBar) : OhlcvRow :=
  { symbol := bar.symbol, date := bar.date, openPrice := quantize2 bar.openPrice, high := quantize2 bar.high
    low := quantize2 bar.low, close := quantize2 bar.close, volume := bar.volume
    tradingValue := some (quantize0 bar.value) }

def barOf (row : OhlcvRow) : OhlcvBar :=
  { symbol := row.symbol, date := row.date, openPrice := row.openPrice, high := row.high, low := row.low
    close := row.close, volume := row.volume, value := row.tradingValue.getD 0 }

/-- The bars of a symbol in the database, oldest first. -/
def dailyBars (symbol : String) (rows : List OhlcvRow) : List OhlcvBar :=
  ((rows.filter (fun row => row.symbol = symbol)).insertionSort (fun a b => a.date ≤ b.date)).map barOf

/-- The bars within a range of dates. -/
def inRange (startDate endDate : Option ℤ) (bars : List OhlcvBar) : List OhlcvBar :=
  bars.filter (fun b => (∀ d ∈ startDate, d ≤ b.date) ∧ (∀ d ∈ endDate, b.date ≤ d))

/-- What reading the database gives for the arguments of a read. -/
def readDailyOhlcv (rows : List OhlcvRow) (symbol : String) (startDate endDate : Option ℤ) : List OhlcvBar :=
  inRange startDate endDate (dailyBars symbol rows)

/-- The batches of one sync. -/
def batches {symbol : String} (answer : DailyBars symbol) : List (DailyBars symbol) :=
  (List.range ((answer.bars.length + upsertBatchSize - 1) / upsertBatchSize)).map fun i =>
    ⟨(answer.bars.drop (i * upsertBatchSize)).take upsertBatchSize,
      fun b hb => answer.ofSymbol b (List.mem_of_mem_drop (List.mem_of_mem_take hb))⟩

/-- The rows of a batch, inserted or updated. -/
def upsertBatch {symbol : String} (rows : List OhlcvRow) (batch : DailyBars symbol) : List OhlcvRow :=
  (batch.bars.map rowOf).foldl (Upsert.one ohlcvConstraint) rows

/-! ## Reads and syncs under way -/

/-- Where a call stands. -/
inductive Task
  /-- About to read the cache. -/
  | reading (symbol : String) (startDate endDate : Option ℤ)
  /-- About to read the database. -/
  | missed (symbol : String) (startDate endDate : Option ℤ)
  /-- About to write the entry. -/
  | loaded (symbol : String) (startDate endDate : Option ℤ) (bars : List OhlcvBar)
  | fetched (symbol : String) (startDate endDate : Option ℤ) (result : List OhlcvBar)
  /-- About to ask the client, which will answer so. -/
  | requesting (symbol : String) (answer : DailyBars symbol)
  /-- In a transaction, with the batches to come and those sent. -/
  | upserting (symbol : String) (rest sent : List (DailyBars symbol)) (totalUpserted : ℕ)
  /-- About to delete the entry. -/
  | committed (symbol : String) (totalUpserted : ℕ)
  | synced (symbol : String) (totalUpserted : ℕ)
  | failed (exn : Exn)

/-- A call has returned or raised. -/
def Task.finished : Task → Bool
  | .fetched _ _ _ _ | .synced _ _ | .failed _ => true
  | _ => false

/-- A commit of a sync: its number and symbol, and the rows before it. -/
structure Commit where
  id : ℕ
  symbol : String
  before : List OhlcvRow

/-- The database, the cache and the calls by their numbers. The commits, the latest first, are kept for what
is said about runs; no step reads them. -/
structure System (T : Type) where
  rows : List OhlcvRow
  redis : Redis T := Dict.empty
  tasks : ℕ → Option Task := fun _ => none
  commits : List Commit := []

inductive Event
  | fetch (id : ℕ) (symbol : String) (startDate endDate : Option ℤ)
  | sync (id : ℕ) (symbol : String) (answer : DailyBars symbol)
  /-- The call goes on to its next await. -/
  | advance (id : ℕ)

variable {T : Type}

def System.setTask (s : System T) (id : ℕ) (task : Task) : System T :=
  { s with tasks := Function.update s.tasks id (some task) }

/-- One step of a call. -/
def advance (codec : Codec T Exn (List OhlcvBar)) (s : System T) (id : ℕ) : Task → System T
  | .reading symbol startDate endDate =>
    match RedisCache.getJson codec s.redis ohlcvCacheNs symbol with
    | .ok (some bars) => s.setTask id (.fetched symbol startDate endDate (inRange startDate endDate bars))
    | .ok none | .error (.cacheError _) => s.setTask id (.missed symbol startDate endDate)
    | .error e => s.setTask id (.failed e)
  | .missed symbol startDate endDate =>
    let bars := dailyBars symbol s.rows
    if bars = [] then s.setTask id (.fetched symbol startDate endDate (inRange startDate endDate bars))
    else s.setTask id (.loaded symbol startDate endDate bars)
  | .loaded symbol startDate endDate bars =>
    { s.setTask id (.fetched symbol startDate endDate (inRange startDate endDate bars)) with
      redis := RedisCache.setJson codec s.redis ohlcvCacheNs symbol bars }
  | .requesting symbol answer =>
    if answer.bars = [] then s.setTask id (.synced symbol 0)
    else s.setTask id (.upserting symbol (batches answer) [] 0)
  | .upserting symbol (batch :: rest) sent totalUpserted =>
    -- a statement that meets a row twice fails, and the transaction with it
    if (batch.bars.map rowOf).Pairwise (fun a b => ¬ ohlcvConstraint.Conflict a b) then
      s.setTask id (.upserting symbol rest (sent ++ [batch]) (totalUpserted + batch.bars.length))
    else s.setTask id (.failed (.databaseError ("sync_daily_ohlcv DB error (" ++ symbol ++ ")")))
  | .upserting symbol [] sent totalUpserted =>
    { s.setTask id (.committed symbol totalUpserted) with
      rows := sent.foldl upsertBatch s.rows
      commits := ⟨id, symbol, s.rows⟩ :: s.commits }
  | .committed symbol totalUpserted =>
    { s.setTask id (.synced symbol totalUpserted) with
      redis := (RedisCache.delete s.redis ohlcvCacheNs symbol).2 }
  | .fetched _ _ _ _ | .synced _ _ | .failed _ => s

/-- A call begins under a number of its own, or goes on. -/
def step (codec : Codec T Exn (List OhlcvBar)) (s : System T) : Event → System T
  | .fetch id symbol startDate endDate =>
    if (s.tasks id).isSome then s else s.setTask id (.reading symbol startDate endDate)
  | .sync id symbol answer => if (s.tasks id).isSome then s else s.setTask id (.requesting symbol answer)
  | .advance id =>
    match s.tasks id with
    | none => s
    | some task => advance codec s id task

/-- Every call has finished. -/
def System.Quiet (s : System T) : Prop := ∀ id task, s.tasks id = some task → task.finished = true

end KisDataProvider

end TradingAgent
