/-
Historical prices of a backtest: the daily bars of the requested symbols and range, in memory, and
the decisions of the language model recorded in the same period, by day and symbol.
-/
import TradingAgent.Core.Models
import Mathlib.Data.List.Sort
import Mathlib.Data.List.Dedup

namespace TradingAgent

/-- A daily bar; the table holds at most one for each symbol and date. -/
structure DailyOHLCV where
  symbol : String
  date : ℤ
  openPrice : Decimal
  high : Decimal
  low : Decimal
  close : Decimal
  volume : ℤ
  deriving DecidableEq

/-- The loaded bars, by date; one for each symbol and date. -/
structure HistoricalDataLoader where
  rows : List DailyOHLCV
  sorted : rows.Pairwise (fun a b => a.date ≤ b.date)
  unique : (rows.map (fun r => (r.symbol, r.date))).Nodup

namespace HistoricalDataLoader

/-- Load the bars of `symbols` between two dates from the table, ordered by date. -/
def load (table : List DailyOHLCV) (hu : (table.map (fun r => (r.symbol, r.date))).Nodup)
    (symbols : List String) (startDate endDate : ℤ) : HistoricalDataLoader where
  rows := (table.filter (fun r => r.symbol ∈ symbols ∧ startDate ≤ r.date ∧ r.date ≤ endDate)).insertionSort
    (fun a b => a.date ≤ b.date)
  sorted := by
    have : Std.Total (fun a b : DailyOHLCV => a.date ≤ b.date) := ⟨fun a b => le_total a.date b.date⟩
    have : IsTrans DailyOHLCV (fun a b => a.date ≤ b.date) := ⟨fun _ _ _ => le_trans⟩
    exact List.pairwise_insertionSort _ _
  unique := by
    have hf := (List.filter_sublist (p := fun r => decide (r.symbol ∈ symbols ∧ startDate ≤ r.date ∧
      r.date ≤ endDate)) (l := table)).map (fun r => (r.symbol, r.date))
    exact (((List.perm_insertionSort (fun a b : DailyOHLCV => a.date ≤ b.date) _).map _).nodup_iff).2
      (hf.nodup hu)

/-- The bar of a symbol on a date. -/
def getOhlcv (L : HistoricalDataLoader) (symbol : String) (targetDate : ℤ) : Option DailyOHLCV :=
  L.rows.find? (fun r => r.symbol = symbol ∧ r.date = targetDate)

/-- The bars of a symbol in a range of dates. -/
def getOhlcvRange (L : HistoricalDataLoader) (symbol : String) (startDate endDate : ℤ) :
    List DailyOHLCV :=
  L.rows.filter (fun r => r.symbol = symbol ∧ startDate ≤ r.date ∧ r.date ≤ endDate)

def getClosePrice (L : HistoricalDataLoader) (symbol : String) (targetDate : ℤ) : Option Decimal :=
  (L.getOhlcv symbol targetDate).map (·.close)

def getOpenPrice (L : HistoricalDataLoader) (symbol : String) (targetDate : ℤ) : Option Decimal :=
  (L.getOhlcv symbol targetDate).map (·.openPrice)

/-- All trading dates, oldest first. -/
def getTradingDates (L : HistoricalDataLoader) : List ℤ := (L.rows.map (·.date)).dedup

theorem pairwise_lt_tradingDates (L : HistoricalDataLoader) : L.getTradingDates.Pairwise (· < ·) := by
  have hle : L.getTradingDates.Pairwise (· ≤ ·) :=
    (List.pairwise_map.2 L.sorted).sublist (List.dedup_sublist _)
  exact (hle.and (List.nodup_dedup _)).imp (fun h => lt_of_le_of_ne h.1 h.2)

theorem mem_tradingDates (L : HistoricalDataLoader) (d : ℤ) :
    d ∈ L.getTradingDates ↔ ∃ r ∈ L.rows, r.date = d := by
  unfold getTradingDates; rw [List.mem_dedup, List.mem_map]

end HistoricalDataLoader

end TradingAgent
