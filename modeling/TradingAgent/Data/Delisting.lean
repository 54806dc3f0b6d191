/-
What a sync of the stock master does to the table. A stock that neither archive lists becomes inactive,
whatever kept it out of them; the others become what the last record of their symbol says. So the soft
delete means a delisting exactly if the stocks of a market whose file is missing are listed elsewhere, the
records of a symbol agree, and a broken file brings nothing new.
-/
import TradingAgent.Data.StockMaster

namespace TradingAgent

open Wp

namespace KISClient

/-- The file was downloaded and every member of it was read. -/
def Complete : Download → Prop
  | .response status (.ok members) => status = 200 ∧ ∀ content ∈ members, content.isOk = true
  | _ => False

instance : ∀ file, Decidable (Complete file)
  | .response status (.ok members) => inferInstanceAs (Decidable (status = 200 ∧ ∀ c ∈ members, c.isOk = true))
  | .response _ (.error _) | .clientError | .raises _ => .isFalse id

/-- The records that parsing the file of a market delivers. -/
def records (files : MarketType → Download) (market : MarketType) : List StockInfo :=
  match parseMst market (part2Len market) (files market) with
  | .ok stocks => stocks
  | .error _ => []

theorem marketType_of_parseLine {market : MarketType} {part2Len : ℕ} {line : List Char} {stock : StockInfo}
    (h : parseLine market part2Len line = some stock) : stock.marketType = market := by
  unfold parseLine at h
  dsimp only at h
  split at h
  · cases h
  split at h
  · cases h
  split at h
  · cases h
    rfl
  · cases h

theorem marketType_of_parseMembers {market : MarketType} {part2Len : ℕ} :
    ∀ {members : List (Except ZipError (List Char))} {stocks : List StockInfo},
      parseMembers market part2Len members = .ok stocks → ∀ stock ∈ stocks, stock.marketType = market
  | [], stocks, h, stock, hstock => by
    cases h
    cases hstock
  | .error .badZipFile :: _, stocks, h, stock, hstock => by
    cases h
    cases hstock
  | .error (.other exn) :: _, stocks, h, _, _ => by cases h
  | .ok content :: members, stocks, h, stock, hstock => by
    obtain ⟨rest, hrest, hstocks⟩ := bind_eq_ok.1 h
    cases hstocks
    rcases List.mem_append.1 hstock with hline | hmem
    · obtain ⟨line, -, hline⟩ := List.mem_filterMap.1 hline
      exact marketType_of_parseLine hline
    · exact marketType_of_parseMembers hrest stock hmem

theorem getStockMaster_eq_ok {files : MarketType → Download} {stocks : List StockInfo}
    (h : getStockMaster files = .ok stocks) : stocks = records files .kospi ++ records files .kosdaq := by
  obtain ⟨kospi, hkospi, h⟩ := bind_eq_ok.1 h
  obtain ⟨kosdaq, hkosdaq, h⟩ := bind_eq_ok.1 h
  cases h
  unfold records
  rw [hkospi, hkosdaq]

end KISClient

namespace KisDataProvider

open KISClient

variable {T : Type} {refusal : List StockInfo → String} {globMatch : String → String → Bool}
  {files : MarketType → Download} {table : StockMasterTable} {stocks : List StockInfo}

/-! ## The transaction -/

theorem flatten_stockBatches (stocks : List StockInfo) : (stockBatches stocks).flatten = stocks := by
  have hfirsts : ∀ k, ((List.range k).map fun i =>
      (stocks.drop (i * stockBatchSize)).take stockBatchSize).flatten = stocks.take (k * stockBatchSize) := by
    intro k
    induction k with
    | zero => rw [zero_mul, List.take_zero]; rfl
    | succ k ih =>
      rw [List.range_succ, List.map_append, List.flatten_append, ih, Nat.succ_mul, List.take_add]
      exact congrArg _ (List.append_nil _)
  unfold stockBatches
  rw [hfirsts]
  refine List.take_of_length_le ?_
  unfold stockBatchSize
  omega

/-- All batches go through if the database takes each of them. -/
theorem foldlM_upsertStocks_eq_ok {batches : List (List StockInfo)} {table table' : StockMasterTable} :
    batches.foldlM (upsertStocks refusal) table = .ok table' ↔
      (∀ batch ∈ batches, Accepted batch) ∧
        batches.flatten.foldl (fun table stock => table.set stock.symbol (stockRow stock)) table = table' := by
  induction batches generalizing table with
  | nil => simp [pure, Except.pure]
  | cons batch batches ih =>
    rw [List.foldlM_cons, bind_eq_ok, List.flatten_cons, List.foldl_append, List.forall_mem_cons]
    by_cases hbatch : Accepted batch
    · have hstep : upsertStocks refusal table batch =
          .ok (batch.foldl (fun table stock => table.set stock.symbol (stockRow stock)) table) := if_pos hbatch
      simp only [hstep, Except.ok.injEq, exists_eq_left', ih, hbatch, true_and]
    · have hstep : upsertStocks refusal table batch = .error (refusal batch) := if_neg hbatch
      simp only [hstep, hbatch, false_and, reduceCtorEq, exists_false]

/-- The records that a sync stores, if it gets that far. -/
def storedRecords (files : MarketType → Download) : Option (List StockInfo) :=
  match getStockMaster files with
  | .ok stocks => if stocks ≠ [] ∧ ∀ batch ∈ stockBatches stocks, Accepted batch then some stocks else none
  | .error _ => none

/-- The table after a transaction. -/
def committed (table : StockMasterTable) (stocks : List StockInfo) : StockMasterTable :=
  deactivateMissing (stocks.map (·.symbol))
    (stocks.foldl (fun table stock => table.set stock.symbol (stockRow stock)) table)

theorem syncStockMaster_db (s : Store StockMasterTable T) :
    (left ((syncStockMaster refusal globMatch files).run s)).db =
      (storedRecords files).elim s.db (committed s.db) := by
  unfold syncStockMaster storedRecords
  cases hget : getStockMaster files with
  | error e => rfl
  | ok stocks =>
    by_cases hnil : stocks = []
    · subst hnil
      rfl
    · dsimp only
      simp only [MonadExcept.ofExcept, EStateM.run, bind, EStateM.bind, pure, EStateM.pure, if_neg hnil, Wp.get_apply]
      cases hfold : (stockBatches stocks).foldlM (upsertStocks refusal) s.db with
      | error exc =>
        rw [if_neg ?_]
        · rfl
        rintro ⟨-, haccepted⟩
        rw [foldlM_upsertStocks_eq_ok.2 ⟨haccepted, rfl⟩] at hfold
        cases hfold
      | ok table =>
        obtain ⟨haccepted, htable⟩ := foldlM_upsertStocks_eq_ok.1 hfold
        rw [if_pos ⟨hnil, haccepted⟩, ← htable, flatten_stockBatches]
        rfl

/-! ## The rows after a transaction -/

/-- The last record of a symbol. -/
def lastRecord (stocks : List StockInfo) (symbol : String) : Option StockInfo :=
  (stocks.filter (fun stock => stock.symbol = symbol)).getLast?

theorem lastRecord_eq_none_iff {symbol : String} :
    lastRecord stocks symbol = none ↔ symbol ∉ stocks.map (·.symbol) := by
  unfold lastRecord
  rw [List.getLast?_eq_none_iff, List.filter_eq_nil_iff, List.mem_map]
  simp

theorem mem_of_lastRecord {symbol : String} {last : StockInfo} (h : lastRecord stocks symbol = some last) :
    last ∈ stocks ∧ last.symbol = symbol := by
  have hmem := List.mem_of_getLast? h
  rw [List.mem_filter, decide_eq_true_eq] at hmem
  exact hmem

/-- The row of a stock is that of its last record, or without one the stored row, inactive. -/
theorem get?_committed (table : StockMasterTable) (stocks : List StockInfo) (symbol : String) :
    (committed table stocks).get? symbol =
      (lastRecord stocks symbol).elim ((table.get? symbol).map fun row => { row with isActive := false })
        (fun last => some (stockRow last)) := by
  unfold committed deactivateMissing
  rw [Dict.get?_mapValues, Dict.get?_foldl_set]
  change Option.map _ ((lastRecord stocks symbol).elim _ _) = _
  cases hlast : lastRecord stocks symbol with
  | none =>
    have hmissing := lastRecord_eq_none_iff.1 hlast
    simp only [Option.elim_none]
    refine congrArg (Option.map · (table.get? symbol)) (funext fun row => ?_)
    cases hactive : row.isActive with
    | true => rw [if_pos ⟨rfl, hmissing⟩]
    | false => rw [if_neg (by simp), ← hactive]
  | some last =>
    have hlisted : ¬ symbol ∉ stocks.map (·.symbol) := by
      rw [← lastRecord_eq_none_iff, hlast]
      simp
    simp only [Option.elim_some, Option.map_some]
    rw [if_neg fun h => hlisted h.2]

theorem get?_committed_of_last {symbol : String} {last : StockInfo} (h : lastRecord stocks symbol = some last) :
    (committed table stocks).get? symbol = some (stockRow last) := by
  rw [get?_committed, h]
  rfl

theorem get?_committed_of_none {symbol : String} (h : lastRecord stocks symbol = none) :
    (committed table stocks).get? symbol = (table.get? symbol).map fun row => { row with isActive := false } := by
  rw [get?_committed, h]
  rfl

theorem stockRow_inj {a b : StockInfo} (hsymbol : a.symbol = b.symbol) (h : stockRow a = stockRow b) : a = b := by
  cases a
  cases b
  cases hsymbol
  simp only [stockRow, StockMasterRow.mk.injEq, and_true] at h
  rw [h.1, MarketType.value_injective h.2]

/-! ## What the soft delete means -/

/-- A stock stays active unless the complete file of its own market leaves it out; the stocks of a complete
file are active with their name and market; a market whose file is not complete keeps its stocks. -/
structure SoftDeletes (files : MarketType → Download) (table table' : StockMasterTable) : Prop where
  deactivated : ∀ symbol row, table.get? symbol = some row → row.isActive = true →
    (∃ row', table'.get? symbol = some row' ∧ row'.isActive = true) ∨
      ∃ market, row.marketType = market.value ∧ Complete (files market) ∧
        symbol ∉ (records files market).map (·.symbol)
  listed : ∀ market, Complete (files market) → ∀ stock ∈ records files market,
    table'.get? stock.symbol = some (stockRow stock)
  unchanged : ∀ market, ¬ Complete (files market) → ∀ symbol row, row.marketType = market.value →
    (table'.get? symbol = some row ↔ table.get? symbol = some row)

/-- The records of the complete files are in the table already. -/
def AlreadyStored (files : MarketType → Download) (table : StockMasterTable) : Prop :=
  ∀ market, Complete (files market) → ∀ stock ∈ records files market,
    table.get? stock.symbol = some (stockRow stock)

/-- The active stocks that are not listed belong to markets with complete files; the records of complete files
are the last of their symbols; and what is listed of a market whose file is not complete, or stored under
it and listed, is in the table already. -/
structure Settles (files : MarketType → Download) (table : StockMasterTable) (stocks : List StockInfo) : Prop where
  covered : ∀ symbol row, table.get? symbol = some row → row.isActive = true →
    symbol ∉ stocks.map (·.symbol) → ∃ market, row.marketType = market.value ∧ Complete (files market)
  agree : ∀ market, Complete (files market) → ∀ stock ∈ records files market,
    lastRecord stocks stock.symbol = some stock
  known : ∀ market, ¬ Complete (files market) → ∀ symbol last, lastRecord stocks symbol = some last →
    (last.marketType = market ∨ ∃ row, table.get? symbol = some row ∧ row.marketType = market.value) →
      table.get? symbol = some (stockRow last)

theorem mem_of_mem_records (h : storedRecords files = some stocks) {market : MarketType} {stock : StockInfo}
    (hstock : stock ∈ records files market) : stock ∈ stocks := by
  unfold storedRecords at h
  split at h
  · rename_i all hget
    split at h
    · cases h
      rw [getStockMaster_eq_ok hget]
      cases market with
      | kospi => exact List.mem_append_left _ hstock
      | kosdaq => exact List.mem_append_right _ hstock
    · cases h
  · cases h

theorem SoftDeletes.settles (hstocks : storedRecords files = some stocks)
    (h : SoftDeletes files table (committed table stocks)) : Settles files table stocks where
  covered symbol row hrow hactive hmissing := by
    rcases h.deactivated symbol row hrow hactive with ⟨row', hrow', hactive'⟩ | ⟨market, hmarket, hcomplete, -⟩
    · rw [get?_committed_of_none (lastRecord_eq_none_iff.2 hmissing), hrow] at hrow'
      cases hrow'
      cases hactive'
    · exact ⟨market, hmarket, hcomplete⟩
  agree market hcomplete stock hstock := by
    cases hlast : lastRecord stocks stock.symbol with
    | none =>
      refine absurd ?_ (lastRecord_eq_none_iff.1 hlast)
      exact List.mem_map_of_mem (mem_of_mem_records hstocks hstock)
    | some last =>
      have hlisted := h.listed market hcomplete stock hstock
      rw [get?_committed_of_last hlast] at hlisted
      rw [stockRow_inj (mem_of_lastRecord hlast).2 (Option.some.inj hlisted)]
  known market hincomplete symbol last hlast hmarket := by
    rcases hmarket with rfl | ⟨row, hrow, hmarket⟩
    · exact (h.unchanged _ hincomplete symbol _ rfl).1 (get?_committed_of_last hlast)
    · have hkept := (h.unchanged market hincomplete symbol row hmarket).2 hrow
      rw [get?_committed_of_last hlast] at hkept
      rw [hrow, hkept]

/-- A stock of a market whose file is not complete is listed, or not active to begin with. -/
theorem Settles.inactive (h : Settles files table stocks) {market : MarketType}
    (hincomplete : ¬ Complete (files market)) {symbol : String} {row : StockMasterRow}
    (hrow : table.get? symbol = some row) (hmarket : row.marketType = market.value)
    (hlast : lastRecord stocks symbol = none) : row.isActive = false := by
  by_contra hactive
  obtain ⟨market', hmarket', hcomplete⟩ :=
    h.covered symbol row hrow (Bool.not_eq_false _ ▸ hactive) (lastRecord_eq_none_iff.1 hlast)
  rw [MarketType.value_injective (hmarket.symm.trans hmarket')] at hincomplete
  exact hincomplete hcomplete

theorem Settles.softDeletes (hstocks : storedRecords files = some stocks) (h : Settles files table stocks) :
    SoftDeletes files table (committed table stocks) where
  deactivated symbol row hrow hactive := by
    cases hlast : lastRecord stocks symbol with
    | some last => exact .inl ⟨stockRow last, get?_committed_of_last hlast, rfl⟩
    | none =>
      have hmissing := lastRecord_eq_none_iff.1 hlast
      obtain ⟨market, hmarket, hcomplete⟩ := h.covered symbol row hrow hactive hmissing
      refine .inr ⟨market, hmarket, hcomplete, fun hmem => hmissing ?_⟩
      obtain ⟨stock, hstock, rfl⟩ := List.mem_map.1 hmem
      exact List.mem_map_of_mem (mem_of_mem_records hstocks hstock)
  listed market hcomplete stock hstock := get?_committed_of_last (h.agree market hcomplete stock hstock)
  unchanged market hincomplete symbol row hmarket := by
    cases hlast : lastRecord stocks symbol with
    | some last =>
      rw [get?_committed_of_last hlast]
      constructor
      · intro hrow
        cases hrow
        exact h.known market hincomplete symbol last hlast (.inl (MarketType.value_injective hmarket))
      · intro hrow
        rw [← h.known market hincomplete symbol last hlast (.inr ⟨row, hrow, hmarket⟩), hrow]
    | none =>
      rw [get?_committed_of_none hlast]
      constructor
      · intro hrow
        obtain ⟨row₀, hrow₀, rfl⟩ := Option.map_eq_some_iff.1 hrow
        rw [hrow₀, ← h.inactive hincomplete hrow₀ hmarket hlast]
      · intro hrow
        rw [hrow, ← h.inactive hincomplete hrow hmarket hlast]
        rfl

/-- A sync soft-deletes what has been delisted exactly if its records settle the table or, where the sync
fails or has no records, are in it already. -/
theorem softDeletes_iff (refusal : List StockInfo → String) (globMatch : String → String → Bool)
    (files : MarketType → Download) (s : Store StockMasterTable T) :
    SoftDeletes files s.db (left ((syncStockMaster refusal globMatch files).run s)).db ↔
      (storedRecords files).elim (AlreadyStored files s.db) (Settles files s.db) := by
  rw [syncStockMaster_db]
  cases hstocks : storedRecords files with
  | none =>
    constructor
    · exact fun h => h.listed
    · exact fun h => ⟨fun _ row hrow hactive => .inl ⟨row, hrow, hactive⟩, h, fun _ _ _ _ _ => Iff.rfl⟩
  | some stocks => exact ⟨fun h => h.settles hstocks, fun h => h.softDeletes hstocks⟩

/-- A line of the file of KOSPI. -/
def kospiLine (code name : String) : List Char :=
  code.toList ++ "   KR7005930003".toList ++ name.toList ++ List.replicate 228 'X'

/-- The file of KOSPI arrives, that of KOSDAQ does not. -/
def kosdaqDown : MarketType → Download
  | .kospi => .response 200 (.ok [.ok (kospiLine "005930" "삼성전자")])
  | .kosdaq => .response 500 (.ok [])

def kosdaqStock : StockMasterTable :=
  Dict.empty.set "035720" { name := "카카오", marketType := "kosdaq", isActive := true }

/-- The stock of the market whose file did not arrive is deactivated. -/
theorem not_softDeletes_kosdaqDown :
    ¬ SoftDeletes kosdaqDown kosdaqStock
      (left ((syncStockMaster (fun _ => "") (fun _ _ => true) kosdaqDown).run
        ({ db := kosdaqStock } : Store StockMasterTable String))).db := by
  intro h
  have hkept := (h.unchanged .kosdaq (by decide) "035720"
    { name := "카카오", marketType := "kosdaq", isActive := true } rfl).2 (by decide +kernel)
  exact absurd hkept (by decide +kernel)

end KisDataProvider

end TradingAgent
