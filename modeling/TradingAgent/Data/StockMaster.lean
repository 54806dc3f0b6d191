/-
The stock master: two archives, one for each market, are downloaded and parsed, their records are stored
together, and what neither of them lists is deactivated. A download that fails delivers no records, and an
archive that breaks delivers those before the break, so the table is also told of stocks that are missing
only because their file is.
-/
import TradingAgent.Core.Enums
import TradingAgent.Data.Cache
import TradingAgent.Lib.PyDecimal

namespace TradingAgent

open Wp

structure StockInfo where
  symbol : String
  name : String
  marketType : MarketType
  deriving DecidableEq

/-! ## The client -/

/-- Why an archive or a member of it cannot be read. -/
inductive ZipError
  | badZipFile
  | other (exn : Exn)

/-- What opening a body as an archive gives: its members in their order, each with its decoded text. -/
abbrev Archive := Except ZipError (List (Except ZipError (List Char)))

/-- What a request for a file comes to. -/
inductive Download
  | response (status : ℕ) (body : Archive)
  | clientError
  /-- Any other exception, also that of a client that is not connected. -/
  | raises (exn : Exn)

namespace KISClient

/-- Where `str.splitlines` ends a line. -/
def isLineEnd (c : Char) : Bool :=
  (0xa ≤ c.toNat && c.toNat ≤ 0xd) || (0x1c ≤ c.toNat && c.toNat ≤ 0x1e) ||
  [0x85, 0x2028, 0x2029].contains c.toNat

/-- The lines of a text, the first of which has begun with the given characters, the latest first. -/
def splitlines (line : List Char) : List Char → List (List Char)
  | [] => if line = [] then [] else [line.reverse]
  | '\r' :: '\n' :: cs => line.reverse :: splitlines [] cs
  | c :: cs => if isLineEnd c then line.reverse :: splitlines [] cs else splitlines (c :: line) cs

/-- Six decimal digits. -/
def codePattern (code : List Char) : Bool := code.length = 6 && code.all (fun c => (PyInt.digit? c).isSome)

/-- The record of a line: a code of nine characters, one of twelve, the name, and a second part of fixed
length. -/
def parseLine (marketType : MarketType) (part2Len : ℕ) (line : List Char) : Option StockInfo :=
  if line.length ≤ part2Len then none
  else
    let part1 := line.take (line.length - part2Len)
    if part1.length < 21 then none
    else
      let shortCode := PyDecimal.strip (part1.take 9)
      let koreanName := PyDecimal.strip (part1.drop 21)
      if codePattern shortCode then
        some { symbol := String.ofList shortCode, name := String.ofList koreanName, marketType }
      else none

/-- The records of the members, up to the first that is broken. -/
def parseMembers (marketType : MarketType) (part2Len : ℕ) :
    List (Except ZipError (List Char)) → Except Exn (List StockInfo)
  | [] => .ok []
  | .error .badZipFile :: _ => .ok []
  | .error (.other exn) :: _ => .error exn
  | .ok content :: members => do
    let stocks ← parseMembers marketType part2Len members
    return (splitlines [] content).filterMap (parseLine marketType part2Len) ++ stocks

/-- Download an archive and parse its records. -/
def parseMst (marketType : MarketType) (part2Len : ℕ) : Download → Except Exn (List StockInfo)
  | .clientError => .ok []
  | .raises exn => .error exn
  | .response status body =>
    if status ≠ 200 then .ok []
    else match body with
      | .error .badZipFile => .ok []
      | .error (.other exn) => .error exn
      | .ok members => parseMembers marketType part2Len members

/-- The length of the second part of a market's lines. -/
def part2Len : MarketType → ℕ
  | .kospi => 228
  | .kosdaq => 222

/-- The records of both archives. -/
def getStockMaster (files : MarketType → Download) : Except Exn (List StockInfo) := do
  let kospi ← parseMst .kospi (part2Len .kospi) (files .kospi)
  let kosdaq ← parseMst .kosdaq (part2Len .kosdaq) (files .kosdaq)
  return kospi ++ kosdaq

end KISClient

/-! ## The table -/

/-- A row of the table of stocks, without its symbol, which is the primary key. -/
structure StockMasterRow where
  name : String
  marketType : String
  isActive : Bool
  deriving DecidableEq

abbrev StockMasterTable := Dict String StockMasterRow

namespace KisDataProvider

def masterCacheNs : String := "kis:master"

def stockBatchSize : ℕ := 500

def stockBatches (stocks : List StockInfo) : List (List StockInfo) :=
  (List.range ((stocks.length + stockBatchSize - 1) / stockBatchSize)).map fun i =>
    (stocks.drop (i * stockBatchSize)).take stockBatchSize

/-- The row of a record. -/
def stockRow (stock : StockInfo) : StockMasterRow :=
  { name := stock.name, marketType := stock.marketType.value, isActive := true }

/-- A statement that the database takes: no symbol stands in it twice, and every name fits into its column. -/
def Accepted (batch : List StockInfo) : Prop :=
  (batch.map (·.symbol)).Nodup ∧ ∀ stock ∈ batch, stock.name.length ≤ 100 ∧ Char.ofNat 0 ∉ stock.name.toList

instance (batch : List StockInfo) : Decidable (Accepted batch) := inferInstanceAs (Decidable (_ ∧ _))

/-- Insert or update the rows of a batch. What the database says of one that it does not take is a
parameter. -/
def upsertStocks (refusal : List StockInfo → String) (table : StockMasterTable) (batch : List StockInfo) :
    Except String StockMasterTable :=
  if Accepted batch then .ok (batch.foldl (fun table stock => table.set stock.symbol (stockRow stock)) table)
  else .error (refusal batch)

/-- Deactivate the stocks that are active and not among the symbols. -/
def deactivateMissing (symbols : List String) (table : StockMasterTable) : StockMasterTable :=
  table.mapValues fun symbol row =>
    if row.isActive = true ∧ symbol ∉ symbols then { row with isActive := false } else row

variable {T : Type}

def syncStockMaster (refusal : List StockInfo → String) (globMatch : String → String → Bool)
    (files : MarketType → Download) : EStateM Exn (Store StockMasterTable T) ℕ := do
  let stocks ← MonadExcept.ofExcept (KISClient.getStockMaster files)
  if stocks = [] then return 0
  let s ← get
  match (stockBatches stocks).foldlM (upsertStocks refusal) s.db with
  | .error exc => throw (.databaseError ("sync_stock_master DB error: " ++ exc))
  | .ok table =>
    modify fun s => {
      db := deactivateMissing (stocks.map (·.symbol)) table
      redis := (RedisCache.clearNamespace globMatch s.redis masterCacheNs).2 }
    return ((stockBatches stocks).map List.length).sum

end KisDataProvider

end TradingAgent
