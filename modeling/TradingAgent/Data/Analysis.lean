/-
The tables of the analysis data with their unique constraints, the responses read from them, and what the
providers need from outside: the texts of entries, the matching of keys, and the parsers of the standard
library. Numbers of rows and the raw answers kept beside them are read by nobody and left out.
-/
import TradingAgent.Data.Cache
import TradingAgent.Lib.PyDate
import TradingAgent.Lib.PyDecimal
import TradingAgent.Lib.Table
import TradingAgent.Lib.Upsert
import Mathlib.Data.List.Sort

namespace TradingAgent

open CacheAside Column

/-! ## Rows and responses -/

/-- A news article; its link is unique. The time of publication is in seconds. -/
structure NewsArticle where
  source : DataSourceType
  symbol : Option String
  title : String
  description : Option String
  link : String
  publishedAt : ℤ
  sentimentScore : Option Decimal := none
  sentimentLabel : Option SentimentLabel := none
  deriving DecidableEq

structure NewsArticleInfo where
  source : DataSourceType
  symbol : Option String
  title : String
  description : Option String
  link : String
  publishedAt : ℤ
  sentimentScore : Option Decimal
  sentimentLabel : Option SentimentLabel
  deriving DecidableEq

/-- A disclosure; its receipt number is unique. -/
structure Disclosure where
  corpCode : String
  symbol : String
  reportName : String
  receiptNo : String
  receiptDate : PyDate
  filerName : Option String
  deriving DecidableEq

structure DisclosureInfo where
  corpCode : String
  symbol : String
  reportName : String
  receiptNo : String
  receiptDate : PyDate
  filerName : Option String
  deriving DecidableEq

/-- A financial statement, unique by symbol, year, quarter and type of report as long as it has a quarter. -/
structure FinancialStatement where
  symbol : String
  corpCode : String
  reportType : ReportType
  fiscalYear : ℤ
  fiscalQuarter : Option ℤ
  revenue : Option Decimal
  operatingIncome : Option Decimal
  netIncome : Option Decimal
  totalAssets : Option Decimal
  totalEquity : Option Decimal
  totalLiabilities : Option Decimal
  per : Option Decimal := none
  pbr : Option Decimal := none
  roe : Option Decimal := none
  eps : Option Decimal := none
  bps : Option Decimal := none
  deriving DecidableEq

structure FinancialStatementInfo where
  symbol : String
  corpCode : String
  reportType : ReportType
  fiscalYear : ℤ
  fiscalQuarter : Option ℤ
  revenue : Option Decimal
  operatingIncome : Option Decimal
  netIncome : Option Decimal
  totalAssets : Option Decimal
  totalEquity : Option Decimal
  totalLiabilities : Option Decimal
  per : Option Decimal
  pbr : Option Decimal
  roe : Option Decimal
  eps : Option Decimal
  bps : Option Decimal
  deriving DecidableEq

/-- A value of an economic indicator, unique by source, indicator and date. -/
structure EconomicIndicator where
  source : DataSourceType
  indicatorCode : String
  indicatorName : String
  date : PyDate
  value : PyDecimal.Value
  unit : Option String
  deriving DecidableEq

structure EconomicIndicatorInfo where
  source : DataSourceType
  indicatorCode : String
  indicatorName : String
  date : PyDate
  value : Decimal
  unit : Option String
  deriving DecidableEq

/-! ## Columns -/

def NewsArticle.fits (row : NewsArticle) : Bool :=
  row.symbol.all (textFits (some 20)) && textFits none row.title && row.description.all (textFits none) &&
    textFits (some 500) row.link

-- Corporation codes come from a list in which all have eight digits.

def Disclosure.fits (row : Disclosure) : Bool :=
  textFits (some 20) row.symbol && textFits (some 300) row.reportName && textFits (some 20) row.receiptNo &&
    row.filerName.all (textFits (some 100))

def FinancialStatement.fits (row : FinancialStatement) : Bool :=
  textFits (some 20) row.symbol && integerFits row.fiscalYear &&
    [row.revenue, row.operatingIncome, row.netIncome, row.totalAssets, row.totalEquity, row.totalLiabilities].all
      (fun amount => amount.all (numericFits 20 0))

def EconomicIndicator.fits (row : EconomicIndicator) : Bool :=
  textFits (some 50) row.indicatorCode && textFits (some 200) row.indicatorName && row.unit.all (textFits (some 50)) &&
    match row.value with
    | .finite value => numericFits 20 6 value
    | .special => true

/-! ## Constraints -/

/-- `uq_news_article_link`: the article that comes again may belong to another symbol. -/
def newsConstraint : Upsert.Constraint NewsArticle String where
  key row := some row.link
  merge row new := { row with
    title := new.title, description := new.description, symbol := new.symbol, publishedAt := new.publishedAt }
  key_merge _ _ := rfl

/-- `uq_disclosure_receipt_no`: the disclosure that comes again stays with its symbol. -/
def disclosureConstraint : Upsert.Constraint Disclosure String where
  key row := some row.receiptNo
  merge row new := { row with reportName := new.reportName, filerName := new.filerName }
  key_merge _ _ := rfl

/-- `uq_financial_statement`: a report without a quarter is in conflict with no other. -/
def financialConstraint : Upsert.Constraint FinancialStatement (String × ℤ × ℤ × ReportType) where
  key row := row.fiscalQuarter.map (fun quarter => (row.symbol, row.fiscalYear, quarter, row.reportType))
  merge row new := { row with
    revenue := new.revenue, operatingIncome := new.operatingIncome, netIncome := new.netIncome
    totalAssets := new.totalAssets, totalEquity := new.totalEquity, totalLiabilities := new.totalLiabilities }
  key_merge _ _ := rfl

/-- `uq_economic_indicator`. -/
def indicatorConstraint : Upsert.Constraint EconomicIndicator (DataSourceType × String × PyDate) where
  key row := some (row.source, row.indicatorCode, row.date)
  merge row new := { row with indicatorName := new.indicatorName, value := new.value, unit := new.unit }
  key_merge _ _ := rfl

/-! ## The database and the outside -/

structure AnalysisDb where
  newsArticles : List NewsArticle := []
  disclosures : List Disclosure := []
  financialStatements : List FinancialStatement := []
  economicIndicators : List EconomicIndicator := []
  deriving DecidableEq

/-- What the providers use of other software. `T` is the type of the texts in the cache. -/
structure Services (T : Type) where
  /-- Whether a key matches a pattern of `SCAN`. -/
  globMatch : String → String → Bool
  newsText : Codec T Exn (List NewsArticleInfo)
  disclosuresText : Codec T Exn (List DisclosureInfo)
  financialsText : Codec T Exn FinancialStatementInfo
  indicatorsText : Codec T Exn (List EconomicIndicatorInfo)
  /-- A plain text as an entry, and an entry as a plain text. -/
  ofText : String → T
  toText : T → String
  /-- The order in which the database holds rows between which a query does not decide. -/
  rowOrder : (α : Type) → List α → List α
  rowOrder_perm : ∀ α rows, (rowOrder α rows).Perm rows
  /-- The text of the error when one statement meets the same row twice. -/
  cardinalityViolation : String
  /-- The text of the error when a value does not fit its column. -/
  dataException : String
  /-- `email.utils.parsedate_to_datetime`; `none` is a `ValueError`. -/
  parsedateToDatetime : String → Option ℤ
  /-- `html.unescape`. -/
  unescape : String → String
  /-- `datetime.strptime` with the format `%Y%m%d`; `none` is a `ValueError`. -/
  strptime : String → Option PyDate

/-- A bound of a range of dates in a key. -/
def dateText : Option PyDate → String
  | none => "none"
  | some d => d.isoformat

theorem dateText_injective : Function.Injective dateText := by
  have hnone : ∀ d : PyDate, d.isoformat ≠ "none" := fun d h => by
    have hlength := d.length_isoformat
    rw [h] at hlength
    exact absurd hlength (by decide)
  intro a b h
  cases a with
  | none =>
    cases b with
    | none => rfl
    | some b => exact absurd h.symm (hnone b)
  | some a =>
    cases b with
    | none => exact absurd h (hnone a)
    | some b => rw [PyDate.isoformat_injective h]

theorem colon_notMem_dateText (d : Option PyDate) : ':' ∉ (dateText d).toList := by
  cases d with
  | none => decide
  | some d => exact d.colon_notMem_isoformat

/-- A key made of a text and a range of dates tells all three apart. -/
theorem dateRange_inj {a b : String} {start end' start₂ end₂ : Option PyDate}
    (h : a ++ ":" ++ dateText start ++ ":" ++ dateText end' = b ++ ":" ++ dateText start₂ ++ ":" ++ dateText end₂) :
    a = b ∧ start = start₂ ∧ end' = end₂ := by
  obtain ⟨hfront, hend⟩ := Keys.join_inj (colon_notMem_dateText _) (colon_notMem_dateText _) h
  obtain ⟨ha, hstart⟩ := Keys.join_inj (colon_notMem_dateText _) (colon_notMem_dateText _) hfront
  exact ⟨ha, dateText_injective hstart, dateText_injective hend⟩

/-- The rows of a statement stored in their table. One that does not fit fails the whole statement. -/
def Services.execute {T α κ : Type} [DecidableEq κ] (S : Services T) (c : Upsert.Constraint α κ) (fits : α → Bool)
    (rows values : List α) : Except String (List α) :=
  if values.all fits then
    match Upsert.all? c rows values with
    | some rows => .ok rows
    | none => .error S.cardinalityViolation
  else .error S.dataException

theorem Services.execute_eq_ok {T α κ : Type} [DecidableEq κ] (S : Services T) {c : Upsert.Constraint α κ}
    {fits : α → Bool} {rows values rows' : List α} : S.execute c fits rows values = .ok rows' ↔
      (∀ v ∈ values, fits v = true) ∧ Upsert.all? c rows values = some rows' := by
  unfold execute
  rw [← List.all_eq_true]
  cases values.all fits <;> cases Upsert.all? c rows values <;> simp

end TradingAgent
