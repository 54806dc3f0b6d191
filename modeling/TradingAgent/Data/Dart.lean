/-
The provider of disclosures and financial statements. Disclosures go into the database by their receipt
numbers, statements by symbol, year, quarter and type of report. Reads go through the cache: those of
disclosures have an entry for every symbol and range of dates, cleared as a namespace, those of statements
one for every symbol, year and type, deleted by its key.
-/
import TradingAgent.Data.Analysis

namespace TradingAgent

open CacheAside Wp

/-- A company in the list of corporation codes. -/
structure CorpEntry where
  stockCode : String
  corpCode : String
  deriving DecidableEq

structure DisclosureItem where
  reportNm : Option String
  rceptNo : Option String
  rceptDt : Option String
  flrNm : Option String
  deriving DecidableEq

structure AccountItem where
  accountNm : Option String
  thstrmAmount : Option String
  deriving DecidableEq

namespace DartProvider

def corpCodeCacheNs : String := "dart:corp_code"

def disclosuresCacheNs : String := "dart:disclosures"

def financialsCacheNs : String := "dart:financials"

variable {T : Type} (S : Services T)

def strip (text : String) : String := String.ofList (PyDecimal.strip text.toList)

/-- The corporation code of a symbol, from the cache or the list, which cannot always be had. -/
def resolveCorpCode (symbol : String) (listing : Option (List CorpEntry)) :
    EStateM Exn (Store AnalysisDb T) (Option String) := do
  let s ← get
  match RedisCache.get s.redis corpCodeCacheNs symbol with
  | some cached => pure (some (S.toText cached))
  | none =>
    let entry := (listing.getD []).find? (fun e => strip e.stockCode = symbol)
    let corpCode := strip (entry.elim "" (·.corpCode))
    if corpCode = "" then pure none
    else do
      modify fun s => { s with redis := RedisCache.set s.redis corpCodeCacheNs symbol (S.ofText corpCode) }
      pure (some corpCode)

/-! ## Disclosures -/

/-- The row of a disclosure of an answer. -/
def disclosureValue (corpCode symbol : String) (item : DisclosureItem) : Except String Disclosure :=
  match item.rceptDt with
  | none => .error "'rcept_dt'"
  | some text =>
    match S.strptime text with
    | none => .error ("time data '" ++ text ++ "' does not match format '%Y%m%d'")
    | some receiptDate =>
      .ok { corpCode, symbol, reportName := item.reportNm.getD "", receiptNo := item.rceptNo.getD ""
            receiptDate, filerName := item.flrNm }

/-- The rows of an answer; what has no receipt number is passed over. -/
def disclosureValues (corpCode symbol : String) (items : List DisclosureItem) :
    Except String (List Disclosure) :=
  (items.filter (fun item => item.rceptNo.getD "" ≠ "")).mapM (disclosureValue S corpCode symbol)

/-- Store the rows of an answer for a symbol, and clear the namespace below the symbol. -/
def storeDisclosures (corpCode symbol : String) (items : List DisclosureItem) :
    EStateM Exn (Store AnalysisDb T) ℕ := do
  let s ← get
  match (do let values ← disclosureValues S corpCode symbol items
            let rows ← S.execute disclosureConstraint Disclosure.fits s.db.disclosures values
            pure (values.length, rows) : Except String (ℕ × List Disclosure)) with
  | .error exc => throw (.databaseError ("sync_disclosures DB error (" ++ symbol ++ "): " ++ exc))
  | .ok (totalUpserted, rows) =>
    modify fun s => {
      db := { s.db with disclosures := rows }
      redis := (RedisCache.clearNamespace S.globMatch s.redis (disclosuresCacheNs ++ ":" ++ symbol)).2 }
    return totalUpserted

def syncDisclosures (symbol : String) (listing : Option (List CorpEntry))
    (data : Except Exn (List DisclosureItem)) : EStateM Exn (Store AnalysisDb T) ℕ := do
  let corpCode := (← resolveCorpCode S symbol listing).getD ""
  if corpCode = "" then return 0
  let items ← MonadExcept.ofExcept data
  if items = [] then return 0
  storeDisclosures S corpCode symbol items

def disclosuresKey (symbol : String) (startDate endDate : Option PyDate) : String :=
  symbol ++ ":" ++ dateText startDate ++ ":" ++ dateText endDate

def isDisclosureOf (symbol : String) (startDate endDate : Option PyDate) (row : Disclosure) : Bool :=
  row.symbol = symbol ∧ (∀ d ∈ startDate, d ≤ row.receiptDate) ∧ (∀ d ∈ endDate, row.receiptDate ≤ d)

/-- The rows of a symbol within a range of dates, the latest first. -/
def disclosureRows (db : AnalysisDb) (symbol : String) (startDate endDate : Option PyDate) : List Disclosure :=
  (S.rowOrder _ (db.disclosures.filter (isDisclosureOf symbol startDate endDate))).insertionSort
    (fun a b => b.receiptDate ≤ a.receiptDate)

def disclosureInfo (row : Disclosure) : DisclosureInfo :=
  { corpCode := row.corpCode, symbol := row.symbol, reportName := row.reportName, receiptNo := row.receiptNo
    receiptDate := row.receiptDate, filerName := row.filerName }

def disclosuresQuery (symbol : String) (startDate endDate : Option PyDate) (db : AnalysisDb) :
    Except Exn (List DisclosureInfo) :=
  .ok ((disclosureRows S db symbol startDate endDate).map disclosureInfo)

def fetchDisclosures (symbol : String) (startDate endDate : Option PyDate := none) :
    EStateM Exn (Store AnalysisDb T) (List DisclosureInfo) :=
  cacheThrough S.disclosuresText .list disclosuresCacheNs (disclosuresKey symbol startDate endDate)
    (disclosuresQuery S symbol startDate endDate)

/-! ## Financial statements -/

/-- The fields of the known accounts. -/
def accountMap : List (String × String) :=
  [("매출액", "revenue"), ("영업이익", "operating_income"), ("당기순이익", "net_income"),
   ("자산총계", "total_assets"), ("자본총계", "total_equity"), ("부채총계", "total_liabilities")]

/-- The amounts of the known accounts. An account that comes again replaces the amount, an empty amount does
not count, and one that is no number leaves the field without one. -/
def parseFinancialItems (items : List AccountItem) : Dict String (Option ℤ) :=
  items.foldl (fun result item =>
    match accountMap.lookup (item.accountNm.getD "") with
    | none => result
    | some field =>
      let rawAmount := item.thstrmAmount.getD ""
      if rawAmount = "" then result
      else result.set field (PyInt.parse? (rawAmount.toList.filter (· ≠ ',')))) Dict.empty

def fiscalQuarter : ReportType → Option ℤ
  | .quarterly => some 1
  | .semiAnnual => some 2
  | .annual => none

/-- The row of the statement that the items of an answer make up. -/
def financialValue (corpCode symbol : String) (fiscalYear : ℤ) (reportType : ReportType)
    (items : List AccountItem) : FinancialStatement :=
  let financials := fun field => ((parseFinancialItems items).get? field).join.map (fun n => (n : Decimal))
  { symbol, corpCode, reportType, fiscalYear
    fiscalQuarter := fiscalQuarter reportType
    revenue := financials "revenue"
    operatingIncome := financials "operating_income"
    netIncome := financials "net_income"
    totalAssets := financials "total_assets"
    totalEquity := financials "total_equity"
    totalLiabilities := financials "total_liabilities" }

def financialsKey (symbol : String) (fiscalYear : ℤ) (reportType : ReportType) : String :=
  symbol ++ ":" ++ toString fiscalYear ++ ":" ++ reportType.value

/-- Store the statement of a symbol, year and type of report, and delete its entry. -/
def storeFinancials (corpCode symbol : String) (fiscalYear : ℤ) (reportType : ReportType)
    (items : List AccountItem) : EStateM Exn (Store AnalysisDb T) ℕ := do
  let s ← get
  match S.execute financialConstraint FinancialStatement.fits s.db.financialStatements
      [financialValue corpCode symbol fiscalYear reportType items] with
  | .error exc => throw (.databaseError ("sync_financials DB error (" ++ symbol ++ "): " ++ exc))
  | .ok rows =>
    modify fun s => {
      db := { s.db with financialStatements := rows }
      redis := (RedisCache.delete s.redis financialsCacheNs (financialsKey symbol fiscalYear reportType)).2 }
    return 1

def syncFinancials (symbol : String) (fiscalYear : ℤ) (reportType : ReportType)
    (listing : Option (List CorpEntry)) (data : Except Exn (List AccountItem)) :
    EStateM Exn (Store AnalysisDb T) ℕ := do
  let corpCode := (← resolveCorpCode S symbol listing).getD ""
  if corpCode = "" then return 0
  let items ← MonadExcept.ofExcept data
  if items = [] then return 0
  storeFinancials S corpCode symbol fiscalYear reportType items

def isStatementOf (symbol : String) (fiscalYear : ℤ) (reportType : ReportType) (row : FinancialStatement) : Bool :=
  row.symbol = symbol ∧ row.fiscalYear = fiscalYear ∧ row.reportType = reportType ∧
    row.fiscalQuarter = fiscalQuarter reportType

/-- The rows of a symbol, year and type of report. -/
def financialRows (db : AnalysisDb) (symbol : String) (fiscalYear : ℤ) (reportType : ReportType) :
    List FinancialStatement :=
  S.rowOrder _ (db.financialStatements.filter (isStatementOf symbol fiscalYear reportType))

def financialInfo (row : FinancialStatement) : FinancialStatementInfo :=
  { symbol := row.symbol, corpCode := row.corpCode, reportType := row.reportType
    fiscalYear := row.fiscalYear, fiscalQuarter := row.fiscalQuarter
    revenue := row.revenue, operatingIncome := row.operatingIncome, netIncome := row.netIncome
    totalAssets := row.totalAssets, totalEquity := row.totalEquity
    totalLiabilities := row.totalLiabilities
    per := row.per, pbr := row.pbr, roe := row.roe, eps := row.eps, bps := row.bps }

/-- The first of the rows. -/
def financialsQuery (symbol : String) (fiscalYear : ℤ) (reportType : ReportType) (db : AnalysisDb) :
    Except Exn (Option FinancialStatementInfo) :=
  .ok ((financialRows S db symbol fiscalYear reportType).head?.map financialInfo)

def fetchFinancialStatement (symbol : String) (fiscalYear : ℤ) (reportType : ReportType) :
    EStateM Exn (Store AnalysisDb T) (Option FinancialStatementInfo) :=
  cacheThrough S.financialsText .option financialsCacheNs (financialsKey symbol fiscalYear reportType)
    (financialsQuery S symbol fiscalYear reportType)

/-! ## What a sync leaves -/

variable {S}

/-- Two stores differ at most in the corporation code of a symbol. -/
def SameButCorpCode (symbol : String) (s s' : Store AnalysisDb T) : Prop :=
  s'.db = s.db ∧ ∀ k, k ≠ RedisCache.makeKey corpCodeCacheNs symbol → s'.redis.get? k = s.redis.get? k

theorem wp_resolveCorpCode (symbol : String) (listing : Option (List CorpEntry)) (s : Store AnalysisDb T) :
    wp (resolveCorpCode S symbol listing) (fun _ s' => SameButCorpCode symbol s s')
      (fun _ s' => SameButCorpCode symbol s s') s := by
  have hsame : SameButCorpCode symbol s s := ⟨rfl, fun _ _ => rfl⟩
  unfold resolveCorpCode
  simp only [wp_bind, wp_get]
  split
  · exact hsame
  · simp only [wp_ite, wp_pure, wp_bind, wp_modify]
    split
    · exact hsame
    · exact ⟨rfl, fun k hk => Dict.get?_set_ne _ _ hk⟩

/-- A sync leaves everything as it is up to a corporation code, or stores the rows of its answer and clears
its namespace. -/
theorem wp_syncDisclosures {symbol : String} {listing : Option (List CorpEntry)}
    {data : Except Exn (List DisclosureItem)} {s : Store AnalysisDb T} {P : Store AnalysisDb T → Prop}
    (h : ∀ s', SameButCorpCode symbol s s' → P s')
    (hstored : ∀ s', SameButCorpCode symbol s s' → ∀ corpCode items values rows, data = .ok items →
      disclosureValues S corpCode symbol items = .ok values →
      Upsert.all? disclosureConstraint s'.db.disclosures values = some rows →
      P { db := { s'.db with disclosures := rows }
          redis := s'.redis.dropKeys (S.globMatch (RedisCache.pattern (disclosuresCacheNs ++ ":" ++ symbol))) }) :
    wp (syncDisclosures S symbol listing data) (fun _ s' => P s') (fun _ s' => P s') s := by
  unfold syncDisclosures
  rw [wp_bind]
  refine wp_mono (wp_resolveCorpCode symbol listing s) (fun corpCode s' hs' => ?_) fun _ s' hs' => h s' hs'
  simp only [wp_ite, wp_pure]
  split
  · exact h s' hs'
  cases data with
  | error e => exact h s' hs'
  | ok items =>
    simp only [MonadExcept.ofExcept, wp_bind, wp_pure, wp_ite]
    split
    · exact h s' hs'
    unfold storeDisclosures
    simp only [wp_bind, wp_get]
    split
    · exact h s' hs'
    · rename_i hexec
      obtain ⟨values, hvalues, hrows⟩ := bind_eq_ok.1 hexec
      obtain ⟨_, hrows, hpair⟩ := bind_eq_ok.1 hrows
      cases hpair
      exact hstored s' hs' _ items values _ rfl hvalues (S.execute_eq_ok.1 hrows).2

/-- A sync leaves everything as it is up to a corporation code, or stores the statement and deletes its
entry. -/
theorem wp_syncFinancials {symbol : String} {fiscalYear : ℤ} {reportType : ReportType}
    {listing : Option (List CorpEntry)} {data : Except Exn (List AccountItem)} {s : Store AnalysisDb T}
    {P : Store AnalysisDb T → Prop} (h : ∀ s', SameButCorpCode symbol s s' → P s')
    (hstored : ∀ s', SameButCorpCode symbol s s' → ∀ corpCode items rows,
      Upsert.all? financialConstraint s'.db.financialStatements
        [financialValue corpCode symbol fiscalYear reportType items] = some rows →
      P { db := { s'.db with financialStatements := rows }
          redis := s'.redis.erase
            (RedisCache.makeKey financialsCacheNs (financialsKey symbol fiscalYear reportType)) }) :
    wp (syncFinancials S symbol fiscalYear reportType listing data) (fun _ s' => P s') (fun _ s' => P s') s := by
  unfold syncFinancials
  rw [wp_bind]
  refine wp_mono (wp_resolveCorpCode symbol listing s) (fun corpCode s' hs' => ?_) fun _ s' hs' => h s' hs'
  simp only [wp_ite, wp_pure]
  split
  · exact h s' hs'
  cases data with
  | error e => exact h s' hs'
  | ok items =>
    simp only [MonadExcept.ofExcept, wp_bind, wp_pure, wp_ite]
    split
    · exact h s' hs'
    unfold storeFinancials
    simp only [wp_bind, wp_get]
    cases hexec : S.execute financialConstraint FinancialStatement.fits s'.db.financialStatements
        [financialValue (corpCode.getD "") symbol fiscalYear reportType items] with
    | error exc => exact h s' hs'
    | ok rows => exact hstored s' hs' _ items rows (S.execute_eq_ok.1 hexec).2

end DartProvider

end TradingAgent
