/-
The provider of economic indicators. Values go into the database by indicator and date, and reads go through
the cache with an entry for every indicator and range of dates; a sync clears the namespace below the
indicator.
-/
import TradingAgent.Data.Analysis

namespace TradingAgent

open CacheAside Wp

structure EcosIndicatorConfig where
  statCode : String
  itemCode : String
  period : String
  name : String
  deriving DecidableEq

structure StatisticRow where
  dataValue : Option String
  time : Option String
  unitName : Option String
  deriving DecidableEq

namespace EcosProvider

def indicatorsCacheNs : String := "ecos:indicators"

/-- The characters from one place up to another. -/
def slice (text : List Char) (first last : ℕ) : List Char := (text.take last).drop first

/-- The first day of what a time names: a day, a month or a quarter. `none` where a part is no number, no
such date or missing. -/
def parseEcosTime (time period : String) : Option PyDate :=
  let text := time.toList
  if period = "D" then do
    PyDate.make? (← PyInt.parse? (slice text 0 4)) (← PyInt.parse? (slice text 4 6)) (← PyInt.parse? (slice text 6 8))
  else if period = "M" then do
    PyDate.make? (← PyInt.parse? (slice text 0 4)) (← PyInt.parse? (slice text 4 6)) 1
  else if period = "Q" then do
    let year ← PyInt.parse? (slice text 0 4)
    let quarter ← PyInt.parse? [← text[5]?]
    PyDate.make? year ((quarter - 1) * 3 + 1) 1
  else none

def indicatorCode (config : EcosIndicatorConfig) : String := config.statCode ++ "/" ++ config.itemCode

/-- A number as its column keeps it, with six decimals. -/
def columnValue : PyDecimal.Value → PyDecimal.Value
  | .finite q => .finite (Rounding.halfUp (q * 1000000) / 1000000)
  | .special => .special

/-- The row of a value of an answer; without a number or a date there is none. -/
def indicatorValue (config : EcosIndicatorConfig) (row : StatisticRow) : Option EconomicIndicator :=
  let rawValue := row.dataValue.getD ""
  if rawValue = "" then none
  else do
    let value ← PyDecimal.parse? (rawValue.toList.filter (· ≠ ','))
    let date ← parseEcosTime (row.time.getD "") config.period
    pure { source := .ecos, indicatorCode := indicatorCode config, indicatorName := config.name, date
           value := columnValue value, unit := row.unitName }

theorem indicatorCode_of_value {config : EcosIndicatorConfig} {row : StatisticRow} {value : EconomicIndicator}
    (h : indicatorValue config row = some value) : value.indicatorCode = indicatorCode config := by
  unfold indicatorValue at h
  dsimp only at h
  split at h
  · cases h
  · obtain ⟨number, -, h⟩ := Option.bind_eq_some_iff.1 h
    obtain ⟨date, -, h⟩ := Option.bind_eq_some_iff.1 h
    cases h
    rfl

variable {T : Type} (S : Services T)

/-- Store what the service answered for an indicator, and clear the namespace below the indicator. -/
def syncIndicator (config : EcosIndicatorConfig) (data : Except Exn (List StatisticRow)) :
    EStateM Exn (Store AnalysisDb T) ℕ := do
  let rows ← MonadExcept.ofExcept data
  if rows = [] then return 0
  let valuesList := rows.filterMap (indicatorValue config)
  if valuesList = [] then return 0
  let s ← get
  match S.execute indicatorConstraint EconomicIndicator.fits s.db.economicIndicators valuesList with
  | .error exc => throw (.databaseError ("sync_indicator DB error (" ++ indicatorCode config ++ "): " ++ exc))
  | .ok rows =>
    modify fun s => {
      db := { s.db with economicIndicators := rows }
      redis := (RedisCache.clearNamespace S.globMatch s.redis (indicatorsCacheNs ++ ":" ++ indicatorCode config)).2 }
    return valuesList.length

def indicatorsKey (indicatorCode : String) (startDate endDate : Option PyDate) : String :=
  indicatorCode ++ ":" ++ dateText startDate ++ ":" ++ dateText endDate

def isIndicatorOf (code : String) (startDate endDate : Option PyDate) (row : EconomicIndicator) : Bool :=
  row.source = .ecos ∧ row.indicatorCode = code ∧ (∀ d ∈ startDate, d ≤ row.date) ∧ (∀ d ∈ endDate, row.date ≤ d)

/-- The rows of an indicator within a range of dates, the latest first. -/
def indicatorRows (db : AnalysisDb) (code : String) (startDate endDate : Option PyDate) :
    List EconomicIndicator :=
  (S.rowOrder _ (db.economicIndicators.filter (isIndicatorOf code startDate endDate))).insertionSort
    (fun a b => b.date ≤ a.date)

/-- A value that is no finite number is refused. -/
def indicatorInfo (row : EconomicIndicator) : Except Exn EconomicIndicatorInfo :=
  match row.value with
  | .special => .error (.validationError "EconomicIndicatorInfo" "value")
  | .finite value =>
    .ok { source := .ecos, indicatorCode := row.indicatorCode, indicatorName := row.indicatorName
          date := row.date, value, unit := row.unit }

def indicatorsQuery (code : String) (startDate endDate : Option PyDate) (db : AnalysisDb) :
    Except Exn (List EconomicIndicatorInfo) :=
  (indicatorRows S db code startDate endDate).mapM indicatorInfo

def fetchIndicators (code : String) (startDate endDate : Option PyDate := none) :
    EStateM Exn (Store AnalysisDb T) (List EconomicIndicatorInfo) :=
  cacheThrough S.indicatorsText .list indicatorsCacheNs (indicatorsKey code startDate endDate)
    (indicatorsQuery S code startDate endDate)

/-! ## What a sync leaves -/

variable {S}

/-- A sync leaves everything as it is, or stores the rows of its answer and clears its namespace. -/
theorem wp_syncIndicator {config : EcosIndicatorConfig} {data : Except Exn (List StatisticRow)}
    {s : Store AnalysisDb T} {P : Store AnalysisDb T → Prop} (h : P s)
    (hstored : ∀ items rows, data = .ok items →
      Upsert.all? indicatorConstraint s.db.economicIndicators (items.filterMap (indicatorValue config)) = some rows →
      P { db := { s.db with economicIndicators := rows }
          redis := s.redis.dropKeys
            (S.globMatch (RedisCache.pattern (indicatorsCacheNs ++ ":" ++ indicatorCode config))) }) :
    wp (syncIndicator S config data) (fun _ s' => P s') (fun _ s' => P s') s := by
  unfold syncIndicator
  cases data with
  | error e => exact h
  | ok items =>
    simp only [MonadExcept.ofExcept, wp_bind, wp_pure, wp_ite, wp_get]
    split
    · exact h
    split
    · exact h
    cases hexec : S.execute indicatorConstraint EconomicIndicator.fits s.db.economicIndicators
        (items.filterMap (indicatorValue config)) with
    | error exc => exact h
    | ok rows => exact hstored items rows rfl (S.execute_eq_ok.1 hexec).2

end EcosProvider

end TradingAgent
