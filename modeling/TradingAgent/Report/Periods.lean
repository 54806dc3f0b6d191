/-
The periods of the scheduled reports. The weekly job reports the seven days that end with the day it runs
on, so the weeks of consecutive runs tile the days. The monthly job runs on the first of a month and reports
the month that begins, of which only that first day has come: what is closed on any later day of the month is
never reported.
-/
import TradingAgent.Report.Combined

namespace TradingAgent

open PerformanceCalculator ReportGenerator

/-- A position as its record stands at the end of a day: before its exit it is open. -/
def PositionRecord.asOf (day : ℤ) (p : PositionRecord) : PositionRecord :=
  if p.exitDate.all (fun d => d ≤ day) then p
  else { p with status := "open", exitPrice := none, exitDate := none, exitReason := none, realizedPnl := none }

/-- A month of the calendar that dates exist for. -/
structure Month where
  year : ℤ
  month : ℕ
  year_range : 1 ≤ year ∧ year ≤ 9999
  month_range : 1 ≤ month ∧ month ≤ 12
  deriving DecidableEq

def Month.firstDay (m : Month) : ℤ := Calendar.ofDate m.year m.month 1

/-- A day is the first of at most one month. -/
theorem Month.firstDay_injective : Function.Injective Month.firstDay := by
  rintro ⟨year, month, hyear, hmonth⟩ ⟨year', month', hyear', hmonth'⟩ h
  have hlen := Calendar.daysInMonth_bounds year month
  have hone : ((1 : ℕ) : ℤ) ≤ Calendar.daysInMonth year month := by omega
  obtain ⟨rfl, rfl, -⟩ := Calendar.ofDate_eq_first hmonth.1 hmonth.2 le_rfl hone hmonth'.1 hmonth'.2 h
  rfl

/-- What the report jobs run on: the positions of all times as they end up, the snapshots stored by the end
of a day, and the daily report that goes out with the monthly one. Reports run after the day's trading. -/
structure ReportJobs (α : Type) where
  math : DecimalMath
  riskFreeRatePct : Decimal
  history : List PositionRecord
  snapshots : ℤ → List PortfolioSnapshot
  dailyReport : ℤ → Option String → Except Exn α

namespace ReportJobs

variable {α : Type} (jobs : ReportJobs α)

/-- The database at the end of a day. -/
def dbOn (day : ℤ) : ReportDataFetcher :=
  { positions := jobs.history.map (PositionRecord.asOf day), snapshots := jobs.snapshots day }

/-- The weekly report of the run on a day. -/
def jobWeeklyReport (day : ℤ) : Except Exn WeeklyReportData :=
  generateWeeklyReport jobs.math (jobs.dbOn day) day jobs.riskFreeRatePct none none

/-- The monthly report of the run on the first of a month. -/
def jobMonthlyReport (m : Month) : Except Exn (PerformanceMetrics × α) :=
  generateMonthlyReport jobs.math (jobs.dbOn m.firstDay) (jobs.dailyReport m.firstDay) (m.year, m.month)
    jobs.riskFreeRatePct none none none

/-- Metrics of the run on a day count a position: they are computed from the closed positions of their
period, and it is one of them. -/
def Counts (day : ℤ) (metrics : PerformanceMetrics) (p : PositionRecord) : Prop :=
  let closed := (jobs.dbOn day).getClosedPositions metrics.periodStart metrics.periodEnd none
  let snapshots := (jobs.dbOn day).getPortfolioSnapshots metrics.periodStart metrics.periodEnd none
  calculate jobs.math closed snapshots metrics.periodStart metrics.periodEnd jobs.riskFreeRatePct = .ok metrics ∧
    p ∈ closed

def WeeklyCounts (day : ℤ) (p : PositionRecord) : Prop :=
  ∃ data, jobs.jobWeeklyReport day = .ok data ∧ jobs.Counts day data.performance p

def MonthlyCounts (m : Month) (p : PositionRecord) : Prop :=
  ∃ metrics daily, jobs.jobMonthlyReport m = .ok (metrics, daily) ∧ jobs.Counts m.firstDay metrics p

/-! ## What a run counts -/

variable {jobs} {p : PositionRecord} {exitDay : ℤ}

/-- Of a position of the history the run on a day sees its exit exactly from the exit date on. -/
theorem mem_getClosedPositions_iff (hmem : p ∈ jobs.history) (hclosed : p.status = "closed")
    (hexit : p.exitDate = some exitDay) (day startDate endDate : ℤ) :
    p ∈ (jobs.dbOn day).getClosedPositions startDate endDate none ↔
      exitDay ≤ day ∧ startDate ≤ exitDay ∧ exitDay ≤ endDate := by
  unfold ReportDataFetcher.getClosedPositions dbOn
  simp only [List.mem_insertionSort, List.mem_filter, List.mem_map, hclosed, hexit, Option.any_some,
    Option.all_none, decide_eq_true_eq, true_and, and_true]
  refine and_congr_left fun _ => ⟨?_, fun h => ⟨p, hmem, ?_⟩⟩
  · rintro ⟨q, -, hq⟩
    unfold PositionRecord.asOf at hq
    split at hq
    · rename_i hseen
      rw [hq, hexit] at hseen
      simpa using hseen
    · rw [← hq] at hexit
      cases hexit
  · unfold PositionRecord.asOf
    rw [hexit, Option.all_some, if_pos (decide_eq_true h)]

/-- Metrics of a run count what is closed in their period. -/
theorem counts_iff {day startDate endDate : ℤ} {metrics : PerformanceMetrics}
    (h : calculate jobs.math ((jobs.dbOn day).getClosedPositions startDate endDate none)
      ((jobs.dbOn day).getPortfolioSnapshots startDate endDate none) startDate endDate jobs.riskFreeRatePct =
        .ok metrics) :
    jobs.Counts day metrics p ↔ p ∈ (jobs.dbOn day).getClosedPositions startDate endDate none := by
  obtain ⟨hstart, hend⟩ := calculate_period h
  unfold Counts
  rw [hstart, hend]
  exact and_iff_right h

/-- The weekly run counts the positions closed in the seven days that end with its day. -/
theorem weeklyCounts_iff {day : ℤ} (hran : ∃ data, jobs.jobWeeklyReport day = .ok data)
    (hmem : p ∈ jobs.history) (hclosed : p.status = "closed") (hexit : p.exitDate = some exitDay) :
    jobs.WeeklyCounts day p ↔ exitDay ≤ day ∧ day ≤ exitDay + 6 := by
  have hcounts : ∀ data, jobs.jobWeeklyReport day = .ok data →
      (jobs.Counts day data.performance p ↔ exitDay ≤ day ∧ day ≤ exitDay + 6) := by
    intro data hdata
    unfold jobWeeklyReport generateWeeklyReport at hdata
    obtain ⟨performance, hperformance, hdata⟩ := Wp.bind_eq_ok.1 hdata
    cases hdata
    rw [counts_iff hperformance, mem_getClosedPositions_iff hmem hclosed hexit, Option.getD_none]
    omega
  obtain ⟨data, hdata⟩ := hran
  constructor
  · rintro ⟨data', hdata', h⟩
    exact (hcounts data' hdata').1 h
  · exact fun h => ⟨data, hdata, (hcounts data hdata).2 h⟩

/-- The monthly run counts the positions closed on its own day, and no others. -/
theorem monthlyCounts_iff {m : Month} (hran : ∃ report, jobs.jobMonthlyReport m = .ok report)
    (hmem : p ∈ jobs.history) (hclosed : p.status = "closed") (hexit : p.exitDate = some exitDay) :
    jobs.MonthlyCounts m p ↔ exitDay = m.firstDay := by
  have hcounts : ∀ metrics daily, jobs.jobMonthlyReport m = .ok (metrics, daily) →
      (jobs.Counts m.firstDay metrics p ↔ exitDay = m.firstDay) := by
    intro metrics daily hreport
    unfold jobMonthlyReport generateMonthlyReport at hreport
    obtain ⟨period, hperiod, hreport⟩ := Wp.bind_eq_ok.1 hreport
    obtain ⟨metrics', hmetrics, hreport⟩ := Wp.bind_eq_ok.1 hreport
    obtain ⟨daily', -, hreport⟩ := Wp.bind_eq_ok.1 hreport
    cases hreport
    unfold monthPeriod at hperiod
    simp only [Option.getD_none] at hperiod
    rw [if_pos m.year_range, if_pos m.month_range] at hperiod
    cases hperiod
    have hlen := Calendar.daysInMonth_bounds m.year m.month
    have hlast : m.firstDay ≤ Calendar.ofDate m.year m.month (Calendar.daysInMonth m.year m.month).toNat := by
      unfold Month.firstDay Calendar.ofDate
      omega
    rw [counts_iff hmetrics, mem_getClosedPositions_iff hmem hclosed hexit]
    -- of the month that begins only its first day has come
    unfold Month.firstDay at hlast ⊢
    dsimp only
    omega
  obtain ⟨⟨metrics, daily⟩, hreport⟩ := hran
  constructor
  · rintro ⟨metrics', daily', hreport', h⟩
    exact (hcounts metrics' daily' hreport').1 h
  · exact fun h => ⟨metrics, daily, hreport, (hcounts metrics daily hreport).2 h⟩

end ReportJobs

/-- A span of days in which every weekly run, on one day of the week, and every monthly run, on the first of
the month, makes its report. -/
structure ReportSpan (α : Type) extends ReportJobs α where
  weeklyDay : ℤ
  firstDay : ℤ
  lastDay : ℤ
  weeklyDay_range : 0 ≤ weeklyDay ∧ weeklyDay < 7
  weekly_ran : ∀ day, firstDay ≤ day → day ≤ lastDay → Calendar.weekday day = weeklyDay →
    ∃ data, toReportJobs.jobWeeklyReport day = .ok data
  monthly_ran : ∀ m : Month, firstDay ≤ m.firstDay → m.firstDay ≤ lastDay →
    ∃ report, toReportJobs.jobMonthlyReport m = .ok report

namespace ReportSpan

variable {α : Type} (s : ReportSpan α)

def WeeklyRun (day : ℤ) : Prop :=
  s.firstDay ≤ day ∧ day ≤ s.lastDay ∧ Calendar.weekday day = s.weeklyDay

def MonthlyRun (m : Month) : Prop := s.firstDay ≤ m.firstDay ∧ m.firstDay ≤ s.lastDay

/-- A position closed within the span, early enough for the next weekly run to be in the span. -/
structure ClosedPosition where
  record : PositionRecord
  exitDay : ℤ
  mem : record ∈ s.history
  closed : record.status = "closed"
  exitDate : record.exitDate = some exitDay
  inSpan : s.firstDay ≤ exitDay ∧ exitDay + 6 ≤ s.lastDay

/-- A closed position is counted in exactly one monthly and in exactly one weekly report generated on or after
its exit date. -/
def CountedOnce (c : s.ClosedPosition) : Prop :=
  (∃! m : Month, s.MonthlyRun m ∧ c.exitDay ≤ m.firstDay ∧ s.MonthlyCounts m c.record) ∧
    (∃! day, s.WeeklyRun day ∧ c.exitDay ≤ day ∧ s.WeeklyCounts day c.record)

variable {s}

/-- The weekly runs tile the days: every closed position is counted by one of them. -/
theorem existsUnique_weekly (c : s.ClosedPosition) :
    ∃! day, s.WeeklyRun day ∧ c.exitDay ≤ day ∧ s.WeeklyCounts day c.record := by
  obtain ⟨day, hweekday, hle, hle6⟩ := Calendar.exists_weekday c.exitDay s.weeklyDay_range.1 s.weeklyDay_range.2
  have hcounts : ∀ t, s.WeeklyRun t → (s.WeeklyCounts t c.record ↔ c.exitDay ≤ t ∧ t ≤ c.exitDay + 6) :=
    fun t ht => ReportJobs.weeklyCounts_iff (s.weekly_ran t ht.1 ht.2.1 ht.2.2) c.mem c.closed c.exitDate
  have hspan := c.inSpan
  have hrun : s.WeeklyRun day := ⟨by omega, by omega, hweekday⟩
  refine ⟨day, ⟨hrun, hle, (hcounts day hrun).2 ⟨hle, hle6⟩⟩, ?_⟩
  rintro t ⟨ht, hexit, htcounts⟩
  exact Calendar.eq_of_weekday (ht.2.2.trans hweekday.symm) hexit ((hcounts t ht).1 htcounts).2 hle hle6

/-- A closed position is counted by a monthly run exactly if it was closed on the first of a month. -/
theorem existsUnique_monthly_iff (c : s.ClosedPosition) :
    (∃! m : Month, s.MonthlyRun m ∧ c.exitDay ≤ m.firstDay ∧ s.MonthlyCounts m c.record) ↔
      ∃ m : Month, c.exitDay = m.firstDay := by
  have hcounts : ∀ m, s.MonthlyRun m → (s.MonthlyCounts m c.record ↔ c.exitDay = m.firstDay) :=
    fun m hm => ReportJobs.monthlyCounts_iff (s.monthly_ran m hm.1 hm.2) c.mem c.closed c.exitDate
  have hspan := c.inSpan
  constructor
  · rintro ⟨m, ⟨hm, -, hmcounts⟩, -⟩
    exact ⟨m, (hcounts m hm).1 hmcounts⟩
  · rintro ⟨m, hfirst⟩
    have hrun : s.MonthlyRun m := ⟨by omega, by omega⟩
    refine ⟨m, ⟨hrun, hfirst.le, (hcounts m hrun).2 hfirst⟩, ?_⟩
    rintro m' ⟨hm', -, hmcounts⟩
    exact Month.firstDay_injective (((hcounts m' hm').1 hmcounts).symm.trans hfirst)

/-- A closed position is counted once by either job exactly if it was closed on the first of a month. -/
theorem countedOnce_iff (c : s.ClosedPosition) : s.CountedOnce c ↔ ∃ m : Month, c.exitDay = m.firstDay := by
  unfold CountedOnce
  rw [existsUnique_monthly_iff]
  exact and_iff_left (existsUnique_weekly c)

/-! ## A year of reports -/

/-- The report jobs over one position, with powers that always exist. -/
def singleJobs (p : PositionRecord) : ReportJobs Unit where
  math := CombinedReport.steadyMath
  riskFreeRatePct := 0
  history := [p]
  snapshots _ := []
  dailyReport _ _ := .ok ()

/-- The year 2026 with the weekly run on Saturdays. -/
def year2026 (p : PositionRecord) : ReportSpan Unit where
  toReportJobs := singleJobs p
  weeklyDay := 5
  firstDay := Calendar.ofDate 2026 1 1
  lastDay := Calendar.ofDate 2026 12 31
  weeklyDay_range := by decide
  weekly_ran day _ _ _ := by
    obtain ⟨m, hm⟩ := CombinedReport.exists_calculate_eq_ok CombinedReport.steadyMath (fun _ _ => ⟨1, rfl⟩)
      (((singleJobs p).dbOn day).getClosedPositions (day - 6) day none)
      (((singleJobs p).dbOn day).getPortfolioSnapshots (day - 6) day none) (day - 6) day 0
    exact ⟨_, Wp.bind_eq_ok.2 ⟨m, hm, rfl⟩⟩
  monthly_ran m _ _ := by
    have hperiod : ∃ period, monthPeriod m.year m.month = .ok period := by
      unfold monthPeriod
      rw [if_pos m.year_range, if_pos m.month_range]
      exact ⟨_, rfl⟩
    obtain ⟨period, hperiod⟩ := hperiod
    obtain ⟨metrics, hm⟩ := CombinedReport.exists_calculate_eq_ok CombinedReport.steadyMath
      (fun _ _ => ⟨1, rfl⟩) (((singleJobs p).dbOn m.firstDay).getClosedPositions period.1 period.2 none)
      (((singleJobs p).dbOn m.firstDay).getPortfolioSnapshots period.1 period.2 none) period.1 period.2 0
    exact ⟨(metrics, ()), Wp.bind_eq_ok.2 ⟨period, hperiod, Wp.bind_eq_ok.2 ⟨metrics, hm, rfl⟩⟩⟩

/-- A position closed on Tuesday, the tenth of March 2026. -/
def marchTenth : PositionRecord :=
  { id := 1, symbol := "A", strategyType := .swing, quantity := 1, avgCost := 100, entryPrice := 100
    entryDate := Calendar.ofDate 2026 3 3, stopLossPrice := 90, status := "closed", exitPrice := some 110
    exitDate := some (Calendar.ofDate 2026 3 10), exitReason := some "take_profit", realizedPnl := some 10 }

def closedInMarch : (year2026 marchTenth).ClosedPosition where
  record := marchTenth
  exitDay := Calendar.ofDate 2026 3 10
  mem := List.mem_singleton_self _
  closed := rfl
  exitDate := rfl
  inSpan := by decide +kernel

/-- The monthly run of the first of March came before it, and the next one reports April. -/
theorem not_countedOnce_closedInMarch :
    Calendar.weekday closedInMarch.exitDay = 1 ∧ ¬ (year2026 marchTenth).CountedOnce closedInMarch := by
  refine ⟨by decide +kernel, fun h => ?_⟩
  obtain ⟨m, hfirst⟩ := (existsUnique_monthly_iff closedInMarch).1 h.1
  have htenth := Calendar.ofDate_eq_first (by decide) (by decide) (by decide) (by decide) m.month_range.1
    m.month_range.2 hfirst
  exact absurd htenth.2.2 (by decide)

end ReportSpan

end TradingAgent
