/-
The report over all accounts against the combined portfolio. The calculator takes its snapshots for one
series; without an account the fetcher hands it the rows of every account, merged by date. That series is
the one of the combined portfolio exactly if no two accounts have a snapshot on the same day of the period.
-/
import TradingAgent.Report.Generator

namespace TradingAgent

namespace CombinedReport

open PerformanceCalculator ReportDataFetcher ReportGenerator

/-! ## The combined portfolio -/

/-- The snapshots of a history, one for each account and day, at given totals. -/
def snapshotsOf (history : Dict (String × ℤ) PortfolioSnapshot) (totals : String × ℤ → Decimal) :
    List PortfolioSnapshot :=
  history.items.map (fun e =>
    { e.2 with accountId := e.1.1, snapshotDate := e.1.2, totalValue := totals e.1 })

def inPeriod (rows : List PortfolioSnapshot) (startDate endDate : ℤ) : List PortfolioSnapshot :=
  rows.filter (fun s => startDate ≤ s.snapshotDate ∧ s.snapshotDate ≤ endDate)

/-- The sum of the totals of a day. -/
def dayTotal (rows : List PortfolioSnapshot) (day : ℤ) : Decimal :=
  ((rows.filter (fun s => s.snapshotDate = day)).map (·.totalValue)).sum

/-- The snapshot of the combined portfolio on a day. -/
def combinedSnapshot (rows : List PortfolioSnapshot) (day : ℤ) : PortfolioSnapshot :=
  { id := 0, snapshotDate := day, totalValue := dayTotal rows day, cash := 0, invested := 0, unrealizedPnl := 0
    realizedPnlDaily := 0, peakValue := 0, drawdownPct := 0, positionsCount := 0, tradeCountDaily := 0 }

/-- The series of the combined portfolio, one value for each day with a snapshot. -/
def combinedSeries (rows : List PortfolioSnapshot) : List PortfolioSnapshot :=
  ((rows.map (·.snapshotDate)).dedup.insertionSort (· ≤ ·)).map (combinedSnapshot rows)

/-- Metrics show the return and the drawdown of the combined portfolio. -/
def ShowsCombined (m : PerformanceMetrics) (rows : List PortfolioSnapshot) (startDate endDate : ℤ) : Prop :=
  m.totalReturnPct = totalReturn (combinedSeries (inPeriod rows startDate endDate)) ∧
    m.maxDrawdownPct = calculateMaxDrawdown (combinedSeries (inPeriod rows startDate endDate))

/-- The weekly report over all accounts shows the combined portfolio, for all totals of the history and in
whatever order the database scans its rows. -/
def WeeklyCombined (history : Dict (String × ℤ) PortfolioSnapshot) (today : ℤ) (weekEnd : Option ℤ) : Prop :=
  ∀ totals scan, scan.Perm (snapshotsOf history totals) → ∀ math positions riskFreeRatePct data,
    generateWeeklyReport math { positions, snapshots := scan } today riskFreeRatePct weekEnd none = .ok data →
    ShowsCombined data.performance (snapshotsOf history totals) (weekEnd.getD today - 6) (weekEnd.getD today)

/-- The same of the monthly report. -/
def MonthlyCombined (history : Dict (String × ℤ) PortfolioSnapshot) (thisMonth : ℤ × ℕ) (year : Option ℤ)
    (month : Option ℕ) : Prop :=
  ∀ totals scan, scan.Perm (snapshotsOf history totals) →
    ∀ (α : Type) math positions daily riskFreeRatePct metrics (dailyData : α),
    generateMonthlyReport math { positions, snapshots := scan } daily thisMonth riskFreeRatePct year month none =
      .ok (metrics, dailyData) →
    ∀ period, monthPeriod (year.getD thisMonth.1) (month.getD thisMonth.2) = .ok period →
    ShowsCombined metrics (snapshotsOf history totals) period.1 period.2

/-- No two accounts have a snapshot on the same day of a period. -/
def NoSharedDay (history : Dict (String × ℤ) PortfolioSnapshot) (startDate endDate : ℤ) : Prop :=
  ∀ a b day, history.contains (a, day) = true → history.contains (b, day) = true →
    startDate ≤ day → day ≤ endDate → a = b

/-! ## What the metrics depend on -/

theorem totalReturn_congr {l l' : List PortfolioSnapshot} (h : l.map (·.totalValue) = l'.map (·.totalValue)) :
    totalReturn l = totalReturn l' := by
  have hlen : l.length = l'.length := by simpa using congrArg List.length h
  have hhead : l.head?.map (·.totalValue) = l'.head?.map (·.totalValue) := by
    rw [← List.head?_map, ← List.head?_map, h]
  have hlast : l.getLast?.map (·.totalValue) = l'.getLast?.map (·.totalValue) := by
    rw [← List.getLast?_map, ← List.getLast?_map, h]
  unfold totalReturn
  rw [hlen]
  cases hf : l.head? with
  | none =>
    rw [hf, Option.map_none, eq_comm, Option.map_eq_none_iff] at hhead
    rw [hhead]
  | some first =>
    rw [hf, Option.map_some, eq_comm, Option.map_eq_some_iff] at hhead
    obtain ⟨first', hf', hfirst⟩ := hhead
    rw [hf']
    cases hl : l.getLast? with
    | none =>
      rw [hl, Option.map_none, eq_comm, Option.map_eq_none_iff] at hlast
      rw [hlast]
    | some last =>
      rw [hl, Option.map_some, eq_comm, Option.map_eq_some_iff] at hlast
      obtain ⟨last', hl', hlast⟩ := hlast
      rw [hl']
      simp only [hfirst, hlast]

theorem calculateMaxDrawdown_congr {l l' : List PortfolioSnapshot}
    (h : (sortedSnaps l).map (·.totalValue) = (sortedSnaps l').map (·.totalValue)) :
    calculateMaxDrawdown l = calculateMaxDrawdown l' := by
  cases hs : sortedSnaps l with
  | nil =>
    rw [hs, List.map_nil, eq_comm, List.map_eq_nil_iff] at h
    unfold calculateMaxDrawdown
    rw [hs, h]
  | cons first rest =>
    rw [hs, List.map_cons, eq_comm, List.map_eq_cons_iff] at h
    obtain ⟨first', rest', hs', hfirst, hrest⟩ := h
    rw [calculateMaxDrawdown_eq hs, calculateMaxDrawdown_eq hs', List.map_cons, List.map_cons, hfirst, hrest]

theorem dates_combinedSeries (rows : List PortfolioSnapshot) :
    (combinedSeries rows).map (·.snapshotDate) = (rows.map (·.snapshotDate)).dedup.insertionSort (· ≤ ·) := by
  unfold combinedSeries
  rw [List.map_map]
  exact List.map_id _

/-- The combined series is in order already. -/
theorem sortedSnaps_combinedSeries (rows : List PortfolioSnapshot) :
    sortedSnaps (combinedSeries rows) = combinedSeries rows := by
  apply sortedSnaps_eq
  rw [dates_combinedSeries]
  have hle := List.pairwise_insertionSort (r := (· ≤ ·)) (rows.map (·.snapshotDate)).dedup
  have hnodup : ((rows.map (·.snapshotDate)).dedup.insertionSort (· ≤ ·)).Nodup :=
    (List.perm_insertionSort _ _).nodup_iff.2 (List.nodup_dedup _)
  exact (hle.and hnodup).imp fun h => lt_of_le_of_ne h.1 h.2

/-- The combined series does not depend on the order of the rows. -/
theorem combinedSeries_perm {l l' : List PortfolioSnapshot} (h : l.Perm l') :
    combinedSeries l = combinedSeries l' := by
  have hdays : (l.map (·.snapshotDate)).dedup.insertionSort (· ≤ ·) =
      (l'.map (·.snapshotDate)).dedup.insertionSort (· ≤ ·) := by
    apply List.Perm.eq_of_pairwise' (r := (· ≤ ·)) (List.pairwise_insertionSort _ _) (List.pairwise_insertionSort _ _)
    exact ((List.perm_insertionSort _ _).trans (h.map _).dedup).trans (List.perm_insertionSort _ _).symm
  unfold combinedSeries
  rw [hdays]
  refine List.map_congr_left fun day _ => ?_
  unfold combinedSnapshot dayTotal
  rw [((h.filter _).map _).sum_eq]

/-! ## Days of one account each -/

theorem sortedSnaps_sortedSnaps (rows : List PortfolioSnapshot) :
    sortedSnaps (sortedSnaps rows) = sortedSnaps rows :=
  List.Pairwise.insertionSort_eq
    (List.pairwise_insertionSort (r := fun a b : PortfolioSnapshot => a.snapshotDate ≤ b.snapshotDate) rows)

/-- Without an account the calculator gets the rows of all accounts, by date. -/
theorem getPortfolioSnapshots_none (db : ReportDataFetcher) (startDate endDate : ℤ) :
    db.getPortfolioSnapshots startDate endDate none = sortedSnaps (inPeriod db.snapshots startDate endDate) := by
  unfold getPortfolioSnapshots sortedSnaps inPeriod
  congr 2
  funext s
  simp

theorem dayTotal_of_nodup {rows : List PortfolioSnapshot} (h : (rows.map (·.snapshotDate)).Nodup)
    {s : PortfolioSnapshot} (hs : s ∈ rows) : dayTotal rows s.snapshotDate = s.totalValue := by
  unfold dayTotal
  rw [Dict.filter_key_eq_singleton (fun t : PortfolioSnapshot => t.snapshotDate) h hs, List.map_singleton,
    List.sum_singleton]

/-- With one row a day the merged series is the combined one. -/
theorem sortedSnaps_of_nodup {rows : List PortfolioSnapshot} (h : (rows.map (·.snapshotDate)).Nodup) :
    (sortedSnaps rows).map (·.totalValue) = (combinedSeries rows).map (·.totalValue) := by
  have hdates : (rows.map (·.snapshotDate)).dedup.insertionSort (· ≤ ·) = (sortedSnaps rows).map (·.snapshotDate) := by
    rw [List.dedup_eq_self.2 h]
    exact (List.map_insertionSort (fun a b : PortfolioSnapshot => a.snapshotDate ≤ b.snapshotDate)
      (fun a b : ℤ => a ≤ b) (·.snapshotDate) rows fun _ _ _ _ => Iff.rfl).symm
  unfold combinedSeries
  rw [hdates, List.map_map, List.map_map]
  refine List.map_congr_left fun s hs => ?_
  have hmem : s ∈ rows := (List.mem_insertionSort _).1 hs
  exact (dayTotal_of_nodup h hmem).symm

theorem shows_of_nodup {math : DecimalMath} {closed : List PositionRecord} {rows scan : List PortfolioSnapshot}
    {startDate endDate : ℤ} {riskFree : Decimal} {m : PerformanceMetrics} (hscan : scan.Perm rows)
    (hnodup : ((inPeriod rows startDate endDate).map (·.snapshotDate)).Nodup)
    (h : calculate math closed (sortedSnaps (inPeriod scan startDate endDate)) startDate endDate riskFree = .ok m) :
    ShowsCombined m rows startDate endDate := by
  have hperm : (inPeriod scan startDate endDate).Perm (inPeriod rows startDate endDate) := hscan.filter _
  have hvalues := sortedSnaps_of_nodup ((hperm.map _).nodup_iff.2 hnodup)
  obtain ⟨hreturn, hdrawdown⟩ := calculate_eq_ok h
  unfold ShowsCombined
  rw [hreturn, hdrawdown, ← combinedSeries_perm hperm, sortedSnaps_sortedSnaps]
  refine ⟨totalReturn_congr hvalues, calculateMaxDrawdown_congr ?_⟩
  rw [sortedSnaps_sortedSnaps, sortedSnaps_combinedSeries, hvalues]

/-- The days of the period differ if no two accounts share one. -/
theorem nodup_of_noSharedDay {history : Dict (String × ℤ) PortfolioSnapshot} {totals : String × ℤ → Decimal}
    {startDate endDate : ℤ} (h : NoSharedDay history startDate endDate) :
    ((inPeriod (snapshotsOf history totals) startDate endDate).map (·.snapshotDate)).Nodup := by
  have hkeys : (((snapshotsOf history totals).map (fun s => (s.accountId, s.snapshotDate)))).Nodup := by
    unfold snapshotsOf
    rw [List.map_map]
    exact history.nodup
  have hperiod : ((inPeriod (snapshotsOf history totals) startDate endDate).map
      (fun s => (s.accountId, s.snapshotDate))).Nodup := hkeys.sublist (List.filter_sublist.map _)
  have hmem : ∀ s ∈ inPeriod (snapshotsOf history totals) startDate endDate,
      history.contains (s.accountId, s.snapshotDate) = true ∧ startDate ≤ s.snapshotDate ∧
        s.snapshotDate ≤ endDate := by
    intro s hs
    obtain ⟨hs, hin⟩ := List.mem_filter.1 hs
    obtain ⟨e, he, rfl⟩ := List.mem_map.1 hs
    rw [decide_eq_true_eq] at hin
    exact ⟨(history.contains_iff _).2 ⟨e.2, (history.mem_items_iff e.1 e.2).1 he⟩, hin⟩
  rw [List.nodup_map_iff_inj_on (List.Nodup.of_map _ hperiod)]
  intro s hs t ht hdate
  obtain ⟨hcs, hstart, hend⟩ := hmem s hs
  obtain ⟨hct, -, -⟩ := hmem t ht
  have haccount := h s.accountId t.accountId s.snapshotDate hcs (hdate ▸ hct) hstart hend
  exact List.inj_on_of_nodup_map hperiod hs ht (Prod.ext haccount hdate)

/-! ## A day of two accounts -/

section SharedDay

variable (history : Dict (String × ℤ) PortfolioSnapshot) (a : String) (day : ℤ)

/-- The keys of a day. -/
def keysOf (d : ℤ) : List (String × ℤ) := history.keys.filter (fun key => key.2 = d)

def sharedTotal (key : String × ℤ) : Decimal := if key.1 = a then 2 else 1

/-- Totals that sum up to the same value on every day, with two for the account `a` and one for any other
account on the shared day. -/
def splitTotals (key : String × ℤ) : Decimal :=
  if key.2 = day then sharedTotal a key
  else ((keysOf history day).map (sharedTotal a)).sum / (keysOf history key.2).length

theorem dayTotal_snapshotsOf (totals : String × ℤ → Decimal) (d : ℤ) :
    dayTotal (snapshotsOf history totals) d = ((keysOf history d).map totals).sum := by
  unfold dayTotal snapshotsOf keysOf Dict.keys
  rw [List.filter_map, List.map_map, List.filter_map, List.map_map]
  rfl

theorem dayTotal_inPeriod (rows : List PortfolioSnapshot) {startDate endDate d : ℤ} (hs : startDate ≤ d)
    (he : d ≤ endDate) : dayTotal (inPeriod rows startDate endDate) d = dayTotal rows d := by
  unfold dayTotal inPeriod
  rw [List.filter_filter]
  congr 2
  refine List.filter_congr fun s _ => ?_
  by_cases hd : s.snapshotDate = d
  · simp [hd, hs, he]
  · simp [hd]

theorem dayTotal_splitTotals {d : ℤ} (hd : keysOf history d ≠ []) :
    dayTotal (snapshotsOf history (splitTotals history a day)) d =
      ((keysOf history day).map (sharedTotal a)).sum := by
  rw [dayTotal_snapshotsOf]
  have hkey : ∀ key ∈ keysOf history d, key.2 = d := fun key hkey =>
    of_decide_eq_true (List.mem_filter.1 hkey).2
  by_cases hday : d = day
  · subst hday
    refine congrArg List.sum (List.map_congr_left fun key hk => ?_)
    unfold splitTotals
    rw [if_pos (hkey key hk)]
  · have hconst : (keysOf history d).map (splitTotals history a day) =
        (keysOf history d).map (fun _ =>
          ((keysOf history day).map (sharedTotal a)).sum / (keysOf history d).length) := by
      refine List.map_congr_left fun key hk => ?_
      unfold splitTotals
      rw [hkey key hk, if_neg hday]
    have hlen : ((keysOf history d).length : Decimal) ≠ 0 := by
      rw [Nat.cast_ne_zero]
      exact fun h => hd (List.length_eq_zero_iff.1 h)
    rw [hconst, List.map_const', List.sum_replicate, nsmul_eq_mul, mul_div_cancel₀ _ hlen]

/-- The combined portfolio of these totals never falls. -/
theorem combined_splitTotals {startDate endDate : ℤ} :
    calculateMaxDrawdown (combinedSeries
      (inPeriod (snapshotsOf history (splitTotals history a day)) startDate endDate)) = 0 := by
  have htotal : ∀ s ∈ combinedSeries
      (inPeriod (snapshotsOf history (splitTotals history a day)) startDate endDate),
      s.totalValue = ((keysOf history day).map (sharedTotal a)).sum := by
    intro s hs
    obtain ⟨d, hd, rfl⟩ := List.mem_map.1 hs
    rw [List.mem_insertionSort, List.mem_dedup] at hd
    obtain ⟨t, ht, rfl⟩ := List.mem_map.1 hd
    obtain ⟨ht, hin⟩ := List.mem_filter.1 ht
    rw [decide_eq_true_eq] at hin
    obtain ⟨e, he, rfl⟩ := List.mem_map.1 ht
    show dayTotal _ e.1.2 = _
    rw [dayTotal_inPeriod _ hin.1 hin.2]
    apply dayTotal_splitTotals
    apply List.ne_nil_of_mem (a := e.1)
    exact List.mem_filter.2 ⟨List.mem_map.2 ⟨e, he, rfl⟩, decide_eq_true rfl⟩
  cases hseries : combinedSeries
      (inPeriod (snapshotsOf history (splitTotals history a day)) startDate endDate) with
  | nil => rfl
  | cons first rest =>
    rw [hseries] at htotal
    rw [calculateMaxDrawdown_eq (hseries ▸ sortedSnaps_combinedSeries _), Drawdown.largest_const, quantize2_zero]
    intro v hv
    obtain ⟨s, hs, rfl⟩ := List.mem_map.1 hv
    rw [htotal s hs, htotal first (List.mem_cons_self ..)]

/-- In some order of the rows the merged series falls by one half on the shared day. -/
theorem exists_scan {b : String} (hab : a ≠ b) (ha : history.contains (a, day) = true)
    (hb : history.contains (b, day) = true) {startDate endDate : ℤ} (hs : startDate ≤ day) (he : day ≤ endDate) :
    ∃ scan : List PortfolioSnapshot, scan.Perm (snapshotsOf history (splitTotals history a day)) ∧
      50 ≤ calculateMaxDrawdown (sortedSnaps (inPeriod scan startDate endDate)) := by
  obtain ⟨ra, hra⟩ := (history.contains_iff _).1 ha
  obtain ⟨rb, hrb⟩ := (history.contains_iff _).1 hb
  let totals := splitTotals history a day
  let sa : PortfolioSnapshot := { ra with accountId := a, snapshotDate := day, totalValue := totals (a, day) }
  let sb : PortfolioSnapshot := { rb with accountId := b, snapshotDate := day, totalValue := totals (b, day) }
  have hmema : sa ∈ snapshotsOf history totals :=
    List.mem_map.2 ⟨((a, day), ra), (history.mem_items_iff _ _).2 hra, rfl⟩
  have hmemb : sb ∈ snapshotsOf history totals :=
    List.mem_map.2 ⟨((b, day), rb), (history.mem_items_iff _ _).2 hrb, rfl⟩
  have hne : sa ≠ sb := fun h => hab (congrArg PortfolioSnapshot.accountId h)
  have hsub : List.Subperm [sa, sb] (snapshotsOf history totals) := by
    apply List.subperm_of_subset (List.nodup_cons.2 ⟨by simpa using hne, List.nodup_singleton sb⟩)
    intro s hs
    rcases List.mem_cons.1 hs with rfl | hs
    · exact hmema
    · rw [List.mem_singleton.1 hs]
      exact hmemb
  obtain ⟨scan, hscan, hpair⟩ := List.subperm_iff.1 hsub
  refine ⟨scan, hscan, ?_⟩
  have hperiod : List.Sublist [sa, sb] (inPeriod scan startDate endDate) := by
    have hfilter := hpair.filter (fun s => decide (startDate ≤ s.snapshotDate ∧ s.snapshotDate ≤ endDate))
    rwa [List.filter_eq_self.2] at hfilter
    intro s hs'
    rcases List.mem_cons.1 hs' with rfl | hs'
    · exact decide_eq_true ⟨hs, he⟩
    · rw [List.mem_singleton.1 hs']
      exact decide_eq_true ⟨hs, he⟩
  have hsorted : List.Sublist [sa, sb] (sortedSnaps (inPeriod scan startDate endDate)) :=
    List.pair_sublist_insertionSort (le_refl day) hperiod
  have htwo : sa.totalValue = 2 := by
    show splitTotals history a day (a, day) = 2
    simp [splitTotals, sharedTotal]
  have hone : sb.totalValue = 1 := by
    show splitTotals history a day (b, day) = 1
    simp [splitTotals, sharedTotal, hab.symm]
  have hvalues := hsorted.map (·.totalValue)
  rw [List.map_cons, List.map_singleton, htwo, hone] at hvalues
  cases hl : sortedSnaps (inPeriod scan startDate endDate) with
  | nil =>
    rw [hl] at hsorted
    cases hsorted
  | cons first rest =>
    rw [hl] at hvalues
    rw [calculateMaxDrawdown_eq (hl ▸ sortedSnaps_sortedSnaps _)]
    have hfall := quantize2_mono
      (Drawdown.drop_le_largest (by norm_num) (by norm_num) first.totalValue hvalues)
    have hdrop : quantize2 (Drawdown.drop (2 : Decimal) 1) = 50 := by decide +kernel
    exact hdrop.symm.le.trans hfall

end SharedDay

/-! ## The reports -/

/-- The metrics exist whenever the powers they need do. -/
theorem exists_calculate_eq_ok (math : DecimalMath) (hpow : ∀ b e, ∃ x, math.pow b e = .ok x)
    (closed : List PositionRecord) (snapshots : List PortfolioSnapshot) (startDate endDate : ℤ)
    (riskFree : Decimal) : ∃ m, calculate math closed snapshots startDate endDate riskFree = .ok m := by
  have hrf : ∀ n, ∃ x, rfDailyPct math riskFree n = .ok x := by
    intro n
    obtain ⟨x, hx⟩ := hpow (1 + riskFree / 100) (1 / (n : Decimal))
    exact ⟨(x - 1) * 100, Wp.bind_eq_ok.2 ⟨x, hx, rfl⟩⟩
  have hsharpe : ∃ x, calculateSharpeRatio math (dailyReturnsFromSnapshots snapshots) riskFree = .ok x := by
    unfold calculateSharpeRatio
    obtain ⟨rf, hrf⟩ := hrf 252
    dsimp only
    rw [hrf]
    split
    · exact ⟨_, rfl⟩
    · simp only [Except.bind, bind]
      split
      · exact ⟨_, rfl⟩
      · exact ⟨_, rfl⟩
  have hsortino : ∃ x, calculateSortinoRatio math (dailyReturnsFromSnapshots snapshots) riskFree = .ok x := by
    unfold calculateSortinoRatio
    obtain ⟨rf, hrf⟩ := hrf 252
    dsimp only
    rw [hrf]
    split
    · exact ⟨_, rfl⟩
    · simp only [Except.bind, bind]
      split
      · exact ⟨_, rfl⟩
      · split
        · exact ⟨_, rfl⟩
        · exact ⟨_, rfl⟩
  have hannual : ∃ x, annualizedReturn math (sortedSnaps snapshots) startDate endDate
      (totalReturn (sortedSnaps snapshots)) = .ok x := by
    unfold annualizedReturn
    dsimp only
    split
    · obtain ⟨x, hx⟩ := hpow (1 + totalReturn (sortedSnaps snapshots) / 100)
        (365 / ((endDate - startDate : ℤ) : Decimal))
      exact ⟨_, Wp.bind_eq_ok.2 ⟨x, hx, rfl⟩⟩
    · exact ⟨_, rfl⟩
  obtain ⟨sharpe, hsharpe⟩ := hsharpe
  obtain ⟨sortino, hsortino⟩ := hsortino
  obtain ⟨annual, hannual⟩ := hannual
  exact ⟨_, Wp.bind_eq_ok.2 ⟨sharpe, hsharpe, Wp.bind_eq_ok.2 ⟨sortino, hsortino,
    Wp.bind_eq_ok.2 ⟨annual, hannual, rfl⟩⟩⟩⟩

/-- Square roots and powers that always exist; the return and the drawdown do not depend on them. -/
def steadyMath : DecimalMath where
  sqrt _ := 1
  pow _ _ := .ok 1

/-- A shared day of the period has totals and an order of the rows whose metrics are not the combined ones. -/
theorem exists_not_shows {history : Dict (String × ℤ) PortfolioSnapshot} {startDate endDate : ℤ}
    (h : ¬ NoSharedDay history startDate endDate) :
    ∃ totals scan m, scan.Perm (snapshotsOf history totals) ∧
      calculate steadyMath [] (sortedSnaps (inPeriod scan startDate endDate)) startDate endDate 0 = .ok m ∧
      ¬ ShowsCombined m (snapshotsOf history totals) startDate endDate := by
  unfold NoSharedDay at h
  push Not at h
  obtain ⟨a, b, day, ha, hb, hs, he, hab⟩ := h
  obtain ⟨scan, hscan, hfall⟩ := exists_scan history a day hab ha hb hs he
  obtain ⟨m, hm⟩ := exists_calculate_eq_ok steadyMath (fun _ _ => ⟨1, rfl⟩) []
    (sortedSnaps (inPeriod scan startDate endDate)) startDate endDate 0
  refine ⟨splitTotals history a day, scan, m, hscan, hm, fun hshows => ?_⟩
  have hzero := hshows.2
  rw [(calculate_eq_ok hm).2, combined_splitTotals] at hzero
  rw [hzero] at hfall
  exact absurd hfall (by norm_num)

theorem weeklyCombined_iff (history : Dict (String × ℤ) PortfolioSnapshot) (today : ℤ) (weekEnd : Option ℤ) :
    WeeklyCombined history today weekEnd ↔
      NoSharedDay history (weekEnd.getD today - 6) (weekEnd.getD today) := by
  constructor
  · intro hcombined
    by_contra hshared
    obtain ⟨totals, scan, m, hscan, hm, hnot⟩ := exists_not_shows hshared
    have hrun := hcombined totals scan hscan steadyMath [] 0
    unfold generateWeeklyReport at hrun
    simp only [getPortfolioSnapshots_none, getClosedPositions, List.filter_nil, List.insertionSort_nil] at hrun
    exact hnot (hrun _ (Wp.bind_eq_ok.2 ⟨m, hm, rfl⟩))
  · intro hdays totals scan hscan math positions riskFree data hdata
    unfold generateWeeklyReport at hdata
    simp only [getPortfolioSnapshots_none] at hdata
    obtain ⟨m, hm, hdata⟩ := Wp.bind_eq_ok.1 hdata
    cases hdata
    exact shows_of_nodup hscan (nodup_of_noSharedDay hdays) hm

theorem monthlyCombined_iff (history : Dict (String × ℤ) PortfolioSnapshot) (thisMonth : ℤ × ℕ)
    (year : Option ℤ) (month : Option ℕ) :
    MonthlyCombined history thisMonth year month ↔
      ∀ period, monthPeriod (year.getD thisMonth.1) (month.getD thisMonth.2) = .ok period →
        NoSharedDay history period.1 period.2 := by
  constructor
  · intro hcombined period hperiod
    by_contra hshared
    obtain ⟨totals, scan, m, hscan, hm, hnot⟩ := exists_not_shows hshared
    refine hnot (hcombined totals scan hscan Unit steadyMath [] (fun _ => .ok ()) 0 m () ?_ period hperiod)
    unfold generateMonthlyReport
    refine Wp.bind_eq_ok.2 ⟨period, hperiod, ?_⟩
    simp only [getPortfolioSnapshots_none, getClosedPositions, List.filter_nil, List.insertionSort_nil]
    exact Wp.bind_eq_ok.2 ⟨m, hm, Wp.bind_eq_ok.2 ⟨(), rfl, rfl⟩⟩
  · intro hdays totals scan hscan α math positions daily riskFree metrics dailyData hreport period hperiod
    unfold generateMonthlyReport at hreport
    rw [hperiod] at hreport
    obtain ⟨period', hperiod', hreport⟩ := Wp.bind_eq_ok.1 hreport
    cases hperiod'
    simp only [getPortfolioSnapshots_none] at hreport
    obtain ⟨m, hm, hreport⟩ := Wp.bind_eq_ok.1 hreport
    obtain ⟨_, _, hreport⟩ := Wp.bind_eq_ok.1 hreport
    cases hreport
    exact shows_of_nodup hscan (nodup_of_noSharedDay (hdays period hperiod)) hm

/-- The weekly and the monthly report over all accounts show the combined portfolio, for all totals and all row
orders, exactly if no two accounts have a snapshot on the same day of the week or month. -/
theorem reportsCombined_iff (history : Dict (String × ℤ) PortfolioSnapshot) :
    (∀ today weekEnd, WeeklyCombined history today weekEnd ↔
        NoSharedDay history (weekEnd.getD today - 6) (weekEnd.getD today)) ∧
      ∀ thisMonth year month, MonthlyCombined history thisMonth year month ↔
        ∀ period, monthPeriod (year.getD thisMonth.1) (month.getD thisMonth.2) = .ok period →
          NoSharedDay history period.1 period.2 :=
  ⟨weeklyCombined_iff history, monthlyCombined_iff history⟩

/-- A snapshot that only has a total. -/
def snapshot (accountId : String) (day : ℤ) (totalValue : Decimal) : PortfolioSnapshot :=
  { combinedSnapshot [] day with accountId, totalValue }

/-- Two accounts of ten million and of one million, unchanged from the first day to the fifth. -/
def twoAccounts : List PortfolioSnapshot :=
  [snapshot "A" 1 10000000, snapshot "B" 1 1000000, snapshot "A" 5 10000000, snapshot "B" 5 1000000]

/-- The weekly return and drawdown of rows in a scan order. -/
def weeklyMetrics (scan : List PortfolioSnapshot) : Except Exn (Decimal × Decimal) :=
  (generateWeeklyReport steadyMath { snapshots := scan } 7 0 none none).map
    (fun data => (data.performance.totalReturnPct, data.performance.maxDrawdownPct))

/-- The report shows a loss of 90 percent where the combined portfolio never changed, and another order of the
rows of the last day removes it. -/
theorem twoAccounts_report :
    weeklyMetrics twoAccounts = .ok (-90, 90) ∧
      totalReturn (combinedSeries twoAccounts) = 0 ∧ calculateMaxDrawdown (combinedSeries twoAccounts) = 0 ∧
      weeklyMetrics [snapshot "A" 1 10000000, snapshot "B" 1 1000000, snapshot "B" 5 1000000,
        snapshot "A" 5 10000000] = .ok (0, 90) := by
  decide +kernel

end CombinedReport

end TradingAgent
