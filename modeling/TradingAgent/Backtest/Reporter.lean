/-
The split of a backtest into an in-sample and an out-of-sample period. Snapshots and closed positions are cut at
the date of one snapshot, and a return out of sample below half of the one in sample counts as overfitted, which
for a negative return in sample may be the better one.
-/
import TradingAgent.Backtest.Reported

namespace TradingAgent

structure OOSSplitResult where
  splitDate : ℤ
  isRatio : Decimal
  inSampleMetrics : PerformanceMetrics
  outOfSampleMetrics : PerformanceMetrics
  isOverfit : Bool

namespace BacktestReporter

open PerformanceCalculator

/-! ## The split -/

/-- What is in sample and what is not. -/
structure Sides where
  splitDate : ℤ
  isSnapshots : List PortfolioSnapshot
  oosSnapshots : List PortfolioSnapshot
  isPositions : List PositionRecord
  oosPositions : List PositionRecord

variable (math : DecimalMath) (floatProduct : ℕ → Decimal → Decimal) (closedPositions : List PositionRecord)
  (snapshots : List PortfolioSnapshot)

/-- Cut at the snapshot whose index is the whole part of the number of snapshots times the ratio, a product of
floats; none if either side would have fewer than two snapshots. -/
def sides (isRatio : Decimal) : Option Sides :=
  let sorted := sortedSnaps snapshots
  let n := sorted.length
  if n < 4 then none
  else
    let splitIndex := Rounding.trunc (floatProduct n isRatio)
    if splitIndex < 2 ∨ splitIndex ≥ n - 1 then none
    else
      match sorted[splitIndex.toNat]? with
      | none => none
      | some snap => some {
          splitDate := snap.snapshotDate
          isSnapshots := sorted.take splitIndex.toNat
          oosSnapshots := sorted.drop splitIndex.toNat
          isPositions := closedPositions.filter (fun p => p.exitDate.any (fun d => d < snap.snapshotDate))
          oosPositions := closedPositions.filter (fun p => p.exitDate.any (fun d => d ≥ snap.snapshotDate)) }

/-- The metrics of both sides, at the default risk-free rate. -/
def splitIsOos (periodStart periodEnd : ℤ) (isRatio : Decimal) : Except Exn (Option OOSSplitResult) :=
  match sides floatProduct closedPositions snapshots isRatio with
  | none => .ok none
  | some s => do
    let isMetrics ← calculate math s.isPositions s.isSnapshots periodStart s.splitDate (35 / 10)
    let oosMetrics ← calculate math s.oosPositions s.oosSnapshots s.splitDate periodEnd (35 / 10)
    pure (some {
      splitDate := s.splitDate, isRatio, inSampleMetrics := isMetrics, outOfSampleMetrics := oosMetrics
      isOverfit := oosMetrics.totalReturnPct < isMetrics.totalReturnPct * (5 / 10) })

/-! ## What a split is for -/

/-- Every snapshot and every closed position with an exit date is on one side of the split date, and both sides
have a return. -/
structure Divides (s : Sides) : Prop where
  snapshots : (s.isSnapshots ++ s.oosSnapshots).Perm snapshots
  positions : (s.isPositions ++ s.oosPositions).Perm (closedPositions.filter (·.exitDate.isSome))
  isLength : 2 ≤ s.isSnapshots.length
  oosLength : 2 ≤ s.oosSnapshots.length
  isDates : ∀ snap ∈ s.isSnapshots, snap.snapshotDate < s.splitDate
  oosDates : ∀ snap ∈ s.oosSnapshots, s.splitDate ≤ snap.snapshotDate
  isExits : ∀ p ∈ s.isPositions, ∃ d, p.exitDate = some d ∧ d < s.splitDate
  oosExits : ∀ p ∈ s.oosPositions, ∃ d, p.exitDate = some d ∧ s.splitDate ≤ d

/-- The metrics of a result are those of the sides. -/
structure Measures (s : Sides) (periodStart periodEnd : ℤ) (r : OOSSplitResult) : Prop where
  splitDate : r.splitDate = s.splitDate
  inSample : calculate math s.isPositions s.isSnapshots periodStart s.splitDate (35 / 10) = .ok r.inSampleMetrics
  outOfSample : calculate math s.oosPositions s.oosSnapshots s.splitDate periodEnd (35 / 10) = .ok r.outOfSampleMetrics
  isOverfit : r.isOverfit =
    decide (r.outOfSampleMetrics.totalReturnPct < r.inSampleMetrics.totalReturnPct * (5 / 10))

variable {math floatProduct closedPositions snapshots}

/-! ## Splits are sound -/

/-- Sorted snapshots of different dates are strictly in order. -/
theorem pairwise_lt_sortedSnaps (h : (snapshots.map (·.snapshotDate)).Nodup) :
    (sortedSnaps snapshots).Pairwise (fun a b => a.snapshotDate < b.snapshotDate) := by
  have hnodup : (sortedSnaps snapshots).Pairwise (fun a b => a.snapshotDate ≠ b.snapshotDate) := by
    rw [← List.pairwise_map]
    exact ((List.perm_insertionSort _ snapshots).map _).nodup_iff.2 h
  exact (pairwise_sortedSnaps snapshots).imp₂ (fun _ _ hle hne => lt_of_le_of_ne hle hne) hnodup

/-- The positions with an exit date are those before a date and those from it on. -/
theorem perm_positions (closedPositions : List PositionRecord) (day : ℤ) :
    (closedPositions.filter (fun p => p.exitDate.any (fun d => d < day)) ++
      closedPositions.filter (fun p => p.exitDate.any (fun d => d ≥ day))).Perm
        (closedPositions.filter (·.exitDate.isSome)) := by
  have hperm := List.filter_append_perm (fun p : PositionRecord => p.exitDate.any (fun d => d < day))
    (closedPositions.filter (·.exitDate.isSome))
  rw [List.filter_filter, List.filter_filter] at hperm
  have hbefore : closedPositions.filter (fun p => p.exitDate.any (fun d => d < day)) =
      closedPositions.filter (fun p => p.exitDate.any (fun d => d < day) && p.exitDate.isSome) := by
    refine List.filter_congr fun p _ => ?_
    cases p.exitDate <;> simp
  have hafter : closedPositions.filter (fun p => p.exitDate.any (fun d => d ≥ day)) =
      closedPositions.filter (fun p => !(p.exitDate.any (fun d => d < day)) && p.exitDate.isSome) := by
    refine List.filter_congr fun p _ => ?_
    cases p.exitDate with
    | none => rfl
    | some d =>
      show decide (d ≥ day) = (!decide (d < day) && true)
      rw [Bool.and_true, ← decide_not]
      exact decide_eq_decide.2 not_lt.symm
  rw [hbefore, hafter]
  exact hperm

theorem exists_exit_of_mem_filter {closedPositions : List PositionRecord} {later : ℤ → Bool} {p : PositionRecord}
    (h : p ∈ closedPositions.filter (fun p => p.exitDate.any later)) : ∃ d, p.exitDate = some d ∧ later d = true := by
  have hany := (List.mem_filter.1 h).2
  cases hexit : p.exitDate with
  | none =>
    rw [hexit] at hany
    cases hany
  | some d =>
    rw [hexit] at hany
    exact ⟨d, rfl, hany⟩

/-- A split is made at an index with at least two snapshots before it and two from it on. -/
theorem exists_index_of_sides {isRatio : Decimal} {s : Sides}
    (h : sides floatProduct closedPositions snapshots isRatio = some s) :
    ∃ index snap, (sortedSnaps snapshots)[index]? = some snap ∧ 2 ≤ index ∧
      index + 2 ≤ (sortedSnaps snapshots).length ∧ s = {
        splitDate := snap.snapshotDate
        isSnapshots := (sortedSnaps snapshots).take index
        oosSnapshots := (sortedSnaps snapshots).drop index
        isPositions := closedPositions.filter (fun p => p.exitDate.any (fun d => d < snap.snapshotDate))
        oosPositions := closedPositions.filter (fun p => p.exitDate.any (fun d => d ≥ snap.snapshotDate)) } := by
  unfold sides at h
  dsimp only at h
  split at h
  · cases h
  split at h
  · cases h
  rename_i hindex
  rw [not_or, not_lt, not_le] at hindex
  generalize Rounding.trunc (floatProduct (sortedSnaps snapshots).length isRatio) = index at h hindex
  cases hsnap : (sortedSnaps snapshots)[index.toNat]? with
  | none =>
    rw [hsnap] at h
    cases h
  | some snap =>
    rw [hsnap] at h
    cases h
    exact ⟨index.toNat, snap, hsnap, by omega, by omega, rfl⟩

/-- Whatever the float product is: a split divides the snapshots and the closed positions. -/
theorem divides_of_sides {isRatio : Decimal} {s : Sides} (hdates : (snapshots.map (·.snapshotDate)).Nodup)
    (h : sides floatProduct closedPositions snapshots isRatio = some s) : Divides closedPositions snapshots s := by
  have hlt := pairwise_lt_sortedSnaps hdates
  have hperm := List.perm_insertionSort (fun a b : PortfolioSnapshot => a.snapshotDate ≤ b.snapshotDate) snapshots
  obtain ⟨index, snap, hsnap, hbefore, hafter, rfl⟩ := exists_index_of_sides h
  -- the sorted snapshots, cut before the one at the index
  have hsplit := List.take_append_drop index (sortedSnaps snapshots)
  have hhead : ((sortedSnaps snapshots).drop index).head? = some snap := by
    rw [List.head?_drop, hsnap]
  rw [← hsplit, List.pairwise_append] at hlt
  have hmem : snap ∈ (sortedSnaps snapshots).drop index := List.mem_of_head? hhead
  refine {
    snapshots := ?_
    positions := perm_positions closedPositions snap.snapshotDate
    isLength := ?_
    oosLength := ?_
    isDates := fun a ha => hlt.2.2 a ha snap hmem
    oosDates := ?_
    isExits := fun p hp => ?_
    oosExits := fun p hp => ?_ }
  · show (List.take index (sortedSnaps snapshots) ++ List.drop index (sortedSnaps snapshots)).Perm snapshots
    rw [hsplit]
    exact hperm
  · show 2 ≤ (List.take index (sortedSnaps snapshots)).length
    rw [List.length_take]
    omega
  · show 2 ≤ (List.drop index (sortedSnaps snapshots)).length
    rw [List.length_drop]
    omega
  · intro b hb
    cases hdrop : (sortedSnaps snapshots).drop index with
    | nil =>
      rw [hdrop] at hhead
      cases hhead
    | cons a rest =>
      rw [hdrop] at hhead
      obtain rfl : a = snap := Option.some.inj hhead
      have hb' : b ∈ a :: rest := hdrop ▸ hb
      rcases List.mem_cons.1 hb' with rfl | hrest
      · exact le_rfl
      · have hpair := hlt.2.1
        rw [hdrop, List.pairwise_cons] at hpair
        exact (hpair.1 b hrest).le
  · obtain ⟨d, hd, hexit⟩ := exists_exit_of_mem_filter hp
    exact ⟨d, hd, of_decide_eq_true hexit⟩
  · obtain ⟨d, hd, hexit⟩ := exists_exit_of_mem_filter hp
    exact ⟨d, hd, of_decide_eq_true hexit⟩

/-- A result is that of the metrics of the sides. -/
theorem exists_sides_of_splitIsOos {periodStart periodEnd : ℤ} {isRatio : Decimal} {r : OOSSplitResult}
    (h : splitIsOos math floatProduct closedPositions snapshots periodStart periodEnd isRatio = .ok (some r)) :
    ∃ s, sides floatProduct closedPositions snapshots isRatio = some s ∧ Measures math s periodStart periodEnd r := by
  unfold splitIsOos at h
  cases hsides : sides floatProduct closedPositions snapshots isRatio with
  | none =>
    rw [hsides] at h
    cases h
  | some s =>
    rw [hsides] at h
    obtain ⟨isMetrics, his, h⟩ := Wp.bind_eq_ok.1 h
    obtain ⟨oosMetrics, hoos, h⟩ := Wp.bind_eq_ok.1 h
    cases h
    exact ⟨s, rfl, ⟨rfl, his, hoos, rfl⟩⟩

/-- A split of a backtest divides its snapshots and closed positions; it counts as overfitted if the return out of
sample is below half of that in sample, which is then the higher one unless it is negative. -/
theorem splitIsOos_sound {periodStart periodEnd : ℤ} {isRatio : Decimal} {r : OOSSplitResult}
    (hdates : (snapshots.map (·.snapshotDate)).Nodup)
    (h : splitIsOos math floatProduct closedPositions snapshots periodStart periodEnd isRatio = .ok (some r)) :
    (∃ s, Divides closedPositions snapshots s ∧ Measures math s periodStart periodEnd r) ∧
      (r.isOverfit = true → r.outOfSampleMetrics.totalReturnPct < r.inSampleMetrics.totalReturnPct / 2) ∧
      (r.isOverfit = true → 0 ≤ r.inSampleMetrics.totalReturnPct →
        r.outOfSampleMetrics.totalReturnPct < r.inSampleMetrics.totalReturnPct) := by
  obtain ⟨s, hsides, hmeasures⟩ := exists_sides_of_splitIsOos h
  have hhalf : r.isOverfit = true → r.outOfSampleMetrics.totalReturnPct < r.inSampleMetrics.totalReturnPct / 2 := by
    intro hover
    rw [hmeasures.isOverfit, decide_eq_true_iff] at hover
    linarith
  refine ⟨⟨s, divides_of_sides hdates hsides, hmeasures⟩, hhalf, fun hover hnonneg => ?_⟩
  have hlt := hhalf hover
  linarith

/-- The overfitted split of four days that rise by a tenth and then by a fiftieth. -/
theorem splitIsOos_sound_rising : ∃ s r,
    Divides [] [cashSnapshot 0 100, cashSnapshot 1 110, cashSnapshot 5 100, cashSnapshot 10 102] s ∧
      Measures plainMath s 0 10 r ∧ r.isOverfit = true ∧
      r.outOfSampleMetrics.totalReturnPct < r.inSampleMetrics.totalReturnPct := by
  have hval : (splitIsOos plainMath (fun n ratio => n * ratio) []
      [cashSnapshot 0 100, cashSnapshot 1 110, cashSnapshot 5 100, cashSnapshot 10 102] 0 10 (1 / 2)).toOption.map
      (Option.map fun r => (r.isOverfit, r.inSampleMetrics.totalReturnPct)) = some (some (true, 10)) := by
    decide +kernel
  cases hsplit : splitIsOos plainMath (fun n ratio => n * ratio) []
      [cashSnapshot 0 100, cashSnapshot 1 110, cashSnapshot 5 100, cashSnapshot 10 102] 0 10 (1 / 2) with
  | error exn =>
    rw [hsplit] at hval
    cases hval
  | ok split =>
    rw [hsplit] at hval
    obtain ⟨r, rfl, hr⟩ := Option.map_eq_some_iff.1 (Option.some.inj hval)
    obtain ⟨hover, hreturn⟩ := Prod.mk.inj hr
    obtain ⟨⟨s, hdivides, hmeasures⟩, -, hlower⟩ := splitIsOos_sound (by decide) hsplit
    refine ⟨s, r, hdivides, hmeasures, hover, hlower hover ?_⟩
    rw [hreturn]
    norm_num

/-- A fall of a tenth in sample and of six hundredths out of sample count as overfitted. -/
theorem not_splitIsOos_sound : ∃ r,
    ([cashSnapshot 0 100, cashSnapshot 1 90, cashSnapshot 5 100, cashSnapshot 10 94].map (·.snapshotDate)).Nodup ∧
      splitIsOos plainMath (fun n ratio => n * ratio) []
        [cashSnapshot 0 100, cashSnapshot 1 90, cashSnapshot 5 100, cashSnapshot 10 94] 0 10 (1 / 2) = .ok (some r) ∧
      ¬ (r.isOverfit = true → r.outOfSampleMetrics.totalReturnPct < r.inSampleMetrics.totalReturnPct) := by
  have hval : (splitIsOos plainMath (fun n ratio => n * ratio) []
      [cashSnapshot 0 100, cashSnapshot 1 90, cashSnapshot 5 100, cashSnapshot 10 94] 0 10 (1 / 2)).toOption.map
      (Option.map fun r => (r.isOverfit, r.inSampleMetrics.totalReturnPct, r.outOfSampleMetrics.totalReturnPct)) =
        some (some (true, -10, -6)) := by decide +kernel
  cases hsplit : splitIsOos plainMath (fun n ratio => n * ratio) []
      [cashSnapshot 0 100, cashSnapshot 1 90, cashSnapshot 5 100, cashSnapshot 10 94] 0 10 (1 / 2) with
  | error exn =>
    rw [hsplit] at hval
    cases hval
  | ok split =>
    rw [hsplit] at hval
    obtain ⟨r, rfl, hr⟩ := Option.map_eq_some_iff.1 (Option.some.inj hval)
    obtain ⟨hover, hreturns⟩ := Prod.mk.inj hr
    obtain ⟨his, hoos⟩ := Prod.mk.inj hreturns
    refine ⟨r, by decide, rfl, fun hlower => ?_⟩
    have hlt := hlower hover
    rw [his, hoos] at hlt
    norm_num at hlt

/-! ## Splits of a run -/

/-- A completed run has at most one snapshot of each date. -/
theorem nodup_dates_of_completed {B : Bench} {config : BacktestConfig} {e : BacktestEngine} {r : BacktestResult}
    {w : Backtest} (hrun : BacktestEngine.run B config ⟨e, BacktestEngine.newBroker B config⟩ = .ok r w)
    (hdone : r.status = .completed) : (w.engine.snapshots.map (·.snapshotDate)).Nodup := by
  have hdates : (BacktestEngine.tradingDates B config).Nodup :=
    ((B.loader.pairwise_lt_tradingDates.filter _).imp ne_of_lt)
  have hrecorded : ∀ {days : List ℤ} {w : Backtest}, BacktestEngine.Recorded config.initialCapital days w →
      days.Nodup → (w.engine.snapshots.map (·.snapshotDate)).Nodup := fun h hnodup => h.dates ▸ hnodup
  have hbody : Wp.wp (BacktestEngine.runBody B config)
      (fun _ w' => (w'.engine.snapshots.map (·.snapshotDate)).Nodup) (fun _ _ => True)
      ⟨e, BacktestEngine.newBroker B config⟩ := by
    unfold BacktestEngine.runBody
    rw [Wp.wp_bind]
    refine Wp.wp_mono (BacktestEngine.prepare_recorded B config e) (fun _ w₀ h₀ => ?_) (fun _ _ h => h)
    cases (BacktestEngine.tradingDates B config).getLast? with
    | none => exact hrecorded h₀ List.nodup_nil
    | some lastDate =>
      dsimp only
      split
      · exact hrecorded h₀ List.nodup_nil
      rw [Wp.wp_bind]
      refine Wp.wp_mono (BacktestEngine.days_recorded B config _ h₀) (fun _ w₁ h₁ => ?_) (fun _ _ h => h)
      refine Wp.wp_mono (BacktestEngine.finish_spec B config lastDate w₁) (fun _ w₂ h₂ => ?_) (fun _ _ h => h)
      exact h₂ ▸ hrecorded h₁ hdates
  have hspec : Wp.wp (BacktestEngine.run B config)
      (fun r w' => r.status = .completed → (w'.engine.snapshots.map (·.snapshotDate)).Nodup) (fun _ _ => True)
      ⟨e, BacktestEngine.newBroker B config⟩ := by
    unfold BacktestEngine.run
    rw [Wp.wp_tryCatch]
    refine Wp.wp_mono hbody (fun _ _ h _ => h) (fun _ _ _ => ?_)
    intro hfail
    cases hfail
  exact Wp.wp_of_ok hspec hrun hdone

/-- A split of a completed run divides its snapshots. -/
theorem divides_of_completed {B : Bench} {config : BacktestConfig} {e : BacktestEngine} {r : BacktestResult}
    {w : Backtest} (hrun : BacktestEngine.run B config ⟨e, BacktestEngine.newBroker B config⟩ = .ok r w)
    (hdone : r.status = .completed) {isRatio : Decimal} {s : Sides}
    (h : sides floatProduct closedPositions w.engine.snapshots isRatio = some s) :
    Divides closedPositions w.engine.snapshots s :=
  divides_of_sides (nodup_dates_of_completed hrun hdone) h

end BacktestReporter

end TradingAgent
