/-
The monthly returns of a backtest, and the growth of the two sides of its split. A month grows from its first to its
last snapshot and a side of the split from its first to its last; a move over a month end, or over the split date,
is in no return.
-/
import TradingAgent.Backtest.Reporter
import TradingAgent.Lib.Calendar
import TradingAgent.Lib.Groups

namespace TradingAgent

namespace BacktestReporter

open PerformanceCalculator Groups

/-! ## Monthly returns -/

/-- The month of a snapshot; numbered twelve to a year, months are in the order of their names YYYY-MM. -/
def monthKey (snap : PortfolioSnapshot) : ℤ := Calendar.monthIndex snap.snapshotDate

/-- The return of a month in percent: zero for a single snapshot, none from a first value of zero. -/
def monthlyReturn (round : Decimal → Decimal) (monthSnaps : List PortfolioSnapshot) : Option Decimal :=
  if monthSnaps.length < 2 then some 0
  else
    match monthSnaps.head?, monthSnaps.getLast? with
    | some first, some last =>
      if first.totalValue = 0 then none
      else some (round ((last.totalValue - first.totalValue) / first.totalValue * 100))
    | _, _ => none

/-- One month of the loop over the months. -/
def monthStep (round : Decimal → Decimal) (groups : Dict ℤ (List PortfolioSnapshot)) (result : Dict ℤ Decimal)
    (key : ℤ) : Dict ℤ Decimal :=
  match monthlyReturn round ((groups.get? key).getD []) with
  | none => result
  | some ret => result.set key ret

/-- The returns of the months that have snapshots, under a rounding. -/
def calculateMonthlyReturns (round : Decimal → Decimal) (snapshots : List PortfolioSnapshot) : Dict ℤ Decimal :=
  if snapshots = [] then Dict.empty
  else
    let groups := group monthKey (sortedSnaps snapshots)
    (groups.keys.insertionSort (· ≤ ·)).foldl (monthStep round groups) Dict.empty

example : (calculateMonthlyReturns quantize2 [cashSnapshot 33 121, cashSnapshot 0 100, cashSnapshot 30 110,
    cashSnapshot 31 121]).items = [(Calendar.monthIndex 0, 10), (Calendar.monthIndex 31, 0)] := by decide +kernel

/-! ## What compounds -/

/-- The product of the growth that the monthly returns say before they are rounded. -/
def monthlyGrowth (snapshots : List PortfolioSnapshot) : Decimal :=
  ((calculateMonthlyReturns id snapshots).values.map (fun ret => 1 + ret / 100)).prod

/-- The product of the moves between consecutive snapshots of one month. -/
def withinMonths (snapshots : List PortfolioSnapshot) : Decimal :=
  (((moves (sortedSnaps snapshots)).filter (fun m => monthKey m.1 = monthKey m.2)).map
    (factor (·.totalValue))).prod

/-- The product of the moves from the last snapshot of a month to the first of a later one. -/
def overMonthEnds (snapshots : List PortfolioSnapshot) : Decimal :=
  (((moves (sortedSnaps snapshots)).filter (fun m => monthKey m.1 ≠ monthKey m.2)).map
    (factor (·.totalValue))).prod

/-- The return in percent that a series reports. -/
def reported (snapshots : List PortfolioSnapshot) : Decimal :=
  quantize2 ((growth (·.totalValue) snapshots - 1) * 100)

/-- The monthly returns have the moves within the months, and the sides of a split the moves within the sides. -/
structure Compounds (snapshots : List PortfolioSnapshot) : Prop where
  months : monthlyGrowth snapshots = withinMonths snapshots
  run : growth (·.totalValue) (sortedSnaps snapshots) = monthlyGrowth snapshots * overMonthEnds snapshots
  rounded : calculateMonthlyReturns quantize2 snapshots =
    (calculateMonthlyReturns id snapshots).mapValues (fun _ => quantize2)
  split : ∀ {math floatProduct closedPositions periodStart periodEnd isRatio r},
    splitIsOos math floatProduct closedPositions snapshots periodStart periodEnd isRatio = .ok (some r) →
    ∃ s last first, sides floatProduct closedPositions snapshots isRatio = some s ∧
      s.isSnapshots.getLast? = some last ∧ s.oosSnapshots.head? = some first ∧
      growth (·.totalValue) (sortedSnaps snapshots) = growth (·.totalValue) s.isSnapshots *
        factor (·.totalValue) (last, first) * growth (·.totalValue) s.oosSnapshots ∧
      r.inSampleMetrics.totalReturnPct = reported s.isSnapshots ∧
      r.outOfSampleMetrics.totalReturnPct = reported s.oosSnapshots

/-! ## The loop over the months -/

variable {round : Decimal → Decimal}

/-- A month that has snapshots, none of them zero, reports its growth. -/
theorem monthlyReturn_eq (hround : round 0 = 0) {monthSnaps : List PortfolioSnapshot} (hne : monthSnaps ≠ [])
    (hvalue : ∀ snap ∈ monthSnaps, snap.totalValue ≠ 0) :
    monthlyReturn round monthSnaps = some (round ((growth (·.totalValue) monthSnaps - 1) * 100)) := by
  obtain ⟨first, rest, rfl⟩ := List.exists_cons_of_ne_nil hne
  have hfirst := hvalue first List.mem_cons_self
  unfold monthlyReturn
  split
  · rename_i hlen
    have hnil : rest = [] := by
      rw [List.length_cons] at hlen
      exact List.length_eq_zero_iff.1 (by omega)
    rw [hnil, growth_singleton _ hfirst, sub_self, zero_mul, hround]
  · have hlast := List.getLast?_eq_some_getLast hne
    rw [List.head?_cons, hlast, growth_eq _ rfl hlast]
    dsimp only
    rw [if_neg hfirst, sub_div, div_self hfirst]

theorem monthlyReturn_round (hround : round 0 = 0) (monthSnaps : List PortfolioSnapshot) :
    monthlyReturn round monthSnaps = (monthlyReturn id monthSnaps).map round := by
  unfold monthlyReturn
  split
  · rw [Option.map_some, hround]
  · cases monthSnaps.head? with
    | none => rfl
    | some first =>
      cases monthSnaps.getLast? with
      | none => rfl
      | some last =>
        dsimp only
        split
        · rfl
        · rfl

/-- The loop adds the returns of the months in their order. -/
theorem items_foldl_monthStep (groups : Dict ℤ (List PortfolioSnapshot)) (keys : List ℤ) (result : Dict ℤ Decimal)
    (hnodup : keys.Nodup) (hnew : ∀ key ∈ keys, result.get? key = none) :
    (keys.foldl (monthStep round groups) result).items = result.items ++ keys.filterMap (fun key =>
      (monthlyReturn round ((groups.get? key).getD [])).map (fun ret => (key, ret))) := by
  induction keys generalizing result with
  | nil => exact (List.append_nil _).symm
  | cons key keys ih =>
    rw [List.nodup_cons] at hnodup
    rw [List.foldl_cons, List.filterMap_cons]
    cases hret : monthlyReturn round ((groups.get? key).getD []) with
    | none =>
      have hstep : monthStep round groups result key = result := by
        unfold monthStep
        rw [hret]
      rw [hstep]
      exact ih result hnodup.2 fun k hk => hnew k (List.mem_cons_of_mem _ hk)
    | some ret =>
      have hstep : monthStep round groups result key = result.set key ret := by
        unfold monthStep
        rw [hret]
      have hlater : ∀ k ∈ keys, (result.set key ret).get? k = none := by
        intro k hk
        rw [Dict.get?_set_ne _ _ (ne_of_mem_of_not_mem hk hnodup.1)]
        exact hnew k (List.mem_cons_of_mem _ hk)
      rw [hstep, ih _ hnodup.2 hlater, Dict.items_set_of_none _ _ (hnew key List.mem_cons_self), List.append_assoc]
      rfl

theorem items_calculateMonthlyReturns (snapshots : List PortfolioSnapshot) :
    (calculateMonthlyReturns round snapshots).items =
      ((group monthKey (sortedSnaps snapshots)).keys.insertionSort (· ≤ ·)).filterMap (fun key =>
        (monthlyReturn round (((group monthKey (sortedSnaps snapshots)).get? key).getD [])).map
          (fun ret => (key, ret))) := by
  unfold calculateMonthlyReturns
  split
  · rename_i hnil
    rw [hnil]
    rfl
  · dsimp only
    rw [items_foldl_monthStep _ _ _ ?_ fun _ _ => rfl]
    · rfl
    · exact (List.perm_insertionSort _ _).nodup_iff.2 (group monthKey (sortedSnaps snapshots)).nodup

/-! ## The months compound -/

variable {snapshots : List PortfolioSnapshot}

theorem rounded_calculateMonthlyReturns (snapshots : List PortfolioSnapshot) :
    calculateMonthlyReturns quantize2 snapshots =
      (calculateMonthlyReturns id snapshots).mapValues (fun _ => quantize2) := by
  refine Dict.eq_of_items ?_
  show _ = (calculateMonthlyReturns id snapshots).items.map (fun e => (e.1, quantize2 e.2))
  rw [items_calculateMonthlyReturns, items_calculateMonthlyReturns, List.map_filterMap]
  refine List.filterMap_congr fun key _ => ?_
  rw [monthlyReturn_round quantize2_zero, Option.map_map, Option.map_map]
  rfl

/-- The monthly returns say the growth of the months. -/
theorem monthlyGrowth_eq (hvalue : ∀ snap ∈ snapshots, snap.totalValue ≠ 0) :
    monthlyGrowth snapshots = product (·.totalValue) (group monthKey (sortedSnaps snapshots)) := by
  have hsorted : ∀ snap ∈ sortedSnaps snapshots, snap.totalValue ≠ 0 := fun snap hsnap =>
    hvalue snap (mem_sortedSnaps.1 hsnap)
  have hgroup : ∀ e ∈ (group monthKey (sortedSnaps snapshots)).items,
      monthlyReturn id (((group monthKey (sortedSnaps snapshots)).get? e.1).getD []) =
        some ((growth (·.totalValue) e.2 - 1) * 100) := by
    intro e he
    have hget := (Dict.mem_items_iff _ e.1 e.2).1 he
    rw [hget, Option.getD_some]
    rw [get?_group] at hget
    split at hget
    · rename_i hmem
      obtain ⟨snap, hsnap, hkey⟩ := List.mem_map.1 hmem
      have heq := Option.some.inj hget
      refine monthlyReturn_eq rfl ?_ ?_
      · rw [← heq]
        exact List.ne_nil_of_mem (List.mem_filter.2 ⟨hsnap, decide_eq_true hkey⟩)
      · rw [← heq]
        exact fun a ha => hsorted a (List.mem_of_mem_filter ha)
    · cases hget
  unfold monthlyGrowth product Dict.values
  rw [items_calculateMonthlyReturns]
  -- the order of the months does not matter
  have hperm := (List.perm_insertionSort (· ≤ ·) (group monthKey (sortedSnaps snapshots)).keys).filterMap
    (fun key => (monthlyReturn id (((group monthKey (sortedSnaps snapshots)).get? key).getD [])).map
      (fun ret => (key, ret)))
  rw [((hperm.map Prod.snd).map (fun ret => 1 + ret / 100)).prod_eq, Dict.keys, List.filterMap_map, List.map_map]
  rw [List.map_filterMap]
  have hmonths : (group monthKey (sortedSnaps snapshots)).items.filterMap (fun e =>
      Option.map (fun ret => 1 + ret / 100)
        (monthlyReturn id (((group monthKey (sortedSnaps snapshots)).get? e.1).getD []))) =
      (group monthKey (sortedSnaps snapshots)).items.map (fun e => growth (·.totalValue) e.2) := by
    rw [← List.filterMap_eq_map]
    refine List.filterMap_congr fun e he => ?_
    rw [hgroup e he, Option.map_some]
    refine congrArg some ?_
    show 1 + (growth (·.totalValue) e.2 - 1) * 100 / 100 = growth (·.totalValue) e.2
    ring
  rw [← hmonths]
  refine congrArg List.prod (List.filterMap_congr fun e _ => ?_)
  rw [Function.comp_apply, Option.map_map]
  rfl

theorem pairwise_monthKey (snapshots : List PortfolioSnapshot) :
    (sortedSnaps snapshots).Pairwise (fun a b => monthKey a ≤ monthKey b) :=
  (pairwise_sortedSnaps snapshots).imp fun h => Calendar.monthIndex_mono h

/-! ## The sides compound -/

/-- The whole grows by its sides and by the move between them. -/
theorem growth_of_sides {floatProduct : ℕ → Decimal → Decimal} {closedPositions : List PositionRecord}
    {isRatio : Decimal} {s : Sides} (hvalue : ∀ snap ∈ sortedSnaps snapshots, snap.totalValue ≠ 0)
    (h : sides floatProduct closedPositions snapshots isRatio = some s) :
    ∃ last first, s.isSnapshots.getLast? = some last ∧ s.oosSnapshots.head? = some first ∧
      growth (·.totalValue) (sortedSnaps snapshots) = growth (·.totalValue) s.isSnapshots *
        factor (·.totalValue) (last, first) * growth (·.totalValue) s.oosSnapshots := by
  obtain ⟨index, snap, hsnap, hbefore, hafter, rfl⟩ := exists_index_of_sides h
  have hsplit := List.take_append_drop index (sortedSnaps snapshots)
  have hhead : ((sortedSnaps snapshots).drop index).head? = some snap := by
    rw [List.head?_drop, hsnap]
  have hne : (sortedSnaps snapshots).take index ≠ [] := by
    refine List.ne_nil_of_length_pos ?_
    rw [List.length_take]
    omega
  have hlast := List.getLast?_eq_some_getLast hne
  refine ⟨_, snap, hlast, hhead, ?_⟩
  have hgrowth := growth_append (·.totalValue) hlast hhead
    (hvalue _ (List.mem_of_mem_take (List.getLast_mem hne))) (hvalue snap (List.mem_of_getElem? hsnap))
  rwa [hsplit] at hgrowth

/-- The metrics of a part of the snapshots in order report the growth of the part. -/
theorem totalReturnPct_eq {math : DecimalMath} {closed : List PositionRecord} {part : List PortfolioSnapshot}
    {periodStart periodEnd : ℤ} {riskFree : Decimal} {m : PerformanceMetrics}
    (hvalue : ∀ snap ∈ sortedSnaps snapshots, snap.totalValue ≠ 0) (hpart : part.Sublist (sortedSnaps snapshots))
    (hne : part ≠ []) (h : calculate math closed part periodStart periodEnd riskFree = .ok m) :
    m.totalReturnPct = reported part := by
  have hsorted : sortedSnaps part = part := ((pairwise_sortedSnaps snapshots).sublist hpart).insertionSort_eq
  obtain ⟨first, rest, rfl⟩ := List.exists_cons_of_ne_nil hne
  have hfirst := hvalue first (hpart.subset List.mem_cons_self)
  have hlast := List.getLast?_eq_some_getLast hne
  rw [(calculate_eq_ok h).1, hsorted, totalReturn_eq rfl hlast hfirst]
  unfold reported
  rw [growth_eq _ rfl hlast, sub_div, div_self hfirst]

/-- Over snapshots with positive values, each move between consecutive snapshots of one month is in the return of
that month and each one within a side of the split in the return of that side, and no other move is. -/
theorem periodReturns_compound (hpos : ∀ snap ∈ snapshots, 0 < snap.totalValue) : Compounds snapshots := by
  have hvalue : ∀ snap ∈ sortedSnaps snapshots, snap.totalValue ≠ 0 := fun snap hsnap =>
    (hpos snap (mem_sortedSnaps.1 hsnap)).ne'
  have hmonthly := monthlyGrowth_eq fun snap hsnap => (hpos snap hsnap).ne'
  have hsorted := pairwise_monthKey snapshots
  refine {
    months := hmonthly.trans (product_group monthKey (·.totalValue) hsorted hvalue)
    run := hmonthly ▸ growth_eq_product_mul monthKey (·.totalValue) hsorted hvalue
    rounded := rounded_calculateMonthlyReturns snapshots
    split := ?_ }
  intro math floatProduct closedPositions periodStart periodEnd isRatio r h
  obtain ⟨s, hsides, hmeasures⟩ := exists_sides_of_splitIsOos h
  obtain ⟨last, first, hlast, hfirst, hgrowth⟩ := growth_of_sides hvalue hsides
  obtain ⟨index, snap, -, hbefore, hafter, rfl⟩ := exists_index_of_sides hsides
  refine ⟨_, last, first, hsides, hlast, hfirst, hgrowth, ?_, ?_⟩
  · exact totalReturnPct_eq hvalue (List.take_sublist index _)
      (fun hnil => by rw [hnil] at hlast; cases hlast) hmeasures.inSample
  · exact totalReturnPct_eq hvalue (List.drop_sublist index _)
      (fun hnil => by rw [hnil] at hfirst; cases hfirst) hmeasures.outOfSample

/-- Two months of two snapshots in which only the first rises, with a rise over the month end. -/
def twoMonths : List PortfolioSnapshot :=
  [cashSnapshot 29 100, cashSnapshot 30 110, cashSnapshot 31 121, cashSnapshot 32 121]

theorem periodReturns_compound_twoMonths : Compounds twoMonths ∧ overMonthEnds twoMonths = 11 / 10 :=
  ⟨periodReturns_compound (by decide +kernel), by decide +kernel⟩

/-- The rise over the month end is in no monthly return and, where it is also the split date, in no side. -/
theorem not_periodReturns_compound :
    (∀ snap ∈ twoMonths, 0 < snap.totalValue) ∧
      ¬ (monthlyGrowth twoMonths = growth (·.totalValue) (sortedSnaps twoMonths)) ∧
      ¬ (∀ s, sides (fun n ratio => n * ratio) [] twoMonths (1 / 2) = some s →
        growth (·.totalValue) s.isSnapshots * growth (·.totalValue) s.oosSnapshots =
          growth (·.totalValue) (sortedSnaps twoMonths)) := by
  refine ⟨by decide +kernel, by decide +kernel, fun hall => ?_⟩
  have hval : (sides (fun n ratio => n * ratio) [] twoMonths (1 / 2)).map (fun s =>
      growth (·.totalValue) s.isSnapshots * growth (·.totalValue) s.oosSnapshots) = some (11 / 10 : Decimal) := by
    decide +kernel
  have hgrowth : growth (·.totalValue) (sortedSnaps twoMonths) = 121 / 100 := by decide +kernel
  obtain ⟨s, hsides, hboth⟩ := Option.map_eq_some_iff.1 hval
  have hwhole := hall s hsides
  rw [hboth, hgrowth] at hwhole
  norm_num at hwhole

end BacktestReporter

end TradingAgent
