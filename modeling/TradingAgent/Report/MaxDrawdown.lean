/-
The maximum drawdown over pairs of snapshots. The loop of the calculator keeps a running peak; without rounding
it computes the greatest fall, in percent, from a snapshot with a positive value to itself or a later one.
-/
import TradingAgent.Report.Metrics

namespace TradingAgent

namespace PerformanceCalculator

/-- The falls in percent from a snapshot with a positive value to one that is not earlier. -/
def falls (snapshots : List PortfolioSnapshot) : Set Decimal :=
  {fall | ∃ a ∈ snapshots, ∃ b ∈ snapshots, a.snapshotDate ≤ b.snapshotDate ∧ 0 < a.totalValue ∧
    fall = (a.totalValue - b.totalValue) / a.totalValue * 100}

/-- The rounded greatest fall, zero if there is none. -/
def IsMaxDrawdown (snapshots : List PortfolioSnapshot) (mdd : Decimal) : Prop :=
  (falls snapshots = ∅ ∧ mdd = 0) ∨ ∃ fall, IsGreatest (falls snapshots) fall ∧ mdd = quantize2 fall

/-- Snapshots of different dates, with values that are not negative. -/
structure Dated (snapshots : List PortfolioSnapshot) : Prop where
  nodup : (snapshots.map (·.snapshotDate)).Nodup
  nonneg : ∀ snap ∈ snapshots, 0 ≤ snap.totalValue

section

variable {snapshots other : List PortfolioSnapshot}

/-! ## Falls -/

theorem zero_mem_falls {a : PortfolioSnapshot} (ha : a ∈ snapshots) (hpos : 0 < a.totalValue) :
    0 ∈ falls snapshots :=
  ⟨a, ha, a, ha, le_rfl, hpos, by rw [sub_self, zero_div, zero_mul]⟩

theorem IsMaxDrawdown.unique {mdd mdd' : Decimal} (h : IsMaxDrawdown snapshots mdd)
    (h' : IsMaxDrawdown snapshots mdd') :
    mdd = mdd' := by
  rcases h with ⟨hempty, rfl⟩ | ⟨fall, hgreatest, rfl⟩
  · rcases h' with ⟨-, rfl⟩ | ⟨fall', hgreatest', -⟩
    · rfl
    · rw [hempty] at hgreatest'
      exact hgreatest'.1.elim
  · rcases h' with ⟨hempty, -⟩ | ⟨fall', hgreatest', rfl⟩
    · rw [hempty] at hgreatest
      exact hgreatest.1.elim
    · rw [hgreatest.unique hgreatest']

/-! ## The loop -/

/-- Of two snapshots the earlier one stands before the other in the sorted list. -/
theorem sublist_sortedSnaps {a b : PortfolioSnapshot} (ha : a ∈ snapshots) (hb : b ∈ snapshots)
    (hlt : a.snapshotDate < b.snapshotDate) : List.Sublist [a, b] (sortedSnaps snapshots) := by
  obtain ⟨before, after, hsplit⟩ := List.append_of_mem (mem_sortedSnaps.2 ha)
  have hsorted := pairwise_sortedSnaps snapshots
  have hmem : b ∈ sortedSnaps snapshots := mem_sortedSnaps.2 hb
  rw [hsplit] at hsorted hmem ⊢
  have hafter : b ∈ after := by
    rcases List.mem_append.1 hmem with hbefore | hrest
    · have hle := (List.pairwise_append.1 hsorted).2.2 b hbefore a (List.mem_cons_self ..)
      omega
    · rcases List.mem_cons.1 hrest with rfl | hafter
      · exact absurd hlt (lt_irrefl _)
      · exact hafter
  exact ((List.singleton_sublist.2 hafter).cons_cons a).trans (List.sublist_append_right before (a :: after))

/-- The values of a fall, in the order of the dates. -/
theorem fall_of_sublist {p v : Decimal} (hp : 0 < p)
    (hsub : List.Sublist [p, v] ((sortedSnaps snapshots).map (·.totalValue))) :
    Drawdown.drop p v ∈ falls snapshots := by
  obtain ⟨pair, hpair, hmap⟩ := List.sublist_map_iff.1 hsub
  obtain ⟨a, b, rfl⟩ : ∃ a b, pair = [a, b] := List.length_eq_two.1 (by rw [← List.length_map, ← hmap]; rfl)
  obtain ⟨rfl, rfl⟩ : p = a.totalValue ∧ v = b.totalValue := by simpa using hmap
  have hdate := (pairwise_sortedSnaps snapshots).sublist hpair
  rw [List.pairwise_pair] at hdate
  have ha : a ∈ snapshots := mem_sortedSnaps.1 (hpair.subset (List.mem_cons_self ..))
  have hb : b ∈ snapshots := mem_sortedSnaps.1 (hpair.subset (List.mem_cons_of_mem _ (List.mem_singleton_self b)))
  exact ⟨a, ha, b, hb, hdate, hp, if_pos hp⟩

/-- Without a positive value there is no drawdown. -/
theorem calculateMaxDrawdown_eq_zero (h : ∀ snap ∈ snapshots, snap.totalValue = 0) :
    calculateMaxDrawdown snapshots = 0 := by
  cases hsorted : sortedSnaps snapshots with
  | nil =>
    unfold calculateMaxDrawdown
    rw [hsorted]
  | cons first rest =>
    have hzero : ∀ snap ∈ first :: rest, snap.totalValue = 0 := by
      intro snap hsnap
      rw [← hsorted] at hsnap
      exact h snap (mem_sortedSnaps.1 hsnap)
    rw [calculateMaxDrawdown_eq hsorted, hzero first (List.mem_cons_self ..), Drawdown.largest_const, quantize2_zero]
    intro v hv
    obtain ⟨snap, hsnap, rfl⟩ := List.mem_map.1 hv
    exact hzero snap hsnap

/-- The largest drop of the values in order is the greatest fall, if there is a positive value. -/
theorem isGreatest_falls (h : Dated snapshots) {first : PortfolioSnapshot} {rest : List PortfolioSnapshot}
    (hsorted : sortedSnaps snapshots = first :: rest) (hpositive : ∃ a ∈ snapshots, 0 < a.totalValue) :
    IsGreatest (falls snapshots) (Drawdown.largest first.totalValue ((first :: rest).map (·.totalValue))) := by
  obtain ⟨a, ha, hpos⟩ := hpositive
  have hnonneg : ∀ v ∈ (first :: rest).map (·.totalValue), 0 ≤ v := by
    intro v hv
    obtain ⟨snap, hsnap, rfl⟩ := List.mem_map.1 hv
    exact h.nonneg snap (mem_sortedSnaps.1 (hsorted ▸ hsnap))
  obtain ⟨hgreatest, hattained⟩ := Drawdown.largest_spec hnonneg
  constructor
  · rcases hattained with hzero | ⟨p, v, hp, hdrop, hsub⟩
    · rw [List.map_cons, hzero]
      exact zero_mem_falls ha hpos
    · rw [List.map_cons, hdrop]
      refine fall_of_sublist hp ?_
      rw [hsorted]
      exact hsub
  · rintro fall ⟨a, ha, b, hb, hdate, hpos, rfl⟩
    rcases hdate.lt_or_eq with hlt | heq
    · have hsub := (sublist_sortedSnaps ha hb hlt).map (·.totalValue)
      rw [hsorted] at hsub
      have hdrop := hgreatest _ _ hpos hsub
      rwa [Drawdown.drop, if_pos hpos] at hdrop
    · obtain rfl : a = b := List.inj_on_of_nodup_map h.nodup ha hb heq
      rw [sub_self, zero_div, zero_mul]
      exact Drawdown.largest_nonneg _ _

/-- Without a positive value there is no fall. -/
theorem falls_eq_empty (h : ¬ ∃ a ∈ snapshots, 0 < a.totalValue) : falls snapshots = ∅ := by
  refine Set.eq_empty_of_forall_notMem ?_
  rintro fall ⟨a, ha, b, -, -, hpos, -⟩
  exact h ⟨a, ha, hpos⟩

/-- The exact calculator computes the greatest fall. -/
theorem calculateMaxDrawdown_isMaxDrawdown (h : Dated snapshots) :
    IsMaxDrawdown snapshots (calculateMaxDrawdown snapshots) := by
  by_cases hpositive : ∃ a ∈ snapshots, 0 < a.totalValue
  · refine .inr ?_
    cases hsorted : sortedSnaps snapshots with
    | nil =>
      obtain ⟨a, ha, -⟩ := hpositive
      have hmem := mem_sortedSnaps.2 ha
      rw [hsorted] at hmem
      cases hmem
    | cons first rest => exact ⟨_, isGreatest_falls h hsorted hpositive, calculateMaxDrawdown_eq hsorted⟩
  · refine .inl ⟨falls_eq_empty hpositive, calculateMaxDrawdown_eq_zero fun snap hsnap => ?_⟩
    exact le_antisymm (not_lt.1 fun hpos => hpositive ⟨snap, hsnap, hpos⟩) (h.nonneg snap hsnap)

/-! ## Orders of the snapshots -/

/-- Sorting snapshots of different dates does not depend on their order. -/
theorem sortedSnaps_eq_of_perm {sorted : List PortfolioSnapshot} (hnodup : (snapshots.map (·.snapshotDate)).Nodup)
    (hperm : snapshots.Perm sorted) (hsorted : sorted.Pairwise (fun a b => a.snapshotDate ≤ b.snapshotDate)) :
    sortedSnaps snapshots = sorted := by
  have hsame : (sortedSnaps snapshots).Perm sorted := (List.perm_insertionSort _ _).trans hperm
  refine hsame.eq_of_pairwise (fun a b ha hb hab hba => ?_) (pairwise_sortedSnaps snapshots) hsorted
  exact List.inj_on_of_nodup_map hnodup (mem_sortedSnaps.1 ha) (hperm.mem_iff.2 hb) (le_antisymm hab hba)

theorem sortedSnaps_perm (hnodup : (snapshots.map (·.snapshotDate)).Nodup) (hperm : snapshots.Perm other) :
    sortedSnaps snapshots = sortedSnaps other :=
  sortedSnaps_eq_of_perm hnodup (hperm.trans (List.perm_insertionSort _ _).symm) (pairwise_sortedSnaps other)

theorem sortedSnaps_append (h : Dated snapshots) {later : PortfolioSnapshot}
    (hlater : ∀ snap ∈ snapshots, snap.snapshotDate < later.snapshotDate) :
    sortedSnaps (snapshots ++ [later]) = sortedSnaps snapshots ++ [later] := by
  refine sortedSnaps_eq_of_perm ?_ ((List.perm_insertionSort _ _).symm.append_right _) ?_
  · rw [List.map_append, List.nodup_append]
    refine ⟨h.nodup, List.nodup_singleton _, fun date hdate date' hdate' => ?_⟩
    obtain ⟨snap, hsnap, rfl⟩ := List.mem_map.1 hdate
    obtain rfl : date' = later.snapshotDate := by simpa using hdate'
    exact (hlater snap hsnap).ne
  · rw [List.pairwise_append]
    refine ⟨pairwise_sortedSnaps snapshots, List.pairwise_singleton _ _, fun a ha b hb => ?_⟩
    rw [List.mem_singleton.1 hb]
    exact (hlater a (mem_sortedSnaps.1 ha)).le

end

end PerformanceCalculator

end TradingAgent
