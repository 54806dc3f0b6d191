/-
Local extrema of a series with missing values: the indices whose value is strictly above, or strictly below, all
neighbours within a distance. The loop with its two flags finds exactly these, in order, and no two of one kind lie
within the distance of each other.
-/
import Mathlib.Data.List.Range
import Mathlib.Algebra.Order.Ring.Int

namespace TradingAgent

namespace ChartPatterns

variable {α : Type} [LinearOrder α]

/-! ## The loop -/

/-- The flags after comparing a value with its neighbours at these distances; a missing neighbour ends the loop. -/
def compareNeighbours (values : List (Option α)) (v : α) (i : ℕ) : List ℕ → Bool × Bool → Bool × Bool
  | [], flags => flags
  | j :: js, (isHigh, isLow) =>
    match values[i - j]?.join, values[i + j]?.join with
    | some left, some right =>
      compareNeighbours values v i js
        (isHigh && !(decide (v ≤ left) || decide (v ≤ right)), isLow && !(decide (v ≥ left) || decide (v ≥ right)))
    | _, _ => (false, false)

/-- Whether there is a high, or a low, at an index. -/
def extremumAt (values : List (Option α)) (order i : ℕ) : Bool × Bool :=
  match values[i]?.join with
  | none => (false, false)
  | some v => compareNeighbours values v i (List.range' 1 order) (true, true)

/-- Keep an index as a high or as a low. -/
def keepExtremum (values : List (Option α)) (order : ℕ) (found : List ℕ × List ℕ) (i : ℕ) : List ℕ × List ℕ :=
  (if (extremumAt values order i).1 then found.1 ++ [i] else found.1,
    if (extremumAt values order i).2 then found.2 ++ [i] else found.2)

/-- The indices of the local highs and lows. -/
def findLocalExtrema (values : List (Option α)) (order : ℕ := 5) : List ℕ × List ℕ :=
  (List.range' order (values.length - order - order)).foldl (keepExtremum values order) ([], [])

/-- The points at some indices that have a value. -/
def pointsAt (values : List (Option α)) (indices : List ℕ) : List (ℕ × α) :=
  indices.filterMap fun i => values[i]?.join.map fun v => (i, v)

/-- The local highs and lows with their values. -/
def findSwingPoints (values : List (Option α)) (order : ℕ := 5) : List (ℕ × α) × List (ℕ × α) :=
  (pointsAt values (findLocalExtrema values order).1, pointsAt values (findLocalExtrema values order).2)

/-! ## Extrema -/

/-- Both neighbours at a distance exist and are so related to a value. -/
def Neighbours (R : α → α → Prop) (values : List (Option α)) (v : α) (i j : ℕ) : Prop :=
  ∃ left right, values[i - j]? = some (some left) ∧ values[i + j]? = some (some right) ∧ R left v ∧ R right v

/-- The value at an index and all its neighbours within the distance exist, and each neighbour is so related to it. -/
def IsExtremum (R : α → α → Prop) (values : List (Option α)) (order i : ℕ) : Prop :=
  order ≤ i ∧ i < values.length - order ∧ ∃ v, values[i]? = some (some v) ∧
    ∀ j, 1 ≤ j → j ≤ order → Neighbours R values v i j

/-- Strictly above all its neighbours. -/
def IsHigh : List (Option α) → ℕ → ℕ → Prop := IsExtremum (· < ·)

/-- Strictly below all its neighbours. -/
def IsLow : List (Option α) → ℕ → ℕ → Prop := IsExtremum (· > ·)

variable {values : List (Option α)} {order i : ℕ}

omit [LinearOrder α] in
/-- Neighbours within the distance of an extremum lie on one side of it, so two extrema are further apart. -/
theorem IsExtremum.apart {R : α → α → Prop} (hasymm : ∀ a b, R a b → ¬ R b a) {i k : ℕ}
    (hi : IsExtremum R values order i) (hk : IsExtremum R values order k) (hlt : i < k) : i + order < k := by
  obtain ⟨-, -, v, hv, hneighbours⟩ := hi
  obtain ⟨-, -, w, hw, hneighbours'⟩ := hk
  by_contra hnear
  obtain ⟨_, right, _, hright, _, hR⟩ := hneighbours (k - i) (by omega) (by omega)
  obtain ⟨left, _, hleft, _, hR', _⟩ := hneighbours' (k - i) (by omega) (by omega)
  have hik : i + (k - i) = k := by omega
  have hki : k - (k - i) = i := by omega
  rw [hik, hw] at hright
  rw [hki, hv] at hleft
  cases hright
  cases hleft
  exact hasymm _ _ hR hR'

/-- Nothing is both above and below a neighbour. -/
theorem IsHigh.not_isLow (horder : 1 ≤ order) (hhigh : IsHigh values order i) : ¬ IsLow values order i := by
  rintro ⟨-, -, w, hw, hlow⟩
  obtain ⟨-, -, v, hv, hhigh⟩ := hhigh
  obtain ⟨left, _, hleft, _, hlt, _⟩ := hhigh 1 le_rfl horder
  obtain ⟨left', _, hleft', _, hgt, _⟩ := hlow 1 le_rfl horder
  rw [hv] at hw
  rw [hleft] at hleft'
  cases hw
  cases hleft'
  exact lt_asymm hlt hgt

/-! ## What the loop finds -/

omit [LinearOrder α] in
theorem join_eq_some_iff {k : ℕ} {v : α} : values[k]?.join = some v ↔ values[k]? = some (some v) := by
  rw [Option.join_eq_some_iff]

/-- The flags stay as they are as long as the neighbours are below, or above. -/
theorem compareNeighbours_iff {v : α} : ∀ {js : List ℕ} {flags : Bool × Bool},
    ((compareNeighbours values v i js flags).1 = true ↔
      flags.1 = true ∧ ∀ j ∈ js, Neighbours (· < ·) values v i j) ∧
    ((compareNeighbours values v i js flags).2 = true ↔
      flags.2 = true ∧ ∀ j ∈ js, Neighbours (· > ·) values v i j)
  | [], flags => by simp [compareNeighbours]
  | j :: js, (isHigh, isLow) => by
    unfold compareNeighbours
    split
    · rename_i left right hleft hright
      rw [join_eq_some_iff] at hleft hright
      have hneighbours : ∀ R : α → α → Prop, Neighbours R values v i j ↔ R left v ∧ R right v := by
        intro R
        unfold Neighbours
        rw [hleft, hright]
        simp
      rw [compareNeighbours_iff.1, compareNeighbours_iff.2, List.forall_mem_cons, List.forall_mem_cons, hneighbours,
        hneighbours]
      simp [and_assoc]
    · rename_i hmissing
      have hnot : ∀ R : α → α → Prop, ¬ ∀ k ∈ j :: js, Neighbours R values v i k := by
        intro R hall
        obtain ⟨left, right, hleft, hright, -⟩ := hall j List.mem_cons_self
        exact hmissing left right (join_eq_some_iff.2 hleft) (join_eq_some_iff.2 hright)
      exact ⟨iff_of_false Bool.false_ne_true fun h => hnot _ h.2,
        iff_of_false Bool.false_ne_true fun h => hnot _ h.2⟩

/-- Inside the margins the flags of an index say whether it is a high, or a low. -/
theorem extremumAt_iff (hi : order ≤ i) (hlength : i < values.length - order) :
    ((extremumAt values order i).1 = true ↔ IsHigh values order i) ∧
      ((extremumAt values order i).2 = true ↔ IsLow values order i) := by
  have hrange : ∀ P : ℕ → Prop, (∀ j ∈ List.range' 1 order, P j) ↔ ∀ j, 1 ≤ j → j ≤ order → P j := by
    intro P
    refine forall_congr' fun j => ?_
    rw [List.mem_range'_1, and_imp]
    exact ⟨fun h h₁ h₂ => h h₁ (by omega), fun h h₁ h₂ => h h₁ (by omega)⟩
  unfold extremumAt
  split
  · rename_i hnone
    have hnot : ∀ R : α → α → Prop, ¬ IsExtremum R values order i := by
      rintro R ⟨-, -, v, hv, -⟩
      rw [hv] at hnone
      cases hnone
    exact ⟨iff_of_false Bool.false_ne_true (hnot _), iff_of_false Bool.false_ne_true (hnot _)⟩
  · rename_i v hv
    rw [join_eq_some_iff] at hv
    have hextremum : ∀ R : α → α → Prop, IsExtremum R values order i ↔
        ∀ j, 1 ≤ j → j ≤ order → Neighbours R values v i j := by
      intro R
      unfold IsExtremum
      rw [hv]
      simp [hi, hlength]
    unfold IsHigh IsLow
    rw [hextremum, hextremum, compareNeighbours_iff.1, compareNeighbours_iff.2, hrange, hrange]
    exact ⟨and_iff_right rfl, and_iff_right rfl⟩

theorem foldl_keepExtremum : ∀ (indices : List ℕ) (found : List ℕ × List ℕ),
    indices.foldl (keepExtremum values order) found =
      (found.1 ++ indices.filter (fun i => (extremumAt values order i).1),
        found.2 ++ indices.filter (fun i => (extremumAt values order i).2))
  | [], found => by simp
  | i :: indices, found => by
    rw [List.foldl_cons, foldl_keepExtremum indices]
    unfold keepExtremum
    rw [List.filter_cons, List.filter_cons]
    cases (extremumAt values order i).1 <;> cases (extremumAt values order i).2 <;> simp

theorem findLocalExtrema_eq (values : List (Option α)) (order : ℕ) :
    findLocalExtrema values order =
      ((List.range' order (values.length - order - order)).filter (fun i => (extremumAt values order i).1),
        (List.range' order (values.length - order - order)).filter (fun i => (extremumAt values order i).2)) := by
  unfold findLocalExtrema
  rw [foldl_keepExtremum]
  rfl

theorem mem_findLocalExtrema : (i ∈ (findLocalExtrema values order).1 ↔ IsHigh values order i) ∧
    (i ∈ (findLocalExtrema values order).2 ↔ IsLow values order i) := by
  rw [findLocalExtrema_eq, List.mem_filter, List.mem_filter, List.mem_range'_1]
  by_cases hi : order ≤ i ∧ i < values.length - order
  · have hrange : order ≤ i ∧ i < order + (values.length - order - order) := by omega
    rw [and_iff_right hrange, and_iff_right hrange]
    exact extremumAt_iff hi.1 hi.2
  · have hrange : ¬ (order ≤ i ∧ i < order + (values.length - order - order)) := by omega
    exact ⟨iff_of_false (fun h => hrange h.1) fun h => hi ⟨h.1, h.2.1⟩,
      iff_of_false (fun h => hrange h.1) fun h => hi ⟨h.1, h.2.1⟩⟩

theorem findLocalExtrema_increasing (values : List (Option α)) (order : ℕ) :
    (findLocalExtrema values order).1.Pairwise (· < ·) ∧ (findLocalExtrema values order).2.Pairwise (· < ·) := by
  rw [findLocalExtrema_eq]
  have hrange := List.pairwise_lt_range' (s := order) (n := values.length - order - order)
  exact ⟨hrange.filter _, hrange.filter _⟩

/-- The highs are exactly the indices whose value is strictly above all neighbours, the lows those strictly below,
both in order; no index is both, and two of one kind are more than the distance apart. -/
theorem findLocalExtrema_exact (values : List (Option α)) {order : ℕ} (horder : 1 ≤ order) :
    (∀ i, i ∈ (findLocalExtrema values order).1 ↔ IsHigh values order i) ∧
    (∀ i, i ∈ (findLocalExtrema values order).2 ↔ IsLow values order i) ∧
    (findLocalExtrema values order).1.Pairwise (· < ·) ∧ (findLocalExtrema values order).2.Pairwise (· < ·) ∧
    (∀ i ∈ (findLocalExtrema values order).1, i ∉ (findLocalExtrema values order).2) ∧
    (findLocalExtrema values order).1.Pairwise (fun i k => i + order < k) ∧
    (findLocalExtrema values order).2.Pairwise (fun i k => i + order < k) := by
  have hhigh : ∀ i, i ∈ (findLocalExtrema values order).1 ↔ IsHigh values order i := fun i => mem_findLocalExtrema.1
  have hlow : ∀ i, i ∈ (findLocalExtrema values order).2 ↔ IsLow values order i := fun i => mem_findLocalExtrema.2
  obtain ⟨hhighs, hlows⟩ := findLocalExtrema_increasing values order
  refine ⟨hhigh, hlow, hhighs, hlows, ?_, ?_, ?_⟩
  · intro i hi hi'
    exact ((hhigh i).1 hi).not_isLow horder ((hlow i).1 hi')
  · refine hhighs.imp_of_mem fun {i k} hi hk hlt => ?_
    exact ((hhigh i).1 hi).apart (fun _ _ => lt_asymm) ((hhigh k).1 hk) hlt
  · refine hlows.imp_of_mem fun {i k} hi hk hlt => ?_
    exact ((hlow i).1 hi).apart (fun _ _ => lt_asymm) ((hlow k).1 hk) hlt

/-- A series with a high, a missing value and a low. -/
def gapSeries : List (Option ℤ) := [some 1, some 3, some 2, none, some 2, some 0, some 1]

theorem findLocalExtrema_exact_gap :
    (∀ i, i ∈ (findLocalExtrema gapSeries 1).1 ↔ IsHigh gapSeries 1 i) ∧
    (∀ i, i ∈ (findLocalExtrema gapSeries 1).2 ↔ IsLow gapSeries 1 i) ∧
    (findLocalExtrema gapSeries 1).1.Pairwise (· < ·) ∧ (findLocalExtrema gapSeries 1).2.Pairwise (· < ·) ∧
    (∀ i ∈ (findLocalExtrema gapSeries 1).1, i ∉ (findLocalExtrema gapSeries 1).2) ∧
    (findLocalExtrema gapSeries 1).1.Pairwise (fun i k => i + 1 < k) ∧
    (findLocalExtrema gapSeries 1).2.Pairwise (fun i k => i + 1 < k) := findLocalExtrema_exact gapSeries le_rfl

example : findLocalExtrema gapSeries 1 = ([1], [5]) := by decide

/-- The swing points are the extrema, each with its value. -/
theorem findSwingPoints_indices (values : List (Option α)) (order : ℕ) :
    (findSwingPoints values order).1.map Prod.fst = (findLocalExtrema values order).1 ∧
      (findSwingPoints values order).2.map Prod.fst = (findLocalExtrema values order).2 := by
  have hpoints : ∀ (R : α → α → Prop) (indices : List ℕ), (∀ i ∈ indices, IsExtremum R values order i) →
      (pointsAt values indices).map Prod.fst = indices := by
    intro R indices hall
    induction indices with
    | nil => rfl
    | cons i indices ih =>
      obtain ⟨⟨-, -, v, hv, -⟩, hrest⟩ := List.forall_mem_cons.1 hall
      have hi : values[i]?.join.map (fun v => (i, v)) = some (i, v) := by rw [hv]; rfl
      unfold pointsAt
      rw [List.filterMap_cons, hi, List.map_cons]
      exact congrArg (i :: ·) (ih hrest)
  exact ⟨hpoints _ _ fun i hi => mem_findLocalExtrema.1.1 hi, hpoints _ _ fun i hi => mem_findLocalExtrema.2.1 hi⟩

end ChartPatterns

end TradingAgent
