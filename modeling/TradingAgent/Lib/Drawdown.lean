/-
Running peaks and drops of a series of values, over any ordered field. The largest drop is the fold of
the maximum over the drops, and a monotone map (a rounding) of it is the greatest of the mapped drops.
-/
import Mathlib.Algebra.Order.Field.Basic
import Mathlib.Order.Bounds.Basic
import Mathlib.Tactic.Linarith

namespace Drawdown

variable {K : Type*} [Field K] [LinearOrder K]

/-- The drop from a peak in percent of it; none from a peak that is not positive. -/
def drop (peak value : K) : K := if 0 < peak then (peak - value) / peak * 100 else 0

/-- The peak after a series that starts with a first peak. -/
def peak (first : K) (values : List K) : K := values.foldl max first

/-- The drops of a series, each from the peak up to and including its value. -/
def drops (first : K) : List K → List K
  | [] => []
  | v :: vs => drop (max first v) v :: drops (max first v) vs

/-- The largest drop of a series, at least zero. -/
def largest (first : K) (values : List K) : K := (drops first values).foldl max 0

omit [Field K] in
/-- Replacing a value by a larger one computes the maximum. -/
theorem ite_gt_eq_max (a b : K) : (if b > a then b else a) = max a b := by
  split
  · rename_i h; exact (max_eq_right h.le).symm
  · rename_i h; exact (max_eq_left (not_lt.1 h)).symm

omit [Field K] in
theorem peak_concat (first : K) (values : List K) (v : K) :
    peak first (values ++ [v]) = max (peak first values) v := by
  unfold peak; rw [List.foldl_append]; rfl

theorem drops_concat (first : K) (values : List K) (v : K) :
    drops first (values ++ [v]) = drops first values ++ [drop (max (peak first values) v) v] := by
  induction values generalizing first with
  | nil => rfl
  | cons u us ih =>
    rw [List.cons_append, drops, drops, ih, List.cons_append]; rfl

theorem drop_self (p : K) : drop p p = 0 := by
  unfold drop
  split
  · rw [sub_self, zero_div, zero_mul]
  · rfl

omit [Field K] in
/-- A monotone map of the maximum of a fold is the greatest of the mapped values. -/
theorem isGreatest_foldl_max {L : Type*} [LinearOrder L] {f : K → L} (hf : Monotone f) (xs : List K)
    (a : K) : IsGreatest {y | y = f a ∨ ∃ x ∈ xs, f x = y} (f (xs.foldl max a)) := by
  induction xs generalizing a with
  | nil =>
    refine ⟨.inl rfl, ?_⟩
    rintro y (rfl | ⟨x, hx, rfl⟩)
    · exact le_rfl
    · cases hx
  | cons x xs ih =>
    obtain ⟨hmem, hub⟩ := ih (max a x)
    rw [List.foldl_cons]
    have hmax := hf.map_max (a := a) (b := x)
    constructor
    · rcases hmem with h | ⟨z, hz, h⟩
      · rcases max_choice (f a) (f x) with hm | hm
        · exact .inl (h.trans (hmax.trans hm))
        · exact .inr ⟨x, List.mem_cons_self .., (h.trans (hmax.trans hm)).symm⟩
      · exact .inr ⟨z, List.mem_cons_of_mem _ hz, h⟩
    · have hle : max (f a) (f x) ≤ f (xs.foldl max (max a x)) := hmax ▸ hub (.inl rfl)
      rintro y (rfl | ⟨z, hz, rfl⟩)
      · exact (le_max_left _ _).trans hle
      · rcases List.mem_cons.1 hz with rfl | hz
        · exact (le_max_right _ _).trans hle
        · exact hub (.inr ⟨z, hz, rfl⟩)

/-- When the series starts at its first peak, the mapped largest drop is the greatest mapped drop. -/
theorem isGreatest_largest {L : Type*} [LinearOrder L] {f : K → L} (hf : Monotone f) (first : K)
    (values : List K) :
    IsGreatest {y | y ∈ (drops first (first :: values)).map f} (f (largest first (first :: values))) := by
  have hzero : (0 : K) ∈ drops first (first :: values) := by
    rw [drops, max_self, drop_self]; exact List.mem_cons_self ..
  have h := isGreatest_foldl_max hf (drops first (first :: values)) 0
  constructor
  · rcases h.1 with h0 | ⟨x, hx, h0⟩
    · exact List.mem_map.2 ⟨0, hzero, h0.symm⟩
    · exact List.mem_map.2 ⟨x, hx, h0⟩
  · intro y hy
    obtain ⟨x, hx, rfl⟩ := List.mem_map.1 hy
    exact h.2 (.inr ⟨x, hx, rfl⟩)

/-! ## Series that fall, and series that do not -/

section Falls

variable [IsStrictOrderedRing K]

/-- From a higher peak the same value is a larger drop. -/
theorem drop_mono {p q v : K} (hv : 0 ≤ v) (hp : 0 < p) (hpq : p ≤ q) : drop p v ≤ drop q v := by
  have hq : 0 < q := hp.trans_le hpq
  have hdiv : v / q ≤ v / p := div_le_div_of_nonneg_left hv hp hpq
  unfold drop
  rw [if_pos hp, if_pos hq, sub_div, sub_div, div_self hp.ne', div_self hq.ne']
  linarith

omit [IsStrictOrderedRing K] in
theorem le_largest {first d : K} {values : List K} (h : d ∈ drops first values) : d ≤ largest first values :=
  (isGreatest_foldl_max monotone_id (drops first values) 0).2 (.inr ⟨d, h, rfl⟩)

omit [IsStrictOrderedRing K] in
theorem largest_nonneg (first : K) (values : List K) : 0 ≤ largest first values :=
  (isGreatest_foldl_max monotone_id (drops first values) 0).2 (.inl rfl)

theorem exists_drops_of_mem {v : K} (hv : 0 ≤ v) : ∀ {values : List K} {p first : K}, 0 < p → p ≤ first →
    v ∈ values → ∃ d ∈ drops first values, drop p v ≤ d
  | u :: us, p, first, hp, hle, h => by
    rcases List.mem_cons.1 h with rfl | h
    · exact ⟨_, List.mem_cons_self .., drop_mono hv hp (hle.trans (le_max_left _ _))⟩
    · obtain ⟨d, hd, hle'⟩ := exists_drops_of_mem hv hp (hle.trans (le_max_left first u)) h
      exact ⟨d, List.mem_cons_of_mem _ hd, hle'⟩

theorem exists_drops_of_sublist {p v : K} (hp : 0 < p) (hv : 0 ≤ v) : ∀ (values : List K) (first : K),
    List.Sublist [p, v] values → ∃ d ∈ drops first values, drop p v ≤ d
  | u :: us, first, h => by
    cases h with
    | cons _ h =>
      obtain ⟨d, hd, hle⟩ := exists_drops_of_sublist hp hv us (max first u) h
      exact ⟨d, List.mem_cons_of_mem _ hd, hle⟩
    | cons_cons _ h =>
      have hmem : v ∈ us := h.subset (List.mem_singleton_self v)
      obtain ⟨d, hd, hle⟩ := exists_drops_of_mem hv hp (le_max_right first p) hmem
      exact ⟨d, List.mem_cons_of_mem _ hd, hle⟩

/-- A series in which one value comes before another falls by at least the drop between them. -/
theorem drop_le_largest {p v : K} (hp : 0 < p) (hv : 0 ≤ v) (first : K) {values : List K}
    (h : List.Sublist [p, v] values) : drop p v ≤ largest first values := by
  obtain ⟨d, hd, hle⟩ := exists_drops_of_sublist hp hv values first h
  exact hle.trans (le_largest hd)

omit [IsStrictOrderedRing K] in
/-- A series that stays at its first value does not fall. -/
theorem largest_const {c : K} : ∀ values : List K, (∀ v ∈ values, v = c) → largest c values = 0
  | [], _ => rfl
  | v :: vs, h => by
    have hv : v = c := h v (List.mem_cons_self ..)
    have hrest := largest_const vs fun u hu => h u (List.mem_cons_of_mem _ hu)
    unfold largest at hrest ⊢
    rw [hv, drops, max_self, drop_self, List.foldl_cons, max_self, hrest]

omit [IsStrictOrderedRing K] in
/-- A drop is none, or falls from one value of the series to a later one. -/
theorem eq_zero_or_exists_of_mem_drops {d : K} : ∀ {values : List K} {first : K}, d ∈ drops first values →
    d = 0 ∨ ∃ p v, 0 < p ∧ d = drop p v ∧ List.Sublist [p, v] (first :: values)
  | u :: us, first, h => by
    rcases List.mem_cons.1 h with rfl | h
    · rcases max_choice first u with hmax | hmax
      · rw [hmax]
        by_cases hfirst : 0 < first
        · exact .inr ⟨first, u, hfirst, rfl, (List.singleton_sublist.2 (List.mem_cons_self ..)).cons_cons first⟩
        · exact .inl (if_neg hfirst)
      · rw [hmax]
        exact .inl (drop_self u)
    · rcases eq_zero_or_exists_of_mem_drops h with hzero | ⟨p, v, hp, hd, hsub⟩
      · exact .inl hzero
      · refine .inr ⟨p, v, hp, hd, ?_⟩
        rcases max_choice first u with hmax | hmax
        · rw [hmax] at hsub
          exact hsub.trans ((List.sublist_cons_self u us).cons_cons first)
        · rw [hmax] at hsub
          exact hsub.cons first

/-- The largest drop of a series is the greatest from a positive value to itself or a later one, if there is
a positive value. -/
theorem largest_spec {first : K} {rest : List K} (hnonneg : ∀ v ∈ first :: rest, 0 ≤ v) :
    (∀ p v, 0 < p → List.Sublist [p, v] (first :: rest) → drop p v ≤ largest first (first :: rest)) ∧
      (largest first (first :: rest) = 0 ∨ ∃ p v, 0 < p ∧ largest first (first :: rest) = drop p v ∧
        List.Sublist [p, v] (first :: rest)) := by
  refine ⟨fun p v hp hsub => drop_le_largest hp (hnonneg v (hsub.subset (by simp))) first hsub, ?_⟩
  have hdrops : drops first (first :: rest) = 0 :: drops first rest := by
    rw [drops, max_self, drop_self]
  have hmem : largest first (first :: rest) ∈ (drops first (first :: rest)).map id :=
    (isGreatest_largest monotone_id first rest).1
  rw [List.map_id, hdrops] at hmem
  rcases List.mem_cons.1 hmem with hzero | hmem
  · exact .inl hzero
  · exact eq_zero_or_exists_of_mem_drops hmem

end Falls

end Drawdown
