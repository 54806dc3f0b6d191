/-
Insertions that add up: where a row in conflict with a stored one adds its amounts to it, the amounts of the table
are those of all rows that were ever inserted, as a whole and for every selection that goes by the key. A table that
starts empty has a row for a key if and only if one was inserted.
-/
import TradingAgent.Lib.Upsert
import Mathlib.Algebra.BigOperators.Group.List.Basic
import Mathlib.Data.List.Induction

namespace Upsert

variable {α κ M : Type} [DecidableEq κ] [AddCommMonoid M] {c : Constraint α κ} {rows values : List α} {new : α}

/-- An amount of a row that an update adds to. -/
def Adds (c : Constraint α κ) (f : α → M) : Prop := ∀ row new, c.Conflict new row → f (c.merge row new) = f row + f new

/-- A selection that goes by the key. -/
def ByKey (c : Constraint α κ) (p : α → Bool) : Prop := ∀ a b, c.key a = c.key b → p a = p b

/-- The amount of the selected rows. -/
def total (f : α → M) (p : α → Bool) (rows : List α) : M := ((rows.filter p).map f).sum

@[simp] theorem total_nil (f : α → M) (p : α → Bool) : total f p [] = 0 := rfl

theorem total_cons (f : α → M) (p : α → Bool) (row : α) (rows : List α) :
    total f p (row :: rows) = (if p row then f row else 0) + total f p rows := by
  unfold total
  rw [List.filter_cons]
  split
  · rw [List.map_cons, List.sum_cons]
  · rw [zero_add]

theorem total_append (f : α → M) (p : α → Bool) (rows rows' : List α) :
    total f p (rows ++ rows') = total f p rows + total f p rows' := by
  unfold total
  rw [List.filter_append, List.map_append, List.sum_append]

/-- Of the rows of a table that keeps its constraint one at most is updated. -/
theorem one_cases (hrows : rows.Pairwise fun a b => ¬ c.Conflict a b) (new : α) :
    ((∀ row ∈ rows, ¬ c.Conflict new row) ∧ one c rows new = rows ++ [new]) ∨
    ∃ before row after, rows = before ++ row :: after ∧ c.Conflict new row ∧
      one c rows new = before ++ c.merge row new :: after := by
  by_cases hany : ∃ row ∈ rows, c.Conflict new row
  · obtain ⟨row, hrow, hconf⟩ := hany
    obtain ⟨before, after, rfl⟩ := List.append_of_mem hrow
    refine .inr ⟨before, row, after, rfl, hconf, ?_⟩
    rw [List.pairwise_append, List.pairwise_cons] at hrows
    obtain ⟨-, ⟨hafter, -⟩, hbefore⟩ := hrows
    -- a second row in conflict with the new one would be in conflict with the first
    have hother : ∀ row', ¬ c.Conflict row row' → ¬ c.Conflict new row' := fun row' hnot hconf' =>
      hnot ⟨fun hnone => hconf.1 (hconf.2.symm.trans hnone), hconf'.2.trans hconf.2.symm⟩
    have hsame : ∀ l : List α, (∀ row' ∈ l, ¬ c.Conflict new row') →
        l.map (fun row => if c.Conflict new row then c.merge row new else row) = l := by
      intro l hl
      refine (List.map_congr_left fun row' hrow' => ?_).trans (List.map_id' l)
      exact if_neg (hl row' hrow')
    have hbefore' : ∀ row' ∈ before, ¬ c.Conflict new row' := fun row' hrow' =>
      hother row' fun hconf' => hbefore row' hrow' row List.mem_cons_self hconf'.symm
    have hafter' : ∀ row' ∈ after, ¬ c.Conflict new row' := fun row' hrow' => hother row' (hafter row' hrow')
    rw [one_eq_map (List.mem_append_right _ List.mem_cons_self) hconf, List.map_append, List.map_cons, if_pos hconf,
      hsame before hbefore', hsame after hafter']
  · have hnone : ∀ row ∈ rows, ¬ c.Conflict new row := fun row hrow hconf => hany ⟨row, hrow, hconf⟩
    exact .inl ⟨hnone, one_eq_append hnone⟩

/-- An insertion adds the amounts of its row. -/
theorem total_one {f : α → M} {p : α → Bool} (hf : Adds c f) (hp : ByKey c p)
    (hrows : rows.Pairwise fun a b => ¬ c.Conflict a b) (new : α) :
    total f p (one c rows new) = total f p rows + if p new then f new else 0 := by
  rcases one_cases hrows new with ⟨-, hone⟩ | ⟨before, row, after, rfl, hconf, hone⟩
  · rw [hone, total_append, total_cons, total_nil, add_zero]
  · have hmerged : p (c.merge row new) = p new := hp _ _ ((c.key_merge row new).trans hconf.2)
    have hrow : p row = p new := hp _ _ hconf.2
    rw [hone, total_append, total_append, total_cons, total_cons, hmerged, hrow]
    split
    · rw [hf row new hconf, add_assoc, add_assoc]
      congr 1
      rw [add_assoc, add_comm (f new)]
    · rw [add_zero]

theorem total_foldl_one {f : α → M} {p : α → Bool} (hf : Adds c f) (hp : ByKey c p)
    (hrows : rows.Pairwise fun a b => ¬ c.Conflict a b) :
    total f p (values.foldl (one c) rows) = total f p rows + total f p values := by
  induction values generalizing rows with
  | nil => rw [List.foldl_nil, total_nil, add_zero]
  | cons v values ih => rw [List.foldl_cons, ih (pairwise_one hrows), total_one hf hp hrows, total_cons, add_assoc]

/-- The amounts of a table that was filled by insertions are those of the rows that were inserted. -/
theorem total_filled {f : α → M} {p : α → Bool} (hf : Adds c f) (hp : ByKey c p) (values : List α) :
    total f p (values.foldl (one c) []) = total f p values := by
  rw [total_foldl_one hf hp List.Pairwise.nil, total_nil, zero_add]

/-- A key has a row after an insertion if it had one before or is the key of the new row. -/
theorem exists_key_one_iff (k : κ) (new : α) :
    (∃ row ∈ one c rows new, c.key row = some k) ↔ (∃ row ∈ rows, c.key row = some k) ∨ c.key new = some k := by
  by_cases hnew : c.key new = some k
  · refine iff_of_true ?_ (.inr hnew)
    by_cases hany : ∃ row ∈ rows, c.Conflict new row
    · obtain ⟨row, hrow, hconf⟩ := hany
      rw [one_eq_map hrow hconf]
      refine ⟨_, List.mem_map_of_mem hrow, ?_⟩
      rw [if_pos hconf, c.key_merge, hconf.2, hnew]
    · rw [one_eq_append fun row hrow hconf => hany ⟨row, hrow, hconf⟩]
      exact ⟨new, List.mem_append_right _ List.mem_cons_self, hnew⟩
  · rw [or_iff_left hnew]
    refine exists_congr fun row => ?_
    constructor
    · rintro ⟨hrow, hkey⟩
      exact ⟨(mem_one_iff hnew hkey).1 hrow, hkey⟩
    · rintro ⟨hrow, hkey⟩
      exact ⟨(mem_one_iff hnew hkey).2 hrow, hkey⟩

theorem exists_key_filled_iff (k : κ) (values : List α) :
    (∃ row ∈ values.foldl (one c) [], c.key row = some k) ↔ ∃ v ∈ values, c.key v = some k := by
  induction values using List.reverseRecOn with
  | nil => simp
  | append_singleton values v ih =>
    rw [List.foldl_append, List.foldl_cons, List.foldl_nil, exists_key_one_iff, ih]
    simp only [List.mem_append, List.mem_singleton, or_and_right, exists_or, exists_eq_left]

/-- Where every row has a key, a selection that goes by the key finds a row if it finds one that was inserted. -/
theorem exists_filled_iff {p : α → Bool} (hp : ByKey c p) (hkey : ∀ row, c.key row ≠ none) (values : List α) :
    (∃ row ∈ values.foldl (one c) [], p row) ↔ ∃ v ∈ values, p v := by
  constructor
  · rintro ⟨row, hrow, hrow'⟩
    obtain ⟨k, hk⟩ := Option.ne_none_iff_exists'.1 (hkey row)
    obtain ⟨v, hv, hvk⟩ := (exists_key_filled_iff k values).1 ⟨row, hrow, hk⟩
    exact ⟨v, hv, by rw [hp v row (hvk.trans hk.symm)]; exact hrow'⟩
  · rintro ⟨v, hv, hv'⟩
    obtain ⟨k, hk⟩ := Option.ne_none_iff_exists'.1 (hkey v)
    obtain ⟨row, hrow, hrowk⟩ := (exists_key_filled_iff k values).2 ⟨v, hv, hk⟩
    exact ⟨row, hrow, by rw [hp row v (hrowk.trans hk.symm)]; exact hv'⟩

theorem total_perm {f : α → M} {p : α → Bool} {rows' : List α} (h : rows.Perm rows') :
    total f p rows = total f p rows' := ((h.filter p).map f).sum_eq

/-- The one row of a key has the amounts of all rows that were inserted under the key. -/
theorem eq_total_of_mem {f : α → M} (hf : Adds c f) {k : κ} {row : α} (hrow : row ∈ values.foldl (one c) [])
    (hkey : c.key row = some k) : f row = total f (fun v => decide (c.key v = some k)) values := by
  have hp : ByKey c fun v => decide (c.key v = some k) := by
    intro a b hab
    dsimp only
    rw [hab]
  rw [← total_filled hf hp]
  have hpair : (values.foldl (one c) []).Pairwise fun a b => ¬ c.Conflict a b := pairwise_foldl_one List.Pairwise.nil
  obtain ⟨before, after, hsplit⟩ := List.append_of_mem hrow
  rw [hsplit] at hpair ⊢
  rw [List.pairwise_append, List.pairwise_cons] at hpair
  obtain ⟨-, ⟨hafter, -⟩, hbefore⟩ := hpair
  have hnone : ∀ l : List α, (∀ row' ∈ l, c.key row' ≠ some k) →
      total f (fun v => decide (c.key v = some k)) l = 0 := by
    intro l hl
    unfold total
    rw [List.filter_eq_nil_iff.2 fun row' hrow' => by simpa using hl row' hrow']
    rfl
  rw [total_append, total_cons, hnone before, hnone after, if_pos (decide_eq_true hkey), zero_add, add_zero]
  · intro row' hrow' hkey'
    exact hafter row' hrow' ⟨by rw [hkey]; exact Option.some_ne_none k, hkey'.trans hkey.symm⟩
  · intro row' hrow' hkey'
    exact hbefore row' hrow' row List.mem_cons_self
      ⟨by rw [hkey']; exact Option.some_ne_none k, hkey.trans hkey'.symm⟩

end Upsert
