/-
Insertion into a table with a unique constraint, where a row in conflict with a stored one updates it. The
rows a query picks out stay the same as long as every stored value that is changed and every value that is
added lies outside the query.
-/
import Mathlib.Data.List.Basic
import Mathlib.Tactic.Common

namespace Upsert

variable {α κ : Type} [DecidableEq κ]

/-- The constraint of a table, `key` being the columns it is on, and what an update writes. A row without a
key, which has a null among these columns, is in conflict with no other. An update leaves the key alone. -/
structure Constraint (α κ : Type) where
  key : α → Option κ
  merge : α → α → α
  key_merge : ∀ row new, key (merge row new) = key row

variable (c : Constraint α κ)

/-- A stored row is in conflict with a new one. -/
def Constraint.Conflict (new row : α) : Prop := c.key new ≠ none ∧ c.key row = c.key new

instance (new row : α) : Decidable (c.Conflict new row) :=
  inferInstanceAs (Decidable (_ ∧ _))

/-- Insert one row, or update the stored row it is in conflict with. -/
def one (rows : List α) (new : α) : List α :=
  if rows.any (fun row => c.Conflict new row) then
    rows.map (fun row => if c.Conflict new row then c.merge row new else row)
  else rows ++ [new]

/-- Insert the rows of one statement; `none` if two of them are in conflict, which no statement may update
twice. -/
def all? (rows values : List α) : Option (List α) :=
  if values.Pairwise (fun a b => ¬ c.Conflict a b) then some (values.foldl (one c) rows) else none

variable {c} {rows values : List α} {new : α} {p : α → Bool}

theorem one_eq_map {row : α} (hrow : row ∈ rows) (h : c.Conflict new row) :
    one c rows new = rows.map (fun row => if c.Conflict new row then c.merge row new else row) :=
  if_pos (List.any_eq_true.2 ⟨row, hrow, decide_eq_true h⟩)

theorem one_eq_append (h : ∀ row ∈ rows, ¬ c.Conflict new row) : one c rows new = rows ++ [new] := by
  refine if_neg fun hany => ?_
  obtain ⟨row, hrow, hconf⟩ := List.any_eq_true.1 hany
  exact h row hrow (of_decide_eq_true hconf)

theorem mem_one_iff {k : κ} (hnew : c.key new ≠ some k) {row : α} (hrow : c.key row = some k) :
    row ∈ one c rows new ↔ row ∈ rows := by
  unfold one
  split
  · rw [List.mem_map]
    constructor
    · rintro ⟨r, hr, rfl⟩
      split at hrow
      · rename_i hconf
        rw [c.key_merge, hconf.2] at hrow
        exact absurd hrow hnew
      · rename_i hconf
        rw [if_neg hconf]
        exact hr
    · intro hr
      refine ⟨row, hr, if_neg ?_⟩
      rintro ⟨-, hkey⟩
      exact hnew (hkey ▸ hrow)
  · rw [List.mem_append, List.mem_singleton]
    refine or_iff_left ?_
    rintro rfl
    exact hnew hrow

/-- A row without a key is added. -/
theorem one_of_key_eq_none (h : c.key new = none) : one c rows new = rows ++ [new] :=
  one_eq_append fun _ _ hconf => hconf.1 h

/-- A row with a key meets a stored row when it comes again, and finds it updated already. -/
theorem one_one {again : α} (hkey : c.key new ≠ none) (hagain : c.key again = c.key new)
    (hmerge : ∀ row, c.merge (c.merge row new) again = c.merge row new) (hself : c.merge new again = new) :
    one c (one c rows new) again = one c rows new := by
  have hconf : ∀ row, c.Conflict again row ↔ c.Conflict new row := by
    intro row
    unfold Constraint.Conflict
    rw [hagain]
  have hmap : ∀ {l : List α}, (∀ row ∈ l, c.Conflict new row → c.merge row again = row) →
      l.map (fun row => if c.Conflict again row then c.merge row again else row) = l := by
    intro l hl
    refine (List.map_congr_left fun row hrow => ?_).trans (List.map_id' l)
    split
    · rename_i hrow'
      exact hl row hrow ((hconf row).1 hrow')
    · rfl
  by_cases hany : rows.any (fun row => c.Conflict new row)
  · have hone : one c rows new = rows.map (fun row => if c.Conflict new row then c.merge row new else row) :=
      if_pos hany
    obtain ⟨row, hrow, hrowconf⟩ := List.any_eq_true.1 hany
    have hfirst := of_decide_eq_true hrowconf
    rw [hone]
    unfold one
    rw [if_pos]
    · refine hmap fun row' hrow' hconf' => ?_
      obtain ⟨old, -, rfl⟩ := List.mem_map.1 hrow'
      split
      · exact hmerge old
      · rename_i hold
        rw [if_neg hold] at hconf'
        exact absurd hconf' hold
    · rw [List.any_eq_true]
      refine ⟨_, List.mem_map_of_mem hrow, ?_⟩
      rw [decide_eq_true_eq, if_pos hfirst, hconf]
      exact ⟨hkey, (c.key_merge row new).trans hfirst.2⟩
  · have hone : one c rows new = rows ++ [new] := if_neg hany
    have hnew : ∀ row ∈ rows, ¬ c.Conflict new row := by
      intro row hrow hrowconf
      exact hany (List.any_eq_true.2 ⟨row, hrow, decide_eq_true hrowconf⟩)
    rw [hone]
    unfold one
    rw [if_pos]
    · refine hmap fun row hrow hrowconf => ?_
      rcases List.mem_append.1 hrow with hrow | hrow
      · exact absurd hrowconf (hnew row hrow)
      · rw [List.mem_singleton.1 hrow]
        exact hself
    · rw [List.any_eq_true]
      refine ⟨new, List.mem_append_right _ List.mem_cons_self, ?_⟩
      rw [decide_eq_true_eq, hconf]
      exact ⟨hkey, rfl⟩

/-- A new row spares a query: it neither changes a row into or within the query, nor is it one to be added
there. -/
structure Spares (c : Constraint α κ) (p : α → Bool) (rows : List α) (new : α) : Prop where
  changed : ∀ row ∈ rows, c.Conflict new row →
    c.merge row new = row ∨ (p row = false ∧ p (c.merge row new) = false)
  added : (∀ row ∈ rows, ¬ c.Conflict new row) → p new = false

theorem filter_map_eq {f : α → α} : ∀ {rows : List α},
    (∀ row ∈ rows, f row = row ∨ (p row = false ∧ p (f row) = false)) → (rows.map f).filter p = rows.filter p
  | [], _ => rfl
  | row :: rows, h => by
    rw [List.map_cons, List.filter_cons, List.filter_cons,
      filter_map_eq fun r hr => h r (List.mem_cons_of_mem _ hr)]
    rcases h row List.mem_cons_self with hsame | ⟨hrow, hf⟩
    · rw [hsame]
    · rw [hrow, hf]
      rfl

theorem filter_one (h : Spares c p rows new) : (one c rows new).filter p = rows.filter p := by
  unfold one
  split
  · refine filter_map_eq fun row hrow => ?_
    split
    · rename_i hconf
      exact h.changed row hrow hconf
    · exact .inl rfl
  · rename_i hnone
    have hadded : p new = false := by
      refine h.added fun row hrow hconf => hnone ?_
      rw [List.any_eq_true]
      exact ⟨row, hrow, decide_eq_true hconf⟩
    rw [List.filter_append, List.filter_cons, hadded]
    exact List.append_nil _

/-- A row that is in conflict with none of the rows inserted before it meets the stored rows as they were. -/
theorem Spares.after {first : α} (hfirst : ¬ c.Conflict first new) (h : Spares c p rows new) :
    Spares c p (one c rows first) new := by
  have hkey : ∀ row, c.Conflict new row → (row ∈ one c rows first ↔ row ∈ rows) := by
    rintro row ⟨hne, hkey⟩
    obtain ⟨k, hk⟩ := Option.ne_none_iff_exists'.1 hne
    refine mem_one_iff (fun hf => hfirst ⟨?_, ?_⟩) (hkey.trans hk)
    · rw [hf]
      exact Option.some_ne_none k
    · rw [hf, hk]
  constructor
  · exact fun row hrow hconf => h.changed row ((hkey row hconf).1 hrow) hconf
  · exact fun hall => h.added fun row hrow hconf => hall row ((hkey row hconf).2 hrow) hconf

/-- A statement whose rows all spare a query leaves its result alone. -/
theorem filter_all? {rows' : List α} (h : ∀ new ∈ values, Spares c p rows new)
    (hall : all? c rows values = some rows') : rows'.filter p = rows.filter p := by
  unfold all? at hall
  split at hall
  · rename_i hpair
    cases hall
    induction values generalizing rows with
    | nil => rfl
    | cons first values ih =>
      rw [List.pairwise_cons] at hpair
      rw [List.foldl_cons, ih ?_ hpair.2, filter_one (h first List.mem_cons_self)]
      intro new hnew
      exact (h new (List.mem_cons_of_mem _ hnew)).after (hpair.1 new hnew)
  · cases hall

/-! ## Several rows -/

omit [DecidableEq κ] in
theorem Constraint.Conflict.symm {a b : α} (h : c.Conflict a b) : c.Conflict b a :=
  ⟨fun hnone => h.1 (h.2.symm.trans hnone), h.2.symm⟩

omit [DecidableEq κ] in
/-- Whether two rows are in conflict is up to their keys. -/
theorem conflict_congr {a a' b b' : α} (ha : c.key a = c.key a') (hb : c.key b = c.key b') :
    c.Conflict a b ↔ c.Conflict a' b' := by
  unfold Constraint.Conflict
  rw [ha, hb]

omit [DecidableEq κ] in
/-- A row stays in conflict with the same rows when it is updated. -/
theorem conflict_merge_iff {a row : α} : c.Conflict a (c.merge row new) ↔ c.Conflict a row :=
  conflict_congr rfl (c.key_merge row new)

/-- The rows that a row is in conflict with are in the table before an insertion if they are afterwards. -/
theorem exists_conflict_one_iff {a : α} (h : ¬ c.Conflict a new) :
    (∃ row ∈ one c rows new, c.Conflict a row) ↔ ∃ row ∈ rows, c.Conflict a row := by
  by_cases hany : ∃ row ∈ rows, c.Conflict new row
  · obtain ⟨row₀, hrow₀, hconf₀⟩ := hany
    rw [one_eq_map hrow₀ hconf₀]
    simp only [List.mem_map, exists_exists_and_eq_and]
    refine exists_congr fun row => and_congr_right fun _ => ?_
    split
    · exact conflict_merge_iff
    · rfl
  · rw [one_eq_append fun row hrow hconf => hany ⟨row, hrow, hconf⟩]
    simp only [List.mem_append, List.mem_singleton, or_and_right, exists_or, exists_eq_left, or_iff_left h]

/-- Insertions of rows that are not in conflict can be exchanged, up to the order of the table. -/
theorem one_comm {a b : α} (h : ¬ c.Conflict a b) :
    (one c (one c rows a) b).Perm (one c (one c rows b) a) := by
  have hba : ¬ c.Conflict b a := fun hconf => h hconf.symm
  have hsame : ∀ {x y : α}, ¬ c.Conflict x y → (∃ row ∈ rows, c.Conflict x row) →
      (∀ row ∈ rows, ¬ c.Conflict y row) → one c (one c rows x) y = one c (one c rows y) x := by
    rintro x y hxy ⟨row, hrow, hconf⟩ hnone
    have hyx : ¬ c.Conflict y x := fun hconf => hxy hconf.symm
    have hnone' : ∀ row' ∈ one c rows x, ¬ c.Conflict y row' := by
      intro row' hrow' hconf'
      obtain ⟨row'', hrow'', hconf''⟩ := (exists_conflict_one_iff hyx).1 ⟨row', hrow', hconf'⟩
      exact hnone row'' hrow'' hconf''
    rw [one_eq_append hnone', one_eq_append hnone, one_eq_map (List.mem_append_left _ hrow) hconf,
      one_eq_map hrow hconf, List.map_append, List.map_singleton, if_neg hxy]
  by_cases ha : ∃ row ∈ rows, c.Conflict a row
  · by_cases hb : ∃ row ∈ rows, c.Conflict b row
    · obtain ⟨ra, hra, hca⟩ := (exists_conflict_one_iff h).2 ha
      obtain ⟨rb, hrb, hcb⟩ := (exists_conflict_one_iff hba).2 hb
      obtain ⟨ra', hra', hca'⟩ := ha
      obtain ⟨rb', hrb', hcb'⟩ := hb
      rw [one_eq_map hrb hcb, one_eq_map hra' hca', one_eq_map hra hca, one_eq_map hrb' hcb', List.map_map,
        List.map_map]
      refine List.Perm.of_eq (List.map_congr_left fun row _ => ?_)
      simp only [Function.comp]
      by_cases hrow : c.Conflict a row
      · have hrowb : ¬ c.Conflict b row := fun hconf => hba ⟨hconf.1, hrow.2.symm.trans hconf.2⟩
        rw [if_pos hrow, if_neg hrowb, if_pos hrow, if_neg fun hconf => hrowb (conflict_merge_iff.1 hconf)]
      · rw [if_neg hrow]
        split
        · rw [if_neg fun hconf => hrow (conflict_merge_iff.1 hconf)]
        · rfl
    · exact .of_eq (hsame h ha fun row hrow hconf => hb ⟨row, hrow, hconf⟩)
  · have ha' : ∀ row ∈ rows, ¬ c.Conflict a row := fun row hrow hconf => ha ⟨row, hrow, hconf⟩
    by_cases hb : ∃ row ∈ rows, c.Conflict b row
    · exact .of_eq (hsame hba hb ha').symm
    · have hb' : ∀ row ∈ rows, ¬ c.Conflict b row := fun row hrow hconf => hb ⟨row, hrow, hconf⟩
      rw [one_eq_append ha', one_eq_append hb', one_eq_append, one_eq_append, List.append_assoc, List.append_assoc]
      · exact (List.Perm.swap b a []).append_left rows
      · intro row hrow
        rcases List.mem_append.1 hrow with hrow | hrow
        · exact ha' row hrow
        · rwa [List.mem_singleton.1 hrow]
      · intro row hrow
        rcases List.mem_append.1 hrow with hrow | hrow
        · exact hb' row hrow
        · rwa [List.mem_singleton.1 hrow]

theorem perm_one {rows' : List α} (h : rows.Perm rows') : (one c rows new).Perm (one c rows' new) := by
  by_cases hany : ∃ row ∈ rows, c.Conflict new row
  · obtain ⟨row, hrow, hconf⟩ := hany
    rw [one_eq_map hrow hconf, one_eq_map (h.mem_iff.1 hrow) hconf]
    exact h.map _
  · rw [one_eq_append fun row hrow hconf => hany ⟨row, hrow, hconf⟩,
      one_eq_append fun row hrow hconf => hany ⟨row, h.mem_iff.2 hrow, hconf⟩]
    exact h.append_right _

theorem perm_foldl_one {rows' : List α} (h : rows.Perm rows') :
    (values.foldl (one c) rows).Perm (values.foldl (one c) rows') := by
  induction values generalizing rows rows' with
  | nil => exact h
  | cons v values ih => exact ih (perm_one h)

theorem foldl_one_comm_one (h : ∀ v ∈ values, ¬ c.Conflict v new) :
    (values.foldl (one c) (one c rows new)).Perm (one c (values.foldl (one c) rows) new) := by
  induction values generalizing rows with
  | nil => exact .refl _
  | cons v values ih =>
    have hv : ¬ c.Conflict new v := fun hconf => h v List.mem_cons_self hconf.symm
    exact (perm_foldl_one (one_comm hv)).trans (ih fun v' hv' => h v' (List.mem_cons_of_mem _ hv'))

/-- Statements whose rows are not in conflict can be exchanged, up to the order of the table. -/
theorem foldl_one_comm {values' : List α} (h : ∀ v ∈ values, ∀ w ∈ values', ¬ c.Conflict v w) :
    (values'.foldl (one c) (values.foldl (one c) rows)).Perm
      (values.foldl (one c) (values'.foldl (one c) rows)) := by
  induction values' generalizing rows with
  | nil => exact .refl _
  | cons w values' ih =>
    have hw : (values.foldl (one c) (one c rows w)).Perm (one c (values.foldl (one c) rows) w) :=
      foldl_one_comm_one fun v hv => h v hv w List.mem_cons_self
    exact (perm_foldl_one hw.symm).trans (ih fun v hv w' hw' => h v hv w' (List.mem_cons_of_mem _ hw'))

/-- Rows of a key that does not come up are those from before. -/
theorem mem_foldl_one_iff {k : κ} (h : ∀ v ∈ values, c.key v ≠ some k) {row : α} (hrow : c.key row = some k) :
    row ∈ values.foldl (one c) rows ↔ row ∈ rows := by
  induction values generalizing rows with
  | nil => rfl
  | cons v values ih =>
    rw [List.foldl_cons, ih fun v' hv' => h v' (List.mem_cons_of_mem _ hv'),
      mem_one_iff (h v List.mem_cons_self) hrow]

/-- What becomes of a row of a statement is settled when it is inserted: the rows before it and after it are not
in conflict with it. -/
theorem mem_foldl_one_of {k : κ} (hpair : values.Pairwise (fun a b => ¬ c.Conflict a b)) {v row : α}
    (hv : v ∈ values) (hk : c.key v = some k) (hrow : c.key row = some k)
    (hone : ∀ rows', (∀ r, c.key r = some k → (r ∈ rows' ↔ r ∈ rows)) → row ∈ one c rows' v) :
    row ∈ values.foldl (one c) rows := by
  obtain ⟨front, back, rfl⟩ := List.append_of_mem hv
  obtain ⟨-, hback, hfront⟩ := List.pairwise_append.1 hpair
  have hfrontkey : ∀ w ∈ front, c.key w ≠ some k := fun w hw hwk =>
    hfront w hw v List.mem_cons_self ⟨by rw [hwk]; exact Option.some_ne_none k, hk.trans hwk.symm⟩
  have hbackkey : ∀ w ∈ back, c.key w ≠ some k := fun w hw hwk =>
    (List.pairwise_cons.1 hback).1 w hw ⟨by rw [hk]; exact Option.some_ne_none k, hwk.trans hk.symm⟩
  rw [List.foldl_append, List.foldl_cons, mem_foldl_one_iff hbackkey hrow]
  exact hone _ fun r hr => mem_foldl_one_iff hfrontkey hr

/-- A stored row that a row of a statement is in conflict with is updated. -/
theorem merge_mem_foldl_one (hpair : values.Pairwise (fun a b => ¬ c.Conflict a b)) {v old : α} (hv : v ∈ values)
    (hold : old ∈ rows) (hconf : c.Conflict v old) : c.merge old v ∈ values.foldl (one c) rows := by
  obtain ⟨k, hk⟩ := Option.ne_none_iff_exists'.1 hconf.1
  have holdkey : c.key old = some k := hconf.2.trans hk
  refine mem_foldl_one_of hpair hv hk ((c.key_merge old v).trans holdkey) fun rows' hrows' => ?_
  have hold' := (hrows' old holdkey).2 hold
  rw [one_eq_map hold' hconf]
  exact List.mem_map.2 ⟨old, hold', if_pos hconf⟩

/-- A row of a statement that is in conflict with no stored row is added. -/
theorem mem_foldl_one (hpair : values.Pairwise (fun a b => ¬ c.Conflict a b)) {v : α} (hv : v ∈ values)
    (hkey : c.key v ≠ none) (hnone : ∀ old ∈ rows, ¬ c.Conflict v old) : v ∈ values.foldl (one c) rows := by
  obtain ⟨k, hk⟩ := Option.ne_none_iff_exists'.1 hkey
  refine mem_foldl_one_of hpair hv hk hk fun rows' hrows' => ?_
  rw [one_eq_append fun old hold hconf => hnone old ((hrows' old (hconf.2.trans hk)).1 hold) hconf]
  exact List.mem_append_right _ List.mem_cons_self

/-- No two rows of a table that keeps its constraint come to be in conflict. -/
theorem pairwise_one (h : rows.Pairwise (fun a b => ¬ c.Conflict a b)) :
    (one c rows new).Pairwise (fun a b => ¬ c.Conflict a b) := by
  by_cases hany : ∃ row ∈ rows, c.Conflict new row
  · obtain ⟨row, hrow, hconf⟩ := hany
    have hkey : ∀ row, c.key (if c.Conflict new row then c.merge row new else row) = c.key row := by
      intro row
      split
      · exact c.key_merge row new
      · rfl
    rw [one_eq_map hrow hconf, List.pairwise_map]
    exact h.imp fun {a b} hab hconf' => hab ((conflict_congr (hkey a) (hkey b)).1 hconf')
  · rw [one_eq_append fun row hrow hconf => hany ⟨row, hrow, hconf⟩, List.pairwise_append]
    refine ⟨h, List.pairwise_singleton _ _, fun row hrow new' hnew' hconf => ?_⟩
    rw [List.mem_singleton.1 hnew'] at hconf
    exact hany ⟨row, hrow, hconf.symm⟩

theorem pairwise_foldl_one (h : rows.Pairwise (fun a b => ¬ c.Conflict a b)) :
    (values.foldl (one c) rows).Pairwise (fun a b => ¬ c.Conflict a b) := by
  induction values generalizing rows with
  | nil => exact h
  | cons v values ih => exact ih (pairwise_one h)

end Upsert
