/-
Tables with an automatically numbered primary key: a row goes in under the next free number, an
update touches one row, and no number is given out twice. Columns take texts and numbers of a
limited size, and round numbers to their scale.
-/
import TradingAgent.Lib.Dict
import TradingAgent.Lib.Rounding
import Mathlib.Algebra.Field.Rat
import Mathlib.Algebra.Order.Ring.Rat
import Mathlib.Data.Rat.Floor

/-! ## Columns -/

namespace Column

/-- Whether a text fits a column of so many characters, or one without a limit. The database keeps no NUL. -/
def textFits (limit : Option ℕ) (text : String) : Bool :=
  limit.all (fun n => text.length ≤ n) && !text.toList.contains (Char.ofNat 0)

/-- Whether a number fits a column of so many digits, so many of them after the point, to which it is rounded. -/
def numericFits (precision scale : ℕ) (x : ℚ) : Bool := |Rounding.halfUp (x * 10 ^ scale)| < 10 ^ precision

/-- The number that such a column holds. -/
def numeric (scale : ℕ) (x : ℚ) : ℚ := Rounding.halfUp (x * 10 ^ scale) / 10 ^ scale

/-- Whether a number fits a column of 32 bits. -/
def integerFits (n : ℤ) : Bool := -2 ^ 31 ≤ n && n < 2 ^ 31

end Column

/-! ## Tables -/

/-- A table whose rows are numbered on insertion. Numbers from `nextId` on are free. -/
structure Table (α : Type) where
  rows : Dict ℕ α
  nextId : ℕ
  fresh : ∀ id, nextId ≤ id → rows.get? id = none

namespace Table

variable {α : Type}

/-- The table without rows. -/
def empty : Table α := ⟨Dict.empty, 1, fun _ _ => rfl⟩

/-- The row numbered `id`. -/
def get? (t : Table α) (id : ℕ) : Option α := t.rows.get? id

/-- Insert a row, which may hold its own number. -/
def insert (t : Table α) (row : ℕ → α) : Table α :=
  ⟨t.rows.set t.nextId (row t.nextId), t.nextId + 1, by
    intro id hid
    rw [Dict.get?_set_ne _ _ (by omega)]
    exact t.fresh id (by omega)⟩

/-- Update the row numbered `id`, if there is one. -/
def update (t : Table α) (id : ℕ) (f : α → α) : Table α :=
  ⟨t.rows.modify id f, t.nextId, by
    intro id' hid'
    rw [Dict.get?_modify]
    split
    · rename_i h; rw [← h, t.fresh id' hid']; rfl
    · exact t.fresh id' hid'⟩

/-- Change every row. -/
def mapRows (t : Table α) (f : α → α) : Table α :=
  ⟨t.rows.mapValues (fun _ => f), t.nextId, by
    intro id hid
    rw [Dict.get?_mapValues, t.fresh id hid]
    rfl⟩

theorem get?_insert (t : Table α) (row : ℕ → α) (id : ℕ) :
    (t.insert row).get? id = if id = t.nextId then some (row t.nextId) else t.get? id :=
  Dict.get?_set t.rows t.nextId id (row t.nextId)

theorem get?_update (t : Table α) (id id' : ℕ) (f : α → α) :
    (t.update id f).get? id' = if id' = id then (t.get? id).map f else t.get? id' :=
  Dict.get?_modify t.rows id id' f

@[simp] theorem values_insert (t : Table α) (row : ℕ → α) :
    (t.insert row).rows.values = t.rows.values ++ [row t.nextId] := by
  unfold Dict.values insert
  rw [Dict.items_set_of_none _ _ (t.fresh _ le_rfl), List.map_append, List.map_singleton]

/-- What an update leaves alone is the same in the rows. -/
theorem map_values_update {β : Type} (t : Table α) (id : ℕ) {f : α → α} {g : α → β} (h : ∀ a, g (f a) = g a) :
    (t.update id f).rows.values.map g = t.rows.values.map g := Dict.map_values_modify t.rows id h

@[simp] theorem values_mapRows (t : Table α) (f : α → α) : (t.mapRows f).rows.values = t.rows.values.map f := by
  unfold Dict.values mapRows Dict.mapValues
  rw [List.map_map, List.map_map]
  rfl

theorem get?_nextId (t : Table α) : t.get? t.nextId = none := t.fresh t.nextId le_rfl

theorem lt_nextId {t : Table α} {id : ℕ} {row : α} (h : t.get? id = some row) : id < t.nextId := by
  by_contra hle
  have := t.fresh id (by omega)
  unfold get? at h
  rw [this] at h
  cases h

/-! ## Rows that hold their own number -/

/-- Every row holds its number in the field `id`. -/
def Numbered (t : Table α) (id : α → ℕ) : Prop := ∀ k row, t.get? k = some row → id row = k

variable {t : Table α} {id : α → ℕ}

theorem numbered_empty : (empty : Table α).Numbered id := fun _ _ h => by cases h

theorem Numbered.insert (h : t.Numbered id) {row : ℕ → α} (hrow : id (row t.nextId) = t.nextId) :
    (t.insert row).Numbered id := by
  intro k a hk
  rw [get?_insert] at hk
  split at hk
  · rename_i heq
    cases hk
    rw [heq, hrow]
  · exact h k a hk

theorem Numbered.update (h : t.Numbered id) (k : ℕ) {f : α → α} (hf : ∀ a, id (f a) = id a) :
    (t.update k f).Numbered id := by
  intro k' a hk'
  rw [get?_update] at hk'
  split at hk'
  · rename_i heq
    obtain ⟨row, hrow, rfl⟩ := Option.map_eq_some_iff.1 hk'
    rw [hf, h k row hrow, heq]
  · exact h k' a hk'

theorem mem_values_iff (a : α) : a ∈ t.rows.values ↔ ∃ k, t.get? k = some a := t.rows.mem_values_iff a

/-- The numbers that the rows hold are pairwise different. -/
theorem Numbered.nodup (h : t.Numbered id) : (t.rows.values.map id).Nodup := by
  have hkeys : t.rows.values.map id = t.rows.items.map Prod.fst := by
    unfold Dict.values
    rw [List.map_map]
    exact List.map_congr_left fun e he => h e.1 e.2 ((t.rows.mem_items_iff e.1 e.2).1 he)
  rw [hkeys]
  exact t.rows.nodup

/-! ## Sums over the rows -/

variable {M : Type} [AddCommGroup M]

/-- The sum of a measure over the rows. -/
def sum (t : Table α) (f : α → M) : M := t.rows.sum (fun _ a => f a)

@[simp] theorem sum_empty (f : α → M) : (empty : Table α).sum f = 0 := rfl

/-- An inserted row adds its measure. -/
theorem sum_insert (t : Table α) (row : ℕ → α) (f : α → M) :
    (t.insert row).sum f = t.sum f + f (row t.nextId) :=
  Dict.sum_set_new t.rows (fun _ a => f a) (row t.nextId) t.get?_nextId

/-- An update replaces the measure of the row it finds. -/
theorem sum_update (t : Table α) {id : ℕ} {a : α} (g : α → α) (f : α → M) (h : t.get? id = some a) :
    (t.update id g).sum f + f a = t.sum f + f (g a) := by
  have hm : t.rows.modify id g = t.rows.set id (g a) := by
    unfold get? at h
    unfold Dict.modify
    rw [h]
  have hsum := Dict.sum_set_of_get? t.rows (fun _ a => f a) (g a) h
  rw [← hm] at hsum
  exact hsum

end Table
