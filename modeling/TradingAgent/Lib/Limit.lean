/-
Quantity limits. A limit rejects some quantities and names the largest one it has room for; it is
exact when a positive quantity is rejected just when it exceeds the room. For a list of exact
limits the smallest room decides: a positive quantity passes all of them iff it is at most that
room, so passing is downward closed and cutting a quantity down to the room makes it pass.
-/
import Mathlib.Order.MinMax
import Mathlib.Algebra.Order.Ring.Int
import Mathlib.Tactic.Common

/-- A limit on quantities: `room` is the largest quantity it lets through, `none` when it sets no
bound. -/
structure Limit where
  rejects : ℤ → Prop
  room : Option ℤ
  exact : ∀ q, 0 < q → (rejects q ↔ ∃ m, room = some m ∧ m < q)

namespace Limit

/-- The limit that lets everything through. -/
def free : Limit where
  rejects _ := False
  room := none
  exact := by simp

/-- The limit that lets a positive quantity through only when `p` fails. -/
def block (p : Prop) [Decidable p] : Limit where
  rejects _ := p
  room := if p then some 0 else none
  exact q hq := by split <;> simp_all

/-- The rooms that are set. -/
def rooms (ls : List Limit) : List ℤ := ls.filterMap Limit.room

/-- Every limit of the list lets `q` through. -/
def Passes (ls : List Limit) (q : ℤ) : Prop := ∀ l ∈ ls, ¬ l.rejects q

/-- A positive quantity passes when it fits every room. -/
theorem passes_iff_le_rooms (ls : List Limit) {q : ℤ} (hq : 0 < q) :
    Passes ls q ↔ ∀ m ∈ rooms ls, q ≤ m := by
  unfold Passes rooms
  constructor
  · intro h m hm
    obtain ⟨l, hl, hr⟩ := List.mem_filterMap.1 hm
    by_contra hlt
    exact h l hl ((l.exact q hq).2 ⟨m, hr, not_le.1 hlt⟩)
  · intro h l hl hrej
    obtain ⟨m, hr, hlt⟩ := (l.exact q hq).1 hrej
    exact absurd (h m (List.mem_filterMap.2 ⟨l, hl, hr⟩)) (not_le.2 hlt)

theorem Passes.mono {ls : List Limit} {q q' : ℤ} (h : Passes ls q) (hq' : 0 < q') (hle : q' ≤ q) :
    Passes ls q' := by
  rw [passes_iff_le_rooms ls hq']
  exact fun m hm => hle.trans ((passes_iff_le_rooms ls (hq'.trans_le hle)).1 h m hm)

/-! ## The smallest room -/

theorem le_min?_iff {xs : List ℤ} {m q : ℤ} (h : xs.min? = some m) : q ≤ m ↔ ∀ x ∈ xs, q ≤ x := by
  obtain ⟨hm, hle⟩ := List.min?_eq_some_iff.1 h
  exact ⟨fun hq x hx => hq.trans (hle x hx), fun hq => hq m hm⟩

/-- When some room is set, the smallest one, cut off at zero, is the largest quantity let through. -/
theorem passes_iff_le_smallest {ls : List Limit} {m : ℤ} (h : (rooms ls).min? = some m) {q : ℤ}
    (hq : 0 < q) : Passes ls q ↔ q ≤ max 0 m := by
  rw [passes_iff_le_rooms ls hq, ← le_min?_iff h, le_max_iff]
  exact ⟨.inr, fun h => h.resolve_left (not_le.2 hq)⟩

/-- Cutting a quantity down to the smallest room gives one that passes, unless nothing is left. -/
theorem passes_cut {ls : List Limit} {m : ℤ} (h : (rooms ls).min? = some m) {q : ℤ}
    (hcut : 0 < max 0 (min q m)) : Passes ls (max 0 (min q m)) := by
  rw [passes_iff_le_smallest h hcut]
  exact max_le_max le_rfl (min_le_right q m)

end Limit
