/-
Round trips. Fills come one after the other; under each key one fill opens and the next closes, and the two make
a round trip. What has been received less what has been paid is the net result of the round trips less what the
open fills have cost.
-/
import TradingAgent.Lib.Dict
import Mathlib.Tactic.Abel

namespace RoundTrips

/-- The fills by key that are not closed yet, and the pairs of an opening and its closing fill. -/
structure Book (κ ρ : Type) where
  opened : Dict κ ρ
  closed : List (ρ × ρ)

namespace Book

variable {κ ρ V : Type} [DecidableEq κ] [AddCommGroup V]

def empty : Book κ ρ := ⟨Dict.empty, []⟩

/-- A fill that opens a key. -/
def enter (b : Book κ ρ) (k : κ) (r : ρ) : Book κ ρ := { b with opened := b.opened.set k r }

/-- A fill that closes a key, if it is open. -/
def leave (b : Book κ ρ) (k : κ) (r : ρ) : Book κ ρ :=
  match b.opened.get? k with
  | none => b
  | some o => { opened := b.opened.erase k, closed := b.closed ++ [(o, r)] }

variable (paid received : ρ → V)

/-- What a round trip has brought. -/
def net (t : ρ × ρ) : V := received t.2 - paid t.1

/-- What all fills have brought. -/
def cash (b : Book κ ρ) : V := (b.closed.map (net paid received)).sum - b.opened.sum (fun _ r => paid r)

omit [DecidableEq κ] in
@[simp] theorem cash_empty : (empty : Book κ ρ).cash paid received = 0 := by
  unfold cash empty
  simp

theorem cash_enter {b : Book κ ρ} {k : κ} (h : b.opened.get? k = none) (r : ρ) :
    (b.enter k r).cash paid received = b.cash paid received - paid r := by
  unfold cash enter
  dsimp only
  rw [Dict.sum_set_new _ _ _ h]
  abel

theorem leave_eq {b : Book κ ρ} {k : κ} {o : ρ} (h : b.opened.get? k = some o) (r : ρ) :
    b.leave k r = { opened := b.opened.erase k, closed := b.closed ++ [(o, r)] } := by
  unfold leave
  rw [h]

theorem cash_leave {b : Book κ ρ} {k : κ} {o : ρ} (h : b.opened.get? k = some o) (r : ρ) :
    (b.leave k r).cash paid received = b.cash paid received + received r := by
  have hsum := Dict.sum_erase b.opened (fun _ r => paid r) h
  rw [leave_eq h]
  unfold cash
  rw [List.map_append, List.sum_append, List.map_cons, List.map_nil, List.sum_singleton, ← hsum]
  unfold net
  abel

/-- With nothing open, the round trips have brought everything. -/
theorem cash_of_flat {b : Book κ ρ} (h : ∀ k, b.opened.get? k = none) :
    b.cash paid received = (b.closed.map (net paid received)).sum := by
  unfold cash Dict.sum
  rw [(Dict.items_eq_nil_iff _).2 h, List.map_nil, List.sum_nil, sub_zero]

end Book

end RoundTrips
