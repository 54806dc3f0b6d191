/-
Double entry. A book holds cash and holdings at cost, and keeps the realized result and the entry
fees of what went through it. Buying a key that is not held moves cash into a holding, closing a
holding moves its price back and books the difference; both keep the book balanced: cash plus
holdings at cost is the initial cash plus the realized result minus the entry fees.
-/
import TradingAgent.Lib.Dict
import Mathlib.Tactic.Ring
import Mathlib.Tactic.LinearCombination

namespace Ledger

variable {κ V : Type} [DecidableEq κ] [CommRing V]

/-- Cash, holdings by key with quantity and unit cost, realized result and entry fees. -/
structure Book (κ V : Type) where
  cash : V
  holdings : Dict κ (V × V)
  realized : V
  fees : V

/-- The holdings at cost. -/
def Book.value (b : Book κ V) : V := b.holdings.sum (fun _ h => h.1 * h.2)

/-- Buy a quantity at a unit cost and pay a fee. -/
def Book.buy (b : Book κ V) (k : κ) (quantity cost fee : V) : Book κ V :=
  { b with
    cash := b.cash - (cost * quantity + fee)
    holdings := b.holdings.set k (quantity, cost)
    fees := b.fees + fee }

/-- Close a holding at a price and pay a fee; the result is booked net of the fee. -/
def Book.close (b : Book κ V) (k : κ) (price fee : V) : Book κ V :=
  match b.holdings.get? k with
  | none => b
  | some (quantity, cost) =>
    { b with
      cash := b.cash + (price * quantity - fee)
      holdings := b.holdings.erase k
      realized := b.realized + ((price - cost) * quantity - fee) }

/-- The book is balanced against the initial cash. -/
def Balanced (initial : V) (b : Book κ V) : Prop := b.cash + b.value = initial + b.realized - b.fees

omit [DecidableEq κ] in
theorem balanced_empty (initial : V) :
    Balanced initial { cash := initial, holdings := (Dict.empty : Dict κ (V × V)), realized := 0, fees := 0 } := by
  unfold Balanced Book.value; simp

theorem balanced_buy {initial : V} {b : Book κ V} (h : Balanced initial b) {k : κ}
    (hk : b.holdings.get? k = none) (quantity cost fee : V) :
    Balanced initial (b.buy k quantity cost fee) := by
  unfold Balanced Book.value Book.buy at *
  dsimp only
  rw [Dict.sum_set_new _ _ _ hk]
  linear_combination h

theorem balanced_close {initial : V} {b : Book κ V} (h : Balanced initial b) (k : κ) (price fee : V) :
    Balanced initial (b.close k price fee) := by
  unfold Book.close
  split
  · exact h
  · rename_i quantity cost hk
    have hsum := Dict.sum_erase b.holdings (fun _ x => x.1 * x.2) hk
    unfold Balanced Book.value at *
    dsimp only at *
    linear_combination h + hsum

end Ledger
