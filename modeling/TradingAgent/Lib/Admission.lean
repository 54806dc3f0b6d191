/-
Admission of a batch, item by item. Items are added to a state, and a guard is asked about each of them
in the state that the items before it led to. States are compared by their load: adding keeps this order,
and limits that hold at a load hold below it. A guard that lets through just the items that leave the
limits intact then admits a batch of items that raise the load exactly if the limits hold after the whole
batch, and they hold then for one order of the items exactly if they do for every order.
-/
import Mathlib.Order.Basic
import Mathlib.Data.List.Perm.Basic

namespace Admission

variable {σ α : Type} (add : σ → α → σ)

/-- Every item is admitted in the state to which the items before it were added. -/
def Admitted (admits : σ → α → Prop) : σ → List α → Prop
  | _, [] => True
  | s, a :: l => admits s a ∧ Admitted admits (add s a) l

instance instDecidableAdmitted {admits : σ → α → Prop} [∀ s a, Decidable (admits s a)] :
    ∀ (s : σ) (l : List α), Decidable (Admitted add admits s l)
  | _, [] => isTrue trivial
  | s, a :: l =>
    have : Decidable (Admitted add admits (add s a) l) := instDecidableAdmitted (add s a) l
    inferInstanceAs (Decidable (admits s a ∧ Admitted add admits (add s a) l))

variable {add} [Preorder σ]

/-! ## The load of a batch -/

theorem le_foldl : ∀ {l : List α}, (∀ a ∈ l, ∀ s, s ≤ add s a) → ∀ s, s ≤ l.foldl add s
  | [], _, _ => le_rfl
  | a :: _, hgrow, s => (hgrow a List.mem_cons_self s).trans
      (le_foldl (fun b hb => hgrow b (List.mem_cons_of_mem a hb)) (add s a))

theorem foldl_le_foldl (hmono : ∀ {s t} a, s ≤ t → add s a ≤ add t a) :
    ∀ (l : List α) {s t : σ}, s ≤ t → l.foldl add s ≤ l.foldl add t
  | [], _, _, h => h
  | a :: l, _, _, h => foldl_le_foldl hmono l (hmono a h)

/-- A batch in another order weighs no less. -/
theorem foldl_le_of_perm (hmono : ∀ {s t} a, s ≤ t → add s a ≤ add t a)
    (hcomm : ∀ s a b, add (add s a) b ≤ add (add s b) a) {l l' : List α} (h : l.Perm l') (s : σ) :
    l.foldl add s ≤ l'.foldl add s := by
  induction h generalizing s with
  | nil => exact le_rfl
  | cons a _ ih => exact ih (add s a)
  | swap a b l => exact foldl_le_foldl hmono l (hcomm s b a)
  | trans _ _ ih₁ ih₂ => exact (ih₁ s).trans (ih₂ s)

/-! ## Limits -/

variable {limits : σ → Prop} {l : List α}

/-- Limits hold after a batch in one order exactly if they do in every order. -/
theorem limits_of_every_order_iff (hmono : ∀ {s t} a, s ≤ t → add s a ≤ add t a)
    (hcomm : ∀ s a b, add (add s a) b ≤ add (add s b) a) (hdown : ∀ {s t}, s ≤ t → limits t → limits s)
    (s : σ) : (∀ order : List α, order.Perm l → limits (order.foldl add s)) ↔ limits (l.foldl add s) := by
  constructor
  · exact fun h => h l (.refl l)
  · exact fun h order hperm => hdown (foldl_le_of_perm hmono hcomm hperm s) h

/-- A guard that lets through the items that leave the limits intact admits a batch exactly if the limits
hold at its end. -/
theorem admitted_iff {admits : σ → α → Prop} {s₀ : σ} (hdown : ∀ {s t}, s ≤ t → limits t → limits s) :
    ∀ {l : List α}, (∀ a ∈ l, ∀ s, s ≤ add s a) →
      (∀ a ∈ l, ∀ s, s₀ ≤ s → limits s → (admits s a ↔ limits (add s a))) →
      ∀ {s : σ}, s₀ ≤ s → limits s → (Admitted add admits s l ↔ limits (l.foldl add s))
  | [], _, _, _, _, hs => iff_of_true trivial hs
  | a :: l, hgrow, hguard, s, hle, hs => by
    have hgrow' : ∀ b ∈ l, ∀ t, t ≤ add t b := fun b hb => hgrow b (List.mem_cons_of_mem a hb)
    have hguard' : ∀ b ∈ l, ∀ t, s₀ ≤ t → limits t → (admits t b ↔ limits (add t b)) :=
      fun b hb => hguard b (List.mem_cons_of_mem a hb)
    have hle' : s₀ ≤ add s a := hle.trans (hgrow a List.mem_cons_self s)
    have ha := hguard a List.mem_cons_self s hle hs
    rw [Admitted, List.foldl_cons]
    constructor
    · rintro ⟨hadm, hrest⟩
      exact (admitted_iff hdown hgrow' hguard' hle' (ha.1 hadm)).1 hrest
    · intro hend
      have hnext : limits (add s a) := hdown (le_foldl hgrow' (add s a)) hend
      exact ⟨ha.2 hnext, (admitted_iff hdown hgrow' hguard' hle' hnext).2 hend⟩

end Admission
