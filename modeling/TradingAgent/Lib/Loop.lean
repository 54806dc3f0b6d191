/-
Loops that run until one of their turns leaves them, as `while True` with a `break` has them. A turn either
leaves with a result or gives the state of the next turn; a loop that never leaves has no result.
-/
import Mathlib.Order.Basic

namespace Loop

variable {σ ρ : Type} {turn : σ → ρ ⊕ σ} {s s' : σ} {r r' : ρ}

/-- The result of a loop that leaves within `n` turns. -/
def run (turn : σ → ρ ⊕ σ) : ℕ → σ → Option ρ
  | 0, _ => none
  | n + 1, s => match turn s with
    | .inl r => some r
    | .inr s' => run turn n s'

/-- The loop leaves with a result, after some number of turns. -/
def Returns (turn : σ → ρ ⊕ σ) (s : σ) (r : ρ) : Prop := ∃ n, run turn n s = some r

theorem returns_of_inl (h : turn s = .inl r') : Returns turn s r ↔ r = r' := by
  constructor
  · rintro ⟨n, hn⟩
    cases n with
    | zero => cases hn
    | succ n =>
      rw [run, h] at hn
      exact (Option.some.inj hn).symm
  · rintro rfl
    exact ⟨1, by rw [run, h]⟩

theorem returns_of_inr (h : turn s = .inr s') : Returns turn s r ↔ Returns turn s' r := by
  constructor
  · rintro ⟨n, hn⟩
    cases n with
    | zero => cases hn
    | succ n =>
      rw [run, h] at hn
      exact ⟨n, hn⟩
  · rintro ⟨n, hn⟩
    exact ⟨n + 1, by rw [run, h]; exact hn⟩

/-- What holds where the loop leaves, and before a turn if after it, holds of every loop that returns. -/
theorem Returns.induct {P : σ → ρ → Prop} (leaves : ∀ s r, turn s = .inl r → P s r)
    (next : ∀ s s' r, turn s = .inr s' → P s' r → P s r) (h : Returns turn s r) : P s r := by
  obtain ⟨n, hn⟩ := h
  induction n generalizing s with
  | zero => cases hn
  | succ n ih =>
    rw [run] at hn
    split at hn
    · rename_i r' hturn
      cases hn
      exact leaves s r hturn
    · rename_i s' hturn
      exact next s s' r hturn (ih hn)

theorem Returns.unique (h : Returns turn s r) (h' : Returns turn s r') : r = r' := by
  revert h'
  refine Returns.induct (P := fun s r => Returns turn s r' → r = r') ?_ ?_ h
  · exact fun s r hturn h' => ((returns_of_inl hturn).1 h').symm
  · exact fun s s' r hturn ih h' => ih ((returns_of_inr hturn).1 h')

/-- A loop leaves if every turn that goes on makes a measure smaller. -/
theorem exists_returns (measure : σ → ℕ) (h : ∀ s s', turn s = .inr s' → measure s' < measure s) (s : σ) :
    ∃ r, Returns turn s r := by
  induction hn : measure s using Nat.strongRecOn generalizing s with
  | ind n ih =>
    cases hturn : turn s with
    | inl r => exact ⟨r, (returns_of_inl hturn).2 rfl⟩
    | inr s' =>
      obtain ⟨r, hr⟩ := ih (measure s') (hn ▸ h s s' hturn) s' rfl
      exact ⟨r, (returns_of_inr hturn).2 hr⟩

end Loop
