/-
Calls that are tried again. Each attempt ends with a value or with an error, and an error is final or calls for
another attempt after a pause. The attempts end with the first one that settles the call, or with the last one that
is allowed.
-/
import Mathlib.Algebra.BigOperators.Group.List.Basic
import Mathlib.Algebra.Order.Ring.Nat
import Mathlib.Tactic.Common

namespace Retry

variable {ε ε' α : Type}

/-- What an error of an attempt means for the call: it is final, or there is another attempt; in place of one that is
not allowed the call ends with the error. -/
inductive Verdict (ε' : Type)
  | final (e : ε')
  | again (last : ε')

def Verdict.error : Verdict ε' → ε'
  | .final e => e
  | .again last => last

/-- How a call ended, after how many attempts, and the pauses between them. -/
structure Outcome (ε' α : Type) where
  result : Except ε' α
  attempts : ℕ
  pauses : List ℕ := []

/-- The attempts from number `n` on, with so many allowed after it. -/
def loop (judge : ε → Verdict ε') (pause : ℕ → ℕ) (attempt : ℕ → Except ε α) (n : ℕ) : ℕ → Outcome ε' α
  | 0 =>
    match attempt n with
    | .ok a => ⟨.ok a, n + 1, []⟩
    | .error e => ⟨.error (judge e).error, n + 1, []⟩
  | left + 1 =>
    match attempt n with
    | .ok a => ⟨.ok a, n + 1, []⟩
    | .error e =>
      match judge e with
      | .final e' => ⟨.error e', n + 1, []⟩
      | .again _ =>
        let rest := loop judge pause attempt (n + 1) left
        { rest with pauses := pause n :: rest.pauses }

variable (judge : ε → Verdict ε') (pause : ℕ → ℕ) (attempt : ℕ → Except ε α)

/-- An attempt settles the call: it ends with a value or with a final error. -/
def Settles (n : ℕ) : Prop := ∀ e, attempt n = .error e → ∃ e', judge e = .final e'

/-- What the attempt with this number makes of the call. -/
def resultOf (n : ℕ) : Except ε' α := (attempt n).mapError fun e => (judge e).error

/-- The call ends with this attempt: no attempt before it settles it, and it does or is the last one. -/
structure EndsWith (n last : ℕ) : Prop where
  le : n ≤ last
  before : ∀ k < n, ¬ Settles judge attempt k
  settles : Settles judge attempt n ∨ n = last

variable {judge pause attempt}

theorem exists_of_not_settles {n : ℕ} (h : ¬ Settles judge attempt n) :
    ∃ e last, attempt n = .error e ∧ judge e = .again last := by
  unfold Settles at h
  push Not at h
  obtain ⟨e, he, hnot⟩ := h
  cases hjudge : judge e with
  | final e' => exact absurd hjudge (hnot e')
  | again last => exact ⟨e, last, he, hjudge⟩

/-- The attempts go on until one ends the call. -/
theorem loop_eq {m : ℕ} : ∀ {left n : ℕ}, n ≤ m → m ≤ n + left → (∀ k, n ≤ k → k < m → ¬ Settles judge attempt k) →
    (Settles judge attempt m ∨ m = n + left) →
    loop judge pause attempt n left =
      ⟨resultOf judge attempt m, m + 1, (List.range' n (m - n)).map pause⟩
  | 0, n, hle, hbound, _, _ => by
    obtain rfl : n = m := by omega
    unfold loop resultOf
    cases attempt n <;> simp [Except.mapError]
  | left + 1, n, hle, hbound, hbefore, hend => by
    rcases hle.eq_or_lt with rfl | hlt
    · have hsettles : Settles judge attempt n := hend.resolve_right (by omega)
      unfold loop resultOf
      cases hattempt : attempt n with
      | ok a => simp [Except.mapError]
      | error e =>
        obtain ⟨e', hjudge⟩ := hsettles e hattempt
        simp [Except.mapError, hjudge, Verdict.error]
    · obtain ⟨e, last, hattempt, hjudge⟩ := exists_of_not_settles (hbefore n le_rfl hlt)
      have hrest : loop judge pause attempt (n + 1) left =
          ⟨resultOf judge attempt m, m + 1, (List.range' (n + 1) (m - (n + 1))).map pause⟩ :=
        loop_eq hlt (by omega) (fun k hk => hbefore k (by omega)) (hend.imp_right fun h => by omega)
      have hrange : List.range' n (m - n) = n :: List.range' (n + 1) (m - (n + 1)) := by
        have hsub : m - n = (m - (n + 1)) + 1 := by omega
        rw [hsub, List.range'_succ]
      rw [loop, hattempt]
      dsimp only
      rw [hjudge]
      dsimp only
      rw [hrest, hrange, List.map_cons]

theorem loop_eq_of_endsWith {m last : ℕ} (h : EndsWith judge attempt m last) :
    loop judge pause attempt 0 last = ⟨resultOf judge attempt m, m + 1, (List.range m).map pause⟩ := by
  rw [loop_eq (Nat.zero_le m) (by have := h.le; omega) (fun k _ hk => h.before k hk)
    (h.settles.imp_right fun h => by omega), Nat.sub_zero, List.range_eq_range']

/-- Some attempt ends the call. -/
theorem exists_endsWith (judge : ε → Verdict ε') (attempt : ℕ → Except ε α) : ∀ last : ℕ,
    ∃ m, EndsWith judge attempt m last
  | 0 => ⟨0, le_rfl, fun k hk => absurd hk (Nat.not_lt_zero k), .inr rfl⟩
  | last + 1 => by
    obtain ⟨m, hle, hbefore, hend⟩ := exists_endsWith judge attempt last
    by_cases hsettles : Settles judge attempt m
    · exact ⟨m, by omega, hbefore, .inl hsettles⟩
    · obtain rfl : m = last := hend.resolve_left hsettles
      refine ⟨m + 1, le_rfl, fun k hk => ?_, .inr rfl⟩
      rcases Nat.lt_succ_iff_lt_or_eq.1 hk with hk | rfl
      · exact hbefore k hk
      · exact hsettles

/-- The call returns the value of an attempt after attempts that all called for another one. -/
theorem loop_ok_iff {last : ℕ} {a : α} : (loop judge pause attempt 0 last).result = .ok a ↔
    ∃ m ≤ last, attempt m = .ok a ∧ ∀ k < m, ¬ Settles judge attempt k := by
  obtain ⟨m, hend⟩ := exists_endsWith judge attempt last
  rw [loop_eq_of_endsWith hend]
  dsimp only
  have hresult : resultOf judge attempt m = .ok a ↔ attempt m = .ok a := by
    unfold resultOf
    cases attempt m <;> simp [Except.mapError]
  rw [hresult]
  constructor
  · exact fun h => ⟨m, hend.le, h, hend.before⟩
  · rintro ⟨n, hn, hok, hbefore⟩
    have hsettles : Settles judge attempt n := fun e he => by
      rw [hok] at he
      cases he
    -- neither of the two attempts comes before the other
    rcases lt_trichotomy m n with hlt | rfl | hlt
    · exact absurd (hend.settles.resolve_right (by omega)) (hbefore m hlt)
    · exact hok
    · exact absurd hsettles (hend.before n hlt)

/-- Pauses that double add up to one less than the next one. -/
theorem sum_doubling (m : ℕ) : ((List.range m).map (2 ^ ·)).sum + 1 = 2 ^ m := by
  induction m with
  | zero => rfl
  | succ m ih =>
    rw [List.range_succ, List.map_append, List.sum_append, List.map_singleton, List.sum_singleton, pow_succ]
    omega

end Retry
