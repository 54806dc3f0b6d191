/-
Watching a series: every step may report, and the first report ends the watch. Watches whose steps end alike
report alike; and any two watches report alike exactly if their steps end alike until one of them reports.
-/
import Mathlib.Tactic.Common

namespace Watch

variable {σ τ β ε ρ : Type}

/-- Step through a series until a step reports. The report comes with its place in the series. -/
def run (step : σ → β → Except ε (σ × Option ρ)) : σ → List β → ℕ → Except ε (Option (ℕ × ρ))
  | _, [], _ => .ok none
  | s, b :: bs, n =>
    match step s b with
    | .error e => .error e
    | .ok (_, some r) => .ok (some (n, r))
    | .ok (s', none) => run step s' bs (n + 1)

/-- Two steps raise the same error, or report the same, or go on in related states. -/
def EndAlike (R : σ → τ → Prop) : Except ε (σ × Option ρ) → Except ε (τ × Option ρ) → Prop
  | .error e, .error e' => e = e'
  | .ok (_, some r), .ok (_, some r') => r = r'
  | .ok (s, none), .ok (t, none) => R s t
  | _, _ => False

variable {step : σ → β → Except ε (σ × Option ρ)} {step' : τ → β → Except ε (τ × Option ρ)}

/-- Watches whose steps end alike report alike. -/
theorem run_eq_of_endAlike {R : σ → τ → Prop} : ∀ {bs : List β},
    (∀ b ∈ bs, ∀ s t, R s t → EndAlike R (step s b) (step' t b)) →
    ∀ {s : σ} {t : τ} (n : ℕ), R s t → run step s bs n = run step' t bs n
  | [], _, _, _, _, _ => rfl
  | b :: bs, hstep, s, t, n, h => by
    have hb := hstep b (List.mem_cons_self ..) s t h
    unfold run
    match hs : step s b, ht : step' t b with
    | .error e, .error e' =>
      rw [hs, ht] at hb
      exact congrArg Except.error hb
    | .ok (_, some r), .ok (_, some r') =>
      rw [hs, ht] at hb
      exact congrArg (fun r => Except.ok (some (n, r))) hb
    | .ok (s', none), .ok (t', none) =>
      rw [hs, ht] at hb
      exact run_eq_of_endAlike (fun b hb => hstep b (List.mem_cons_of_mem _ hb)) (n + 1) hb
    | .error _, .ok (_, some _) => rw [hs, ht] at hb; exact hb.elim
    | .error _, .ok (_, none) => rw [hs, ht] at hb; exact hb.elim
    | .ok (_, some _), .error _ => rw [hs, ht] at hb; exact hb.elim
    | .ok (_, none), .error _ => rw [hs, ht] at hb; exact hb.elim
    | .ok (_, some _), .ok (_, none) => rw [hs, ht] at hb; exact hb.elim
    | .ok (_, none), .ok (_, some _) => rw [hs, ht] at hb; exact hb.elim

/-! ## Agreement -/

/-- The steps end alike until one of them reports. -/
def Agree (step : σ → β → Except ε (σ × Option ρ)) (step' : τ → β → Except ε (τ × Option ρ)) :
    List β → σ → τ → Prop
  | [], _, _ => True
  | b :: bs, s, t => EndAlike (Agree step step' bs) (step s b) (step' t b)

/-- A report comes from its place on or later. -/
theorem le_of_run : ∀ {bs : List β} {s : σ} {n m : ℕ} {r : ρ}, run step s bs n = .ok (some (m, r)) → n ≤ m
  | [], _, _, _, _, h => by cases h
  | b :: bs, s, n, m, r, h => by
    unfold run at h
    split at h
    · cases h
    · cases h
      exact Nat.le_refl _
    · exact Nat.le_of_succ_le (le_of_run h)

theorem run_succ_ne {bs : List β} {s : σ} {n : ℕ} {r : ρ} : run step s bs (n + 1) ≠ .ok (some (n, r)) := fun h =>
  absurd (le_of_run h) (Nat.not_succ_le_self n)

theorem run_ne_error (htotal : ∀ s b e, step s b ≠ .error e) : ∀ {bs : List β} {s : σ} {n : ℕ} {e : ε},
    run step s bs n ≠ .error e
  | [], _, _, _ => nofun
  | b :: bs, s, n, e => by
    unfold run
    split
    · rename_i e' h
      exact absurd h (htotal s b e')
    · nofun
    · exact run_ne_error htotal

/-- A watch that raises no error reports as another one exactly if their steps agree. -/
theorem run_eq_iff_agree (htotal : ∀ s b e, step s b ≠ .error e) : ∀ {bs : List β} {s : σ} {t : τ} (n : ℕ),
    run step s bs n = run step' t bs n ↔ Agree step step' bs s t
  | [], _, _, _ => iff_of_true rfl trivial
  | b :: bs, s, t, n => by
    unfold run Agree
    match hs : step s b, ht : step' t b with
    | .error e, _ => exact absurd hs (htotal s b e)
    | .ok (_, some r), .ok (_, some r') =>
      refine ⟨fun h => ?_, fun h => congrArg (fun r => Except.ok (some (n, r))) h⟩
      cases h
      rfl
    | .ok (s', none), .ok (t', none) => exact run_eq_iff_agree htotal (n + 1)
    | .ok (_, some r), .error e => exact iff_of_false nofun id
    | .ok (s', none), .error e => exact iff_of_false (run_ne_error htotal) id
    | .ok (_, some r), .ok (t', none) => exact iff_of_false (fun h => run_succ_ne h.symm) id
    | .ok (s', none), .ok (_, some r') => exact iff_of_false run_succ_ne id

end Watch
