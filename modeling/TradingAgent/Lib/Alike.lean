/-
Machines that answer alike. `trace` lists what a machine outputs, input after input; two machines whose
steps answer alike and keep a relation between their states have the same traces from related states.
For programs with exceptions, `Same R x y s t` says that `x` from `s` and `y` from `t` both return or both
raise the same exception, and end in states related by `R`. The states may be of different types.
-/
import TradingAgent.Lib.Wp

namespace Alike

open Wp

variable {α β γ δ ε σ τ : Type}

/-! ## Traces -/

/-- What a machine outputs on a list of inputs. -/
def trace (step : α → σ → β × σ) : List α → σ → List β
  | [], _ => []
  | a :: as, s => (step a s).1 :: trace step as (step a s).2

/-- From related states every input is answered alike and leads to related states. -/
def Simulates (R : σ → τ → Prop) (step : α → σ → β × σ) (step' : α → τ → β × τ) : Prop :=
  ∀ a s t, R s t → (step a s).1 = (step' a t).1 ∧ R (step a s).2 (step' a t).2

theorem Simulates.trace_eq {R : σ → τ → Prop} {step : α → σ → β × σ} {step' : α → τ → β × τ}
    (h : Simulates R step step') : ∀ (inputs : List α) {s : σ} {t : τ}, R s t →
      trace step inputs s = trace step' inputs t
  | [], _, _, _ => rfl
  | a :: as, s, t, hR => by
    obtain ⟨hout, hnext⟩ := h a s t hR
    unfold trace
    rw [hout, h.trace_eq as hnext]

/-! ## Programs -/

/-- The exception a program raises, if it raises one, and the state it leaves. -/
def attempt (x : EStateM ε σ α) (s : σ) : Option ε × σ :=
  match x s with
  | .ok _ s' => (none, s')
  | .error e s' => (some e, s')

/-- Both programs return, or both raise the same exception; the states they leave are related. -/
def Same (R : σ → τ → Prop) (x : EStateM ε σ α) (y : EStateM ε τ β) (s : σ) (t : τ) : Prop :=
  wp x (fun _ s' => wp y (fun _ t' => R s' t') (fun _ _ => False) t)
    (fun e s' => wp y (fun _ _ => False) (fun e' t' => e = e' ∧ R s' t') t) s

theorem Same.attempt {R : σ → τ → Prop} {x : EStateM ε σ α} {y : EStateM ε τ β} {s : σ} {t : τ}
    (h : Same R x y s t) :
    (attempt x s).1 = (attempt y t).1 ∧ R (attempt x s).2 (attempt y t).2 := by
  unfold Same wp at h
  unfold Alike.attempt
  cases hx : x s with
  | ok a s' =>
    rw [hx] at h
    cases hy : y t with
    | ok b t' => rw [hy] at h; exact ⟨rfl, h⟩
    | error e t' => rw [hy] at h; exact h.elim
  | error e s' =>
    rw [hx] at h
    cases hy : y t with
    | ok b t' => rw [hy] at h; exact h.elim
    | error e' t' => rw [hy] at h; exact ⟨congrArg some h.1, h.2⟩

end Alike
