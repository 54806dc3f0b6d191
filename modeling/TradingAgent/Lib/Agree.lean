/-
Two programs that do the same on the states of interest. `Agree P x y Q` says that from every state
in `P` both end alike, with the same result in the same state, and that a normal end is in `Q`. The
rules compose such facts along the program text; they serve to compare runs of one program over two
environments that differ only where the program does not look.
-/
import TradingAgent.Lib.Wp

namespace Wp

variable {ε σ α β : Type}

/-- From `P`, `x` and `y` end alike, and normally in `Q`. -/
def Agree (P : σ → Prop) (x y : EStateM ε σ α) (Q : α → σ → Prop) : Prop :=
  ∀ s, P s → x s = y s ∧ wp x Q (fun _ _ => True) s

variable {P : σ → Prop} {Q : α → σ → Prop}

theorem agree_rfl {x : EStateM ε σ α} (h : ∀ s, P s → wp x Q (fun _ _ => True) s) : Agree P x x Q :=
  fun s hs => ⟨rfl, h s hs⟩

theorem agree_of_eq {x y : EStateM ε σ α} (heq : x = y)
    (h : ∀ s, P s → wp x Q (fun _ _ => True) s) : Agree P x y Q := heq ▸ agree_rfl h

theorem get_bind_apply (f : σ → EStateM ε σ β) (s : σ) : (get >>= f) s = f s s := rfl

theorem bind_congr_left {x y : EStateM ε σ α} {f : α → EStateM ε σ β} {s : σ} (h : x s = y s) :
    (x >>= f) s = (y >>= f) s := by rw [bind_apply, bind_apply, h]

theorem agree_bind {R : β → σ → Prop} {x y : EStateM ε σ α} {f g : α → EStateM ε σ β}
    (hx : Agree P x y Q) (hf : ∀ a, Agree (Q a) (f a) (g a) R) :
    Agree P (x >>= f) (y >>= g) R := by
  intro s hs
  obtain ⟨heq, hwp⟩ := hx s hs
  rw [bind_apply, bind_apply, ← heq, wp_bind]
  unfold wp at hwp
  cases hr : x s with
  | ok a s' =>
    rw [hr] at hwp
    refine ⟨(hf a s' hwp).1, ?_⟩
    unfold wp; rw [hr]; exact (hf a s' hwp).2
  | error e s' =>
    refine ⟨rfl, ?_⟩
    unfold wp; rw [hr]; trivial

theorem agree_forM {xs : List α} {f g : α → EStateM ε σ PUnit}
    (h : ∀ x ∈ xs, Agree P (f x) (g x) (fun _ => P)) : Agree P (xs.forM f) (xs.forM g) (fun _ => P) := by
  induction xs with
  | nil => exact agree_rfl fun s hs => hs
  | cons x xs ih =>
    simp only [List.forM_eq_forM, List.forM_cons]
    exact agree_bind (h x (List.mem_cons_self ..)) fun _ => ih fun y hy => h y (List.mem_cons_of_mem _ hy)

theorem tryCatch_congr {x y : EStateM ε σ α} {h : ε → EStateM ε σ α} {s : σ} (heq : x s = y s) :
    tryCatch x h s = tryCatch y h s := by
  show EStateM.tryCatch x h s = EStateM.tryCatch y h s
  unfold EStateM.tryCatch
  rw [heq]

theorem map_congr {f : α → β} {x y : EStateM ε σ α} {s : σ} (heq : x s = y s) :
    (f <$> x) s = (f <$> y) s := by
  show EStateM.map f x s = EStateM.map f y s
  unfold EStateM.map
  rw [heq]

end Wp
