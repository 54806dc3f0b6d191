/-
Where a computation that may raise returns. `Returns x P` says that `x` returns exactly where `P` holds, and
`Gives x P a` that it then returns `a`. The rules follow the program text.
-/
import TradingAgent.Lib.Wp

namespace Domain

variable {ε α β : Type} {x y : Except ε α} {f : α → Except ε β} {P Q : Prop} {a : α}

/-- `x` returns exactly where `P` holds. -/
def Returns (x : Except ε α) (P : Prop) : Prop := (∃ a, x = .ok a) ↔ P

/-- `x` returns `a` where `P` holds, and raises elsewhere. -/
structure Gives (x : Except ε α) (P : Prop) (a : α) : Prop where
  ok : P → x = .ok a
  error : ¬ P → ∃ e, x = .error e

theorem Gives.returns (h : Gives x P a) : Returns x P := by
  constructor
  · rintro ⟨b, hb⟩
    by_contra hP
    obtain ⟨e, he⟩ := h.error hP
    rw [he] at hb
    cases hb
  · exact fun hP => ⟨a, h.ok hP⟩

theorem Gives.of_ok (h : x = .ok a) : Gives x True a := ⟨fun _ => h, fun hP => absurd trivial hP⟩

theorem Returns.of_ok (h : x = .ok a) : Returns x True := (Gives.of_ok h).returns

theorem Gives.congr (h : Gives x P a) (hPQ : P ↔ Q) : Gives x Q a := ⟨fun hQ => h.ok (hPQ.2 hQ), fun hQ =>
  h.error (mt hPQ.1 hQ)⟩

theorem Returns.congr (h : Returns x P) (hPQ : P ↔ Q) : Returns x Q := h.trans hPQ

/-! ## Steps -/

theorem Gives.bind {b : β} (hx : Gives x P a) (hf : P → Gives (f a) Q b) : Gives (x >>= f) (P ∧ Q) b := by
  constructor
  · rintro ⟨hP, hQ⟩
    exact Wp.bind_eq_ok.2 ⟨a, hx.ok hP, (hf hP).ok hQ⟩
  · intro h
    by_cases hP : P
    · rw [hx.ok hP]
      exact (hf hP).error fun hQ => h ⟨hP, hQ⟩
    · obtain ⟨e, he⟩ := hx.error hP
      rw [he]
      exact ⟨e, rfl⟩

theorem Gives.bind_returns (hx : Gives x P a) (hf : P → Returns (f a) Q) : Returns (x >>= f) (P ∧ Q) := by
  constructor
  · intro h
    have hP : P := hx.returns.1 (Wp.exists_bind_iff.1 h |>.imp fun _ h => h.1)
    rw [hx.ok hP] at h
    exact ⟨hP, (hf hP).1 h⟩
  · rintro ⟨hP, hQ⟩
    rw [hx.ok hP]
    exact (hf hP).2 hQ

/-- The result of the first step does not matter. -/
theorem Returns.bind (hx : Returns x P) (hf : ∀ a, Returns (f a) Q) : Returns (x >>= f) (P ∧ Q) := by
  constructor
  · intro h
    obtain ⟨a, ha, hb⟩ := Wp.exists_bind_iff.1 h
    exact ⟨hx.1 ⟨a, ha⟩, (hf a).1 hb⟩
  · rintro ⟨hP, hQ⟩
    obtain ⟨a, ha⟩ := hx.2 hP
    obtain ⟨b, hb⟩ := (hf a).2 hQ
    exact ⟨b, Wp.bind_eq_ok.2 ⟨a, ha, hb⟩⟩

/-- A last step that cannot raise. -/
theorem Returns.map (hx : Returns x P) (g : α → β) : Returns (x >>= fun a => pure (g a)) P :=
  Wp.exists_bind_pure_iff.trans hx

theorem Gives.map (hx : Gives x P a) (g : α → β) : Gives (x >>= fun a => pure (g a)) P (g a) :=
  (hx.bind (f := fun a => pure (g a)) fun _ => Gives.of_ok rfl).congr (and_iff_left trivial)

/-- A step that is left out under a condition. -/
theorem Returns.unless {c : Prop} [Decidable c] (hx : ¬ c → Returns x P) :
    Returns (if c then pure a else x) (¬ c → P) := by
  by_cases hc : c
  · rw [if_pos hc]
    exact (Returns.of_ok rfl).congr (iff_of_true trivial fun h => absurd hc h)
  · rw [if_neg hc]
    exact (hx hc).congr (imp_iff_right hc).symm

/-! ## Lists of steps -/

theorem Gives.mapM {g : α → Except ε β} {P : α → Prop} {v : α → β} : ∀ {xs : List α},
    (∀ x ∈ xs, Gives (g x) (P x) (v x)) → Gives (xs.mapM g) (∀ x ∈ xs, P x) (xs.map v)
  | [], _ => (Gives.of_ok rfl).congr ⟨fun _ x hx => absurd hx List.not_mem_nil, fun _ => trivial⟩
  | x :: xs, h => by
    rw [List.mapM_cons, List.map_cons]
    have hrest := Gives.mapM fun y hy => h y (List.mem_cons_of_mem _ hy)
    refine ((h x (List.mem_cons_self ..)).bind fun _ => hrest.map (fun ys => v x :: ys)).congr ?_
    rw [List.forall_mem_cons]

end Domain
