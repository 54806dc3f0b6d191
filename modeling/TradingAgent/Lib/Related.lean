/-
Two runs compared. `Related R V x y` says that from states related by `R` the programs `x` and `y`
return values related by `V`, or throw the same exception, and in both cases end in states related by
`R`. The rules follow the program text, so that a program with itself is compared step by step under a
relation that forgets the part of the state it does not read.
-/
import TradingAgent.Lib.Wp

namespace Wp

variable {ε σ α β γ δ : Type}

/-- Results that correspond: related values, or the same exception, in related states. -/
def Corresponds (R : σ → σ → Prop) (V : α → β → Prop) :
    EStateM.Result ε σ α → EStateM.Result ε σ β → Prop
  | .ok a s, .ok b t => V a b ∧ R s t
  | .error e s, .error e' t => e = e' ∧ R s t
  | .ok .., .error .. => False
  | .error .., .ok .. => False

/-- From related states, `x` and `y` have corresponding results. -/
def Related (R : σ → σ → Prop) (V : α → β → Prop) (x : EStateM ε σ α) (y : EStateM ε σ β) : Prop :=
  ∀ s t, R s t → Corresponds R V (x s) (y t)

variable {R : σ → σ → Prop} {V : α → β → Prop}

/-! ## Results -/

theorem Corresponds.mono {R' : σ → σ → Prop} {V' : α → β → Prop} {r : EStateM.Result ε σ α}
    {r' : EStateM.Result ε σ β} (h : Corresponds R V r r') (hR : ∀ s t, R s t → R' s t)
    (hV : ∀ a b, V a b → V' a b) : Corresponds R' V' r r' := by
  cases r with
  | ok a s =>
    cases r' with
    | ok b t => exact ⟨hV _ _ h.1, hR _ _ h.2⟩
    | error e t => cases h
  | error e s =>
    cases r' with
    | ok b t => cases h
    | error e' t => exact ⟨h.1, hR _ _ h.2⟩

/-- The second of two corresponding runs, given the first. -/
theorem Corresponds.of_ok {s : σ} {a : α} {r' : EStateM.Result ε σ β}
    (h : Corresponds R V (.ok a s) r') : ∃ b t, r' = .ok b t ∧ V a b ∧ R s t := by
  cases r' with
  | ok b t => exact ⟨b, t, rfl, h⟩
  | error e t => cases h

/-! ## Programs -/

theorem related_pure {a : α} {b : β} (h : V a b) :
    Related R V (pure a : EStateM ε σ α) (pure b) := fun _ _ hs => ⟨h, hs⟩

theorem related_throw (e : ε) : Related R V (throw e : EStateM ε σ α) (throw e) := fun _ _ hs => ⟨rfl, hs⟩

theorem related_get : Related R R (get : EStateM ε σ σ) get := fun _ _ hs => ⟨hs, hs⟩

theorem related_modify {f g : σ → σ} (h : ∀ s t, R s t → R (f s) (g t)) :
    Related R (fun _ _ => True) (modify f : EStateM ε σ PUnit) (modify g) := fun s t hs => ⟨trivial, h s t hs⟩

theorem corresponds_bind {W : γ → δ → Prop} {S : σ → σ → Prop} {x : EStateM ε σ α} {y : EStateM ε σ β}
    {f : α → EStateM ε σ γ} {g : β → EStateM ε σ δ} {s t : σ} (hx : Corresponds S V (x s) (y t))
    (herr : ∀ s t, S s t → R s t)
    (hf : ∀ a b, V a b → ∀ s t, S s t → Corresponds R W (f a s) (g b t)) :
    Corresponds R W ((x >>= f) s) ((y >>= g) t) := by
  show Corresponds R W (EStateM.bind x f s) (EStateM.bind y g t)
  unfold EStateM.bind
  cases hr : x s with
  | ok a s' =>
    rw [hr] at hx
    obtain ⟨b, t', hr', hv, ht⟩ := hx.of_ok
    rw [hr']
    exact hf a b hv s' t' ht
  | error e s' =>
    rw [hr] at hx
    cases hr' : y t with
    | ok b t' => rw [hr'] at hx; cases hx
    | error e' t' => rw [hr'] at hx; exact ⟨hx.1, herr _ _ hx.2⟩

theorem related_bind {W : γ → δ → Prop} {x : EStateM ε σ α} {y : EStateM ε σ β}
    {f : α → EStateM ε σ γ} {g : β → EStateM ε σ δ} (hx : Related R V x y)
    (hf : ∀ a b, V a b → Related R W (f a) (g b)) : Related R W (x >>= f) (y >>= g) :=
  fun s t hs => corresponds_bind (hx s t hs) (fun _ _ h => h) (fun a b hv s t hs => hf a b hv s t hs)

theorem related_map {W : γ → δ → Prop} {x : EStateM ε σ α} {y : EStateM ε σ β} {f : α → γ} {g : β → δ}
    (hx : Related R V x y) (h : ∀ a b, V a b → W (f a) (g b)) : Related R W (f <$> x) (g <$> y) := by
  intro s t hs
  have hr := hx s t hs
  show Corresponds R W (EStateM.map f x s) (EStateM.map g y t)
  unfold EStateM.map
  cases hrx : x s with
  | ok a s' =>
    rw [hrx] at hr
    obtain ⟨b, t', hry, hv, ht⟩ := hr.of_ok
    rw [hry]
    exact ⟨h _ _ hv, ht⟩
  | error e s' =>
    cases hry : y t with
    | ok b t' => rw [hrx, hry] at hr; cases hr
    | error e' t' => rw [hrx, hry] at hr; exact hr

theorem corresponds_tryCatch {S : σ → σ → Prop} {x : EStateM ε σ α} {y : EStateM ε σ β}
    {h : ε → EStateM ε σ α} {k : ε → EStateM ε σ β} {s t : σ} (hx : Corresponds S V (x s) (y t))
    (hok : ∀ s t, S s t → R s t) (hh : ∀ e s t, S s t → Corresponds R V (h e s) (k e t)) :
    Corresponds R V (tryCatch x h s) (tryCatch y k t) := by
  show Corresponds R V (EStateM.tryCatch x h s) (EStateM.tryCatch y k t)
  unfold EStateM.tryCatch
  simp only [EStateM.Backtrackable.save, EStateM.Backtrackable.restore]
  cases hrx : x s with
  | ok a s' =>
    rw [hrx] at hx
    obtain ⟨b, t', hry, hv, ht⟩ := hx.of_ok
    rw [hry]
    exact ⟨hv, hok _ _ ht⟩
  | error e s' =>
    cases hry : y t with
    | ok b t' => rw [hrx, hry] at hx; cases hx
    | error e' t' =>
      rw [hrx, hry] at hx
      obtain ⟨rfl, ht⟩ := hx
      exact hh e s' t' ht

theorem related_tryCatch {x : EStateM ε σ α} {y : EStateM ε σ β} {h : ε → EStateM ε σ α}
    {k : ε → EStateM ε σ β} (hx : Related R V x y) (hh : ∀ e, Related R V (h e) (k e)) :
    Related R V (tryCatch x h) (tryCatch y k) :=
  fun s t hs => corresponds_tryCatch (hx s t hs) (fun _ _ h => h) fun e s t h => hh e s t h

theorem related_forM {xs : List γ} {f : γ → EStateM ε σ PUnit} {g : γ → EStateM ε σ PUnit}
    (h : ∀ x ∈ xs, Related R (fun _ _ => True) (f x) (g x)) :
    Related R (fun _ _ => True) (xs.forM f) (xs.forM g) := by
  induction xs with
  | nil => exact related_pure trivial
  | cons x xs ih =>
    simp only [List.forM_eq_forM, List.forM_cons]
    exact related_bind (h x (List.mem_cons_self ..)) fun _ _ _ =>
      ih fun y hy => h y (List.mem_cons_of_mem _ hy)

end Wp
