/-
Weakest preconditions for programs with state and exceptions. `wp x Q R s` says that `x` started in
`s` returns a value and a state satisfying `Q`, or throws an exception in a state satisfying `R`;
state changes made before an exception stay. The equations compute `wp` along the program text; what a
program keeps is stated with `Keeps`.
-/
import Mathlib.Tactic.Common

namespace Wp

variable {ε σ α β γ : Type}

/-- `x` from `s` ends in `Q`, or throws in `R`. -/
def wp (x : EStateM ε σ α) (Q : α → σ → Prop) (R : ε → σ → Prop) (s : σ) : Prop :=
  match x s with
  | .ok a s' => Q a s'
  | .error e s' => R e s'

instance {x : EStateM ε σ α} {Q : α → σ → Prop} {R : ε → σ → Prop} {s : σ} [∀ a s', Decidable (Q a s')]
    [∀ e s', Decidable (R e s')] : Decidable (wp x Q R s) :=
  match h : x s with
  | .ok a s' => decidable_of_iff (Q a s') (by unfold wp; rw [h])
  | .error e s' => decidable_of_iff (R e s') (by unfold wp; rw [h])

theorem wp_of_ok {x : EStateM ε σ α} {Q : α → σ → Prop} {R : ε → σ → Prop} {s s' : σ} {a : α}
    (h : wp x Q R s) (hx : x s = .ok a s') : Q a s' := by
  unfold wp at h; rw [hx] at h; exact h

theorem wp_of_error {x : EStateM ε σ α} {Q : α → σ → Prop} {R : ε → σ → Prop} {s s' : σ} {e : ε}
    (h : wp x Q R s) (hx : x s = .error e s') : R e s' := by
  unfold wp at h; rw [hx] at h; exact h

/-- A known run ends in its result. -/
theorem wp_eq_of_ok {x : EStateM ε σ α} {Q : α → σ → Prop} {R : ε → σ → Prop} {s s' : σ} {a : α}
    (hx : x s = .ok a s') : wp x Q R s = Q a s' := by
  unfold wp; rw [hx]

theorem wp_eq_of_error {x : EStateM ε σ α} {Q : α → σ → Prop} {R : ε → σ → Prop} {s s' : σ} {e : ε}
    (hx : x s = .error e s') : wp x Q R s = R e s' := by
  unfold wp; rw [hx]

theorem wp_mono {x : EStateM ε σ α} {Q Q' : α → σ → Prop} {R R' : ε → σ → Prop} {s : σ}
    (h : wp x Q R s) (hQ : ∀ a s', Q a s' → Q' a s') (hR : ∀ e s', R e s' → R' e s') :
    wp x Q' R' s := by
  unfold wp at h ⊢
  split at h
  · exact hQ _ _ h
  · exact hR _ _ h

theorem wp_and {x : EStateM ε σ α} {Q Q' : α → σ → Prop} {R R' : ε → σ → Prop} {s : σ}
    (h : wp x Q R s) (h' : wp x Q' R' s) :
    wp x (fun a s' => Q a s' ∧ Q' a s') (fun e s' => R e s' ∧ R' e s') s := by
  unfold wp at h h' ⊢
  split
  · rename_i hx; rw [hx] at h h'; exact ⟨h, h'⟩
  · rename_i hx; rw [hx] at h h'; exact ⟨h, h'⟩

/-- A program ends in the result it has. -/
theorem wp_self (x : EStateM ε σ α) (s : σ) :
    wp x (fun a s' => x s = .ok a s') (fun e s' => x s = .error e s') s := by
  unfold wp; split <;> assumption

theorem wp_true (x : EStateM ε σ α) (s : σ) : wp x (fun _ _ => True) (fun _ _ => True) s := by
  unfold wp; split <;> trivial

theorem bind_apply (x : EStateM ε σ α) (f : α → EStateM ε σ β) (s : σ) :
    (x >>= f) s = match x s with
      | .ok a s' => f a s'
      | .error e s' => .error e s' := by
  show EStateM.bind x f s = _
  unfold EStateM.bind
  cases x s <;> rfl

theorem get_apply (s : σ) : (get : EStateM ε σ σ) s = .ok s s := rfl

/-- A pure computation that may fail returns exactly where its steps do. -/
theorem bind_eq_ok {x : Except ε α} {f : α → Except ε β} {b : β} :
    (x >>= f) = .ok b ↔ ∃ a, x = .ok a ∧ f a = .ok b := by
  cases x with
  | error e => simp [bind, Except.bind]
  | ok a => simp [bind, Except.bind]

theorem exists_bind_iff {x : Except ε α} {f : α → Except ε β} :
    (∃ b, (x >>= f) = .ok b) ↔ ∃ a, x = .ok a ∧ ∃ b, f a = .ok b := by
  constructor
  · rintro ⟨b, hb⟩
    obtain ⟨a, ha, hb⟩ := bind_eq_ok.1 hb
    exact ⟨a, ha, b, hb⟩
  · rintro ⟨a, ha, b, hb⟩
    exact ⟨b, bind_eq_ok.2 ⟨a, ha, hb⟩⟩

/-- A last step that cannot raise. -/
theorem exists_bind_pure_iff {x : Except ε α} {f : α → β} :
    (∃ b, (x >>= fun a => pure (f a)) = .ok b) ↔ ∃ a, x = .ok a := by
  rw [exists_bind_iff]
  constructor
  · rintro ⟨a, ha, -⟩
    exact ⟨a, ha⟩
  · rintro ⟨a, ha⟩
    exact ⟨a, ha, f a, rfl⟩

/-- A list of steps returns exactly where each of them does. -/
theorem mapM_eq_ok_iff {f : α → Except ε β} : ∀ {xs : List α} {ys : List β},
    xs.mapM f = .ok ys ↔ List.Forall₂ (fun x y => f x = .ok y) xs ys
  | [], ys => by
    rw [List.mapM_nil]
    constructor
    · intro h; cases h; exact .nil
    · intro h; cases h; rfl
  | x :: xs, ys => by
    rw [List.mapM_cons, bind_eq_ok]
    constructor
    · rintro ⟨y, hy, h⟩
      obtain ⟨ys', hys, h⟩ := bind_eq_ok.1 h
      cases h
      exact .cons hy (mapM_eq_ok_iff.1 hys)
    · intro h
      cases h with
      | cons hy hys => exact ⟨_, hy, bind_eq_ok.2 ⟨_, mapM_eq_ok_iff.2 hys, rfl⟩⟩

/-- Where each step returns, so does the list. -/
theorem exists_mapM_eq_ok {f : α → Except ε β} : ∀ {xs : List α}, (∀ x ∈ xs, ∃ y, f x = .ok y) →
    ∃ ys, xs.mapM f = .ok ys
  | [], _ => ⟨[], rfl⟩
  | x :: xs, h => by
    obtain ⟨y, hy⟩ := h x (List.mem_cons_self ..)
    obtain ⟨ys, hys⟩ := exists_mapM_eq_ok fun x' hx' => h x' (List.mem_cons_of_mem _ hx')
    exact ⟨y :: ys, mapM_eq_ok_iff.2 (.cons hy (mapM_eq_ok_iff.1 hys))⟩

/-! ## Equations -/

variable {Q : α → σ → Prop} {R : ε → σ → Prop} {s : σ}

@[simp] theorem wp_pure (a : α) : wp (pure a : EStateM ε σ α) Q R s = Q a s := rfl

@[simp] theorem wp_bind {Q : β → σ → Prop} (x : EStateM ε σ α) (f : α → EStateM ε σ β) :
    wp (x >>= f) Q R s = wp x (fun a s' => wp (f a) Q R s') R s := by
  unfold wp
  show (match EStateM.bind x f s with | .ok a s' => Q a s' | .error e s' => R e s') = _
  unfold EStateM.bind
  cases x s <;> rfl

@[simp] theorem wp_map {Q : β → σ → Prop} (f : α → β) (x : EStateM ε σ α) :
    wp (f <$> x) Q R s = wp x (fun a s' => Q (f a) s') R s := by
  unfold wp
  show (match EStateM.map f x s with | .ok a s' => Q a s' | .error e s' => R e s') = _
  unfold EStateM.map
  cases x s <;> rfl

@[simp] theorem wp_throw (e : ε) : wp (throw e : EStateM ε σ α) Q R s = R e s := rfl

@[simp] theorem wp_get {Q : σ → σ → Prop} : wp (get : EStateM ε σ σ) Q R s = Q s s := rfl

@[simp] theorem wp_modify {Q : PUnit → σ → Prop} (f : σ → σ) :
    wp (modify f : EStateM ε σ PUnit) Q R s = Q ⟨⟩ (f s) := rfl

@[simp] theorem wp_modifyGet (f : σ → α × σ) :
    wp (modifyGet f : EStateM ε σ α) Q R s = Q (f s).1 (f s).2 := rfl

@[simp] theorem wp_tryCatch (x : EStateM ε σ α) (h : ε → EStateM ε σ α) :
    wp (tryCatch x h) Q R s = wp x Q (fun e s' => wp (h e) Q R s') s := by
  unfold wp
  show (match EStateM.tryCatch x h s with | .ok a s' => Q a s' | .error e s' => R e s') = _
  unfold EStateM.tryCatch
  simp only [EStateM.Backtrackable.save, EStateM.Backtrackable.restore]
  cases x s <;> rfl

/-- A program whose exceptions are turned into results never raises. -/
theorem wp_catch_pure (x : EStateM ε σ α) (a : ε → α) :
    wp (tryCatch x (fun e => pure (a e))) (fun _ _ => True) (fun _ _ => False) s := by
  rw [wp_tryCatch]
  exact wp_mono (wp_true x s) (fun _ _ h => h) fun _ _ h => h

@[simp] theorem wp_ite (c : Prop) [Decidable c] (x y : EStateM ε σ α) :
    wp (if c then x else y) Q R s = if c then wp x Q R s else wp y Q R s := by split <;> rfl

/-! ## Programs that keep an invariant -/

/-- `x` keeps `I`, also where it throws. -/
def Keeps (I : σ → Prop) (x : EStateM ε σ α) : Prop := ∀ s, I s → wp x (fun _ s' => I s') (fun _ s' => I s') s

variable {I : σ → Prop}

theorem keeps_pure (a : α) : Keeps I (pure a : EStateM ε σ α) := fun _ h => h

theorem keeps_throw (e : ε) : Keeps I (throw e : EStateM ε σ α) := fun _ h => h

theorem keeps_get : Keeps I (get : EStateM ε σ σ) := fun _ h => h

theorem keeps_modify {f : σ → σ} (h : ∀ s, I s → I (f s)) : Keeps I (modify f : EStateM ε σ PUnit) := h

theorem keeps_bind {x : EStateM ε σ α} {f : α → EStateM ε σ β} (hx : Keeps I x)
    (hf : ∀ a, Keeps I (f a)) : Keeps I (x >>= f) := by
  intro s hs
  rw [wp_bind]
  exact wp_mono (hx s hs) (fun a s' h => hf a s' h) (fun _ _ h => h)

theorem keeps_map {x : EStateM ε σ α} (f : α → β) (hx : Keeps I x) : Keeps I (f <$> x) := by
  intro s hs
  rw [wp_map]
  exact hx s hs

theorem keeps_tryCatch {x : EStateM ε σ α} {h : ε → EStateM ε σ α} (hx : Keeps I x)
    (hh : ∀ e, Keeps I (h e)) : Keeps I (tryCatch x h) := by
  intro s hs
  rw [wp_tryCatch]
  exact wp_mono (hx s hs) (fun _ _ h => h) (fun e s' h => hh e s' h)

/-! ## Loops -/

/-- An invariant that the body keeps for every element holds after the loop; `R` collects what holds
where the body throws. -/
theorem wp_forM {I : σ → Prop} {xs : List α} {f : α → EStateM ε σ PUnit} {R : ε → σ → Prop}
    (hstep : ∀ x ∈ xs, ∀ s, I s → wp (f x) (fun _ s' => I s') R s) {s : σ} (hs : I s) :
    wp (xs.forM f) (fun _ s' => I s') R s := by
  induction xs generalizing s with
  | nil => exact hs
  | cons x xs ih =>
    rw [List.forM_eq_forM, List.forM_cons, wp_bind]
    refine wp_mono (hstep x (List.mem_cons_self ..) s hs) (fun _ s' h => ?_) (fun _ _ h => h)
    exact ih (fun y hy => hstep y (List.mem_cons_of_mem _ hy)) h

/-- A loop whose body may use what the loop has done so far. -/
theorem wp_forM_sofar {I : σ → Prop} {xs : List α} {f : α → EStateM ε σ PUnit} {R : ε → σ → Prop} {s₀ : σ}
    (hstep : ∀ done x rest s, xs = done ++ x :: rest → done.forM f s₀ = .ok ⟨⟩ s → I s →
      wp (f x) (fun _ s' => I s') R s) (hs : I s₀) :
    wp (xs.forM f) (fun _ s' => I s') R s₀ := by
  have hfrom : ∀ rest done s, xs = done ++ rest → done.forM f s₀ = .ok ⟨⟩ s → I s →
      wp (rest.forM f) (fun _ s' => I s') R s := by
    intro rest
    induction rest with
    | nil => exact fun _ _ _ _ h => h
    | cons x rest ih =>
      intro done s hxs hdone hI
      rw [List.forM_eq_forM, List.forM_cons, wp_bind]
      refine wp_mono (wp_and (wp_self (f x) s) (hstep done x rest s hxs hdone hI)) (fun _ s' h => ?_)
        fun _ _ h => h.2
      refine ih (done ++ [x]) s' (by rw [hxs, List.append_assoc, List.singleton_append]) ?_ h.2
      have hlast : (done ++ [x]).forM f = done.forM f >>= fun _ => f x := by
        rw [List.forM_eq_forM, List.forM_append, List.forM_cons, List.forM_nil, bind_pure_unit]
      rw [hlast, bind_apply, hdone]
      exact h.1
  exact hfrom xs [] s₀ rfl rfl hs

theorem keeps_forM {xs : List α} {f : α → EStateM ε σ PUnit} (hf : ∀ x ∈ xs, Keeps I (f x)) :
    Keeps I (xs.forM f) := fun _ hs => wp_forM (fun x hx s h => hf x hx s h) hs

/-- Along the run of the steps from a state, every guard holds where its step starts. -/
def Guarded : List ((σ → Prop) × EStateM ε σ PUnit) → σ → Prop
  | [], _ => True
  | (g, x) :: xs, s => g s ∧ ∀ s', x s = .ok ⟨⟩ s' → Guarded xs s'

theorem guarded_of_forall {xs : List ((σ → Prop) × EStateM ε σ PUnit)} (h : ∀ e ∈ xs, ∀ s, e.1 s) (s : σ) :
    Guarded xs s := by
  induction xs generalizing s with
  | nil => trivial
  | cons e xs ih =>
    exact ⟨h e (List.mem_cons_self ..) s, fun s' _ => ih (fun e he => h e (List.mem_cons_of_mem _ he)) s'⟩

/-- Steps that keep the invariant where their guards hold keep it up to every point of a run along
which the guards hold. -/
theorem wp_guarded {R : ε → σ → Prop} {xs : List ((σ → Prop) × EStateM ε σ PUnit)}
    (hstep : ∀ e ∈ xs, ∀ s, I s → e.1 s → wp e.2 (fun _ s' => I s') R s) :
    ∀ {s : σ}, Guarded xs s → I s → ∀ k, wp (((xs.map Prod.snd).take k).forM id) (fun _ s' => I s') R s := by
  induction xs with
  | nil => intro s _ hs k; rw [List.map_nil, List.take_nil]; exact hs
  | cons e xs ih =>
    intro s hg hs k
    cases k with
    | zero => exact hs
    | succ k =>
      obtain ⟨g, x⟩ := e
      rw [List.map_cons, List.take_succ_cons, List.forM_eq_forM, List.forM_cons, wp_bind]
      have hx := hstep (g, x) (List.mem_cons_self ..) s hs hg.1
      unfold wp at hx ⊢
      dsimp only [id] at hx ⊢
      cases hr : x s with
      | ok a s' =>
        rw [hr] at hx
        exact ih (fun e he => hstep e (List.mem_cons_of_mem _ he)) (hg.2 s' hr) hx k
      | error e s' => rw [hr] at hx; exact hx

/-- A pass over a list next to a pure pass over a related one: each step ends as the pure one and gives something
related to the element, exceptions included. -/
theorem wp_mapM_rel {γ δ : Type} {A : α → β → Prop} {B : α → γ → Prop} {I : σ → Prop} {f : β → EStateM ε σ γ}
    {g : α → Except ε δ} (hB : ∀ x p, B x p → ∃ r, g x = .ok r)
    (hstep : ∀ x y s, A x y → I s → wp (f y) (fun p s' => B x p ∧ I s') (fun e _ => g x = .error e) s)
    {xs : List α} {ys : List β} (h : List.Forall₂ A xs ys) : ∀ {s : σ}, I s →
      wp (ys.mapM f) (fun ps s' => List.Forall₂ B xs ps ∧ I s') (fun e _ => xs.mapM g = .error e) s := by
  induction h with
  | nil =>
    intro s hI
    rw [List.mapM_nil, wp_pure]
    exact ⟨.nil, hI⟩
  | @cons x y xs ys hxy _ ih =>
    intro s hI
    rw [List.mapM_cons, wp_bind]
    refine wp_mono (hstep x y s hxy hI) ?_ ?_
    · rintro p s' ⟨hp, hI'⟩
      obtain ⟨r, hr⟩ := hB x p hp
      rw [wp_bind]
      refine wp_mono (ih hI') ?_ ?_
      · rintro ps s'' ⟨hps, hI''⟩
        rw [wp_pure]
        exact ⟨.cons hp hps, hI''⟩
      · intro e s'' he
        rw [List.mapM_cons, hr, he]; rfl
    · intro e s' he
      rw [List.mapM_cons, he]; rfl

/-! ## Programs that return where others do -/

/-- Where `x` returns, `y` returns the same. -/
def Extends (x y : EStateM ε σ α) : Prop := ∀ s a s', x s = .ok a s' → y s = .ok a s'

theorem extends_refl (x : EStateM ε σ α) : Extends x x := fun _ _ _ h => h

theorem extends_throw (e : ε) (y : EStateM ε σ α) : Extends (throw e) y := fun _ _ _ h => by cases h

theorem extends_bind {x y : EStateM ε σ α} {f g : α → EStateM ε σ β} (h : Extends x y) (hf : ∀ a, Extends (f a) (g a)) :
    Extends (x >>= f) (y >>= g) := by
  intro s b s' hrun
  rw [bind_apply] at hrun ⊢
  cases hx : x s with
  | error e s₁ => rw [hx] at hrun; cases hrun
  | ok a s₁ =>
    rw [hx] at hrun
    rw [h s a s₁ hx]
    exact hf a s₁ b s' hrun

theorem extends_mapM {f g : α → EStateM ε σ β} (h : ∀ a, Extends (f a) (g a)) : ∀ xs : List α,
    Extends (xs.mapM f) (xs.mapM g)
  | [] => extends_refl _
  | x :: xs => by
    rw [List.mapM_cons, List.mapM_cons]
    exact extends_bind (h x) fun _ => extends_bind (extends_mapM h xs) fun _ => extends_refl _

end Wp
