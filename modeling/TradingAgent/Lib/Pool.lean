/-
Tasks side by side. A task runs alone between its awaits, so an event takes one task one step further; other
events start a task, or change what the tasks share from outside. An invariant of the shared state and of every
task holds after each run if a step keeps it of the task that takes it and of the others.

Where each place of the shared state belongs to the task that made it, the others are no concern: a task changes
its own places only, no two tasks come to share one, and every place that is there belongs to a task.
-/
import TradingAgent.Lib.Async

namespace Pool

variable {σ τ α ε χ κ ρ : Type}

/-- How tasks start, what happens to the shared state from outside, and how a task takes a step. -/
structure System (σ τ α ε χ : Type) where
  start : α → σ → Option τ
  env : ε → σ → σ
  step : χ → σ → τ → σ × τ

/-- The tasks that were started, in their order, and what they share. -/
structure State (σ τ : Type) where
  shared : σ
  tasks : List τ := []

inductive Event (α ε χ : Type)
  | start (a : α)
  | env (e : ε)
  | step (i : ℕ) (choice : χ)

namespace System

variable (P : System σ τ α ε χ)

def event (p : State σ τ) : Event α ε χ → State σ τ
  | .start a =>
    match P.start a p.shared with
    | none => p
    | some t => { p with tasks := p.tasks ++ [t] }
  | .env e => { p with shared := P.env e p.shared }
  | .step i choice =>
    match p.tasks[i]? with
    | none => p
    | some t => ⟨(P.step choice p.shared t).1, p.tasks.set i (P.step choice p.shared t).2⟩

def run (events : List (Event α ε χ)) (p : State σ τ) : State σ τ := Async.runSteps P.event events p

/-- What an event does. -/
inductive Move (p : State σ τ) : State σ τ → Prop
  | idle : Move p p
  | start (a : α) (t : τ) (h : P.start a p.shared = some t) : Move p { p with tasks := p.tasks ++ [t] }
  | env (e : ε) : Move p { p with shared := P.env e p.shared }
  | step (i : ℕ) (choice : χ) (t : τ) (h : p.tasks[i]? = some t) :
    Move p ⟨(P.step choice p.shared t).1, p.tasks.set i (P.step choice p.shared t).2⟩

theorem event_move (p : State σ τ) (e : Event α ε χ) : P.Move p (P.event p e) := by
  cases e with
  | start a =>
    unfold event
    dsimp only
    split
    · exact .idle
    · rename_i t h
      exact .start a t h
  | env e => exact .env e
  | step i choice =>
    unfold event
    dsimp only
    split
    · exact .idle
    · rename_i t h
      exact .step i choice t h

end System

variable {P : System σ τ α ε χ} {p : State σ τ}

/-- A property that events keep holds after every run. -/
theorem run_keeps {J : State σ τ → Prop} (hevent : ∀ p p', J p → P.Move p p' → J p') (h : J p)
    (events : List (Event α ε χ)) : J (P.run events p) :=
  Async.runSteps_keeps (fun e _ p hp => hevent p _ hp (P.event_move p e)) h

/-- The task at a place of the list after a step of another one, or of its own. -/
theorem getElem?_set_cases {tasks : List τ} {i j : ℕ} {t u : τ} (h : (tasks.set i t)[j]? = some u) :
    (j = i ∧ u = t) ∨ (j ≠ i ∧ tasks[j]? = some u) := by
  rw [List.getElem?_set] at h
  split at h
  · rename_i hij
    split at h
    · cases h
      exact .inl ⟨hij.symm, rfl⟩
    · cases h
  · rename_i hij
    exact .inr ⟨Ne.symm hij, h⟩

theorem getElem?_append_cases {tasks : List τ} {j : ℕ} {t u : τ} (h : (tasks ++ [t])[j]? = some u) :
    tasks[j]? = some u ∨ (j = tasks.length ∧ u = t) := by
  rw [List.getElem?_append] at h
  split at h
  · exact .inl h
  · rename_i hlt
    right
    rw [List.getElem?_singleton] at h
    split at h
    · cases h
      exact ⟨by omega, rfl⟩
    · cases h

/-! ## Invariants -/

/-- An invariant of the shared state, one of the tasks, and one of any two tasks, kept by the task that takes a step
and by the others. -/
structure Invariant (P : System σ τ α ε χ) (S : σ → Prop) (I : σ → τ → Prop) (D : τ → τ → Prop) : Prop where
  start : ∀ a s t, S s → P.start a s = some t → I s t ∧ ∀ u, I s u → D t u ∧ D u t
  env : ∀ e s, S s → S (P.env e s) ∧ ∀ t, I s t → I (P.env e s) t
  step : ∀ c s t, S s → I s t → S (P.step c s t).1 ∧ I (P.step c s t).1 (P.step c s t).2
  others : ∀ c s t u, S s → I s t → I s u → D t u → D u t →
    I (P.step c s t).1 u ∧ D (P.step c s t).2 u ∧ D u (P.step c s t).2

/-- The invariants hold of the shared state, of every task and of any two tasks. -/
structure Holds (S : σ → Prop) (I : σ → τ → Prop) (D : τ → τ → Prop) (p : State σ τ) : Prop where
  shared : S p.shared
  tasks : ∀ (i : ℕ) (t : τ), p.tasks[i]? = some t → I p.shared t
  apart : ∀ (i j : ℕ) (t u : τ), p.tasks[i]? = some t → p.tasks[j]? = some u → i ≠ j → D t u

theorem holds_nil {S : σ → Prop} {I : σ → τ → Prop} {D : τ → τ → Prop} {s : σ} (h : S s) :
    Holds S I D (⟨s, []⟩ : State σ τ) := by
  refine ⟨h, fun i t ht => ?_, fun i j t u ht => ?_⟩
  · rw [List.getElem?_nil] at ht
    cases ht
  · rw [List.getElem?_nil] at ht
    cases ht

namespace Invariant

variable {S : σ → Prop} {I : σ → τ → Prop} {D : τ → τ → Prop}

theorem move (inv : Invariant P S I D) (p p' : State σ τ) (h : Holds S I D p) (hmove : P.Move p p') :
    Holds S I D p' := by
  cases hmove with
  | idle => exact h
  | start a t hstart =>
    obtain ⟨ht, hapart⟩ := inv.start a _ _ h.shared hstart
    refine ⟨h.shared, fun j u hu => ?_, fun i j u v hu hv hij => ?_⟩
    · rcases getElem?_append_cases hu with hu | ⟨-, rfl⟩
      · exact h.tasks j u hu
      · exact ht
    · rcases getElem?_append_cases hu with hu' | ⟨hi, rfl⟩
      · rcases getElem?_append_cases hv with hv | ⟨-, rfl⟩
        · exact h.apart i j u v hu' hv hij
        · exact (hapart u (h.tasks i u hu')).2
      · rcases getElem?_append_cases hv with hv | ⟨hj, -⟩
        · exact (hapart v (h.tasks j v hv)).1
        · exact absurd (hi.trans hj.symm) hij
  | env e =>
    obtain ⟨hshared, htasks⟩ := inv.env e _ h.shared
    exact ⟨hshared, fun j u hu => htasks u (h.tasks j u hu), h.apart⟩
  | step i choice t ht =>
    have hI := h.tasks i t ht
    obtain ⟨hshared, htask⟩ := inv.step choice _ t h.shared hI
    have hothers : ∀ j u, j ≠ i → p.tasks[j]? = some u → I (P.step choice p.shared t).1 u ∧
        D (P.step choice p.shared t).2 u ∧ D u (P.step choice p.shared t).2 := fun j u hji hu =>
      inv.others choice _ t u h.shared hI (h.tasks j u hu) (h.apart i j t u ht hu (Ne.symm hji))
        (h.apart j i u t hu ht hji)
    refine ⟨hshared, fun j u hu => ?_, fun j k u v hu hv hjk => ?_⟩
    · rcases getElem?_set_cases hu with ⟨-, rfl⟩ | ⟨hji, hu'⟩
      · exact htask
      · exact (hothers j u hji hu').1
    · rcases getElem?_set_cases hu with ⟨hj, rfl⟩ | ⟨hji, hu'⟩
      · rcases getElem?_set_cases hv with ⟨hk, -⟩ | ⟨hki, hv'⟩
        · exact absurd (hj.trans hk.symm) hjk
        · exact (hothers k v hki hv').2.1
      · rcases getElem?_set_cases hv with ⟨-, rfl⟩ | ⟨-, hv'⟩
        · exact (hothers j u hji hu').2.2
        · exact h.apart j k u v hu' hv' hjk

/-- The invariants hold after every run. -/
theorem run (inv : Invariant P S I D) (h : Holds S I D p) (events : List (Event α ε χ)) :
    Holds S I D (P.run events p) :=
  run_keeps inv.move h events

end Invariant

/-! ## What the tasks add -/

/-- A list in the shared state to which the tasks add. -/
structure Collects (P : System σ τ α ε χ) (S : σ → Prop) (I : σ → τ → Prop) (collected : σ → List κ)
    (added : τ → List κ) : Prop where
  start : ∀ a s t, P.start a s = some t → added t = []
  env : ∀ e s, collected (P.env e s) = collected s
  step : ∀ c s t, S s → I s t →
    ∃ new, collected (P.step c s t).1 = collected s ++ new ∧ added (P.step c s t).2 = added t ++ new

/-- The shared list has what the tasks added, up to its order. -/
theorem Collects.run {S : σ → Prop} {I : σ → τ → Prop} {D : τ → τ → Prop} {collected : σ → List κ}
    {added : τ → List κ} (h : Collects P S I collected added) (inv : Invariant P S I D) (hp : Holds S I D p)
    (hperm : (collected p.shared).Perm (p.tasks.flatMap added)) (events : List (Event α ε χ)) :
    (collected (P.run events p).shared).Perm ((P.run events p).tasks.flatMap added) := by
  let J (p : State σ τ) : Prop := Holds S I D p ∧ (collected p.shared).Perm (p.tasks.flatMap added)
  refine (@run_keeps _ _ _ _ _ P p J (fun p p' hp hmove => ⟨inv.move p p' hp.1 hmove, ?_⟩) ⟨hp, hperm⟩ events).2
  obtain ⟨hholds, hp⟩ := hp
  cases hmove with
  | idle => exact hp
  | start a t hstart =>
    rw [List.flatMap_append, List.flatMap_singleton, h.start a _ t hstart, List.append_nil]
    exact hp
  | env e =>
    rw [h.env]
    exact hp
  | step i choice t ht =>
    obtain ⟨new, hcollected, hadded⟩ := h.step choice p.shared t hholds.shared (hholds.tasks i t ht)
    obtain ⟨hlt, hget⟩ := List.getElem?_eq_some_iff.1 ht
    -- the task at its place, before the step and after it
    have hsplit : p.tasks = p.tasks.take i ++ t :: p.tasks.drop (i + 1) := by
      rw [← hget, List.getElem_cons_drop, List.take_append_drop]
    rw [hsplit, List.flatMap_append, List.flatMap_cons] at hp
    rw [List.set_eq_take_append_cons_drop, if_pos hlt, List.flatMap_append, List.flatMap_cons, hcollected, hadded,
      List.append_assoc, ← List.append_assoc]
    refine (hp.append_right new).trans ?_
    rw [List.append_assoc, List.append_assoc, List.append_assoc]
    exact (List.perm_append_comm.append_left _).append_left _

/-! ## What the tasks write -/

/-- What a place holds after a step it held before, or the task that took the step has written it. -/
structure Written (P : System σ τ α ε χ) (S : σ → Prop) (I : σ → τ → Prop) (look : σ → κ → Option ρ)
    (W : τ → κ → ρ → Prop) : Prop where
  env : ∀ e s k, look (P.env e s) k = look s k
  keeps : ∀ c s t k r, S s → I s t → W t k r → W (P.step c s t).2 k r
  step : ∀ c s t k r, S s → I s t → look (P.step c s t).1 k = some r → look s k = some r ∨ W (P.step c s t).2 k r

/-- Of places that are empty at first each holds what some task has written. -/
theorem Written.run {S : σ → Prop} {I : σ → τ → Prop} {D : τ → τ → Prop} {look : σ → κ → Option ρ}
    {W : τ → κ → ρ → Prop} (written : Written P S I look W) (inv : Invariant P S I D) (h : Holds S I D p)
    (hnone : ∀ k, look p.shared k = none) (events : List (Event α ε χ)) (k : κ) (r : ρ)
    (hr : look (P.run events p).shared k = some r) : ∃ t ∈ (P.run events p).tasks, W t k r := by
  let J (p : State σ τ) : Prop := Holds S I D p ∧ ∀ k r, look p.shared k = some r → ∃ t ∈ p.tasks, W t k r
  have hstart : J p := ⟨h, fun k r hr => by rw [hnone] at hr; cases hr⟩
  refine (@run_keeps _ _ _ _ _ P p J (fun p p' hp hmove => ⟨inv.move p p' hp.1 hmove, fun k r hr => ?_⟩) hstart
    events).2 k r hr
  obtain ⟨hp, hwritten⟩ := hp
  cases hmove with
  | idle => exact hwritten k r hr
  | start a t hstart =>
    obtain ⟨u, hu, hw⟩ := hwritten k r hr
    exact ⟨u, List.mem_append_left _ hu, hw⟩
  | env e =>
    rw [written.env] at hr
    exact hwritten k r hr
  | step i choice t ht =>
    have hlt := (List.getElem?_eq_some_iff.1 ht).1
    have hself : (P.step choice p.shared t).2 ∈ p.tasks.set i (P.step choice p.shared t).2 :=
      List.mem_of_getElem? (List.getElem?_set_self hlt)
    rcases written.step choice _ t k r hp.shared (hp.tasks i t ht) hr with hold | hnew
    · obtain ⟨u, hu, hw⟩ := hwritten k r hold
      obtain ⟨j, hj⟩ := List.getElem?_of_mem hu
      by_cases hji : j = i
      · rw [hji, ht] at hj
        cases hj
        exact ⟨_, hself, written.keeps choice _ t k r hp.shared (hp.tasks i t ht) hw⟩
      · exact ⟨u, List.mem_of_getElem? ((List.getElem?_set_ne (Ne.symm hji)).trans hj), hw⟩
    · exact ⟨_, hself, hnew⟩

/-! ## Places of their own -/

/-- Each place belongs to the task that made it: only a task changes its places, and what holds of a task is up to
its places. -/
structure Ownership (P : System σ τ α ε χ) (look : σ → κ → Option ρ) (Owns : τ → κ → Prop) (I : σ → τ → Prop) :
    Prop where
  start : ∀ a s t, P.start a s = some t → I s t ∧ ∀ k, ¬ Owns t k
  env : ∀ e s k, look (P.env e s) k = look s k
  present : ∀ s t k, I s t → Owns t k → look s k ≠ none
  step : ∀ c s t, I s t → I (P.step c s t).1 (P.step c s t).2
  keeps : ∀ c s t k, I s t → Owns t k → Owns (P.step c s t).2 k
  takes : ∀ c s t k, I s t → Owns (P.step c s t).2 k → Owns t k ∨ look s k = none
  frame : ∀ c s t k, I s t → ¬ Owns (P.step c s t).2 k → look (P.step c s t).1 k = look s k
  congr : ∀ s s' t, (∀ k, Owns t k → look s' k = look s k) → I s t → I s' t

/-- Every place belongs to one task. -/
structure Owned (look : σ → κ → Option ρ) (Owns : τ → κ → Prop) (I : σ → τ → Prop) (p : State σ τ) : Prop where
  tasks : ∀ (i : ℕ) (t : τ), p.tasks[i]? = some t → I p.shared t
  apart : ∀ (i j : ℕ) (t u : τ) (k : κ), p.tasks[i]? = some t → p.tasks[j]? = some u → Owns t k → Owns u k → i = j
  covered : ∀ k, look p.shared k ≠ none → ∃ (i : ℕ) (t : τ), p.tasks[i]? = some t ∧ Owns t k

theorem owned_nil {look : σ → κ → Option ρ} {Owns : τ → κ → Prop} {I : σ → τ → Prop} {s : σ}
    (h : ∀ k, look s k = none) : Owned look Owns I (⟨s, []⟩ : State σ τ) := by
  constructor
  · intro i t ht
    rw [List.getElem?_nil] at ht
    cases ht
  · intro i j t u k ht
    rw [List.getElem?_nil] at ht
    cases ht
  · exact fun k hk => absurd (h k) hk

namespace Ownership

variable {look : σ → κ → Option ρ} {Owns : τ → κ → Prop} {I : σ → τ → Prop}

theorem move (own : Ownership P look Owns I) (p p' : State σ τ) (h : Owned look Owns I p) (hmove : P.Move p p') :
    Owned look Owns I p' := by
  cases hmove with
  | idle => exact h
  | start a t hstart =>
    obtain ⟨ht, hnone⟩ := own.start a _ t hstart
    refine ⟨fun j u hu => ?_, fun i j u v k hu hv hk hk' => ?_, fun k hk => ?_⟩
    · rcases getElem?_append_cases hu with hu | ⟨-, rfl⟩
      · exact h.tasks j u hu
      · exact ht
    · rcases getElem?_append_cases hu with hu | ⟨-, rfl⟩
      · rcases getElem?_append_cases hv with hv | ⟨-, rfl⟩
        · exact h.apart i j u v k hu hv hk hk'
        · exact absurd hk' (hnone k)
      · exact absurd hk (hnone k)
    · obtain ⟨i, u, hu, hk⟩ := h.covered k hk
      refine ⟨i, u, ?_, hk⟩
      rw [List.getElem?_append_left (List.getElem?_eq_some_iff.1 hu).1]
      exact hu
  | env e =>
    refine ⟨fun j u hu => ?_, h.apart, fun k hk => ?_⟩
    · exact own.congr _ _ u (fun k _ => own.env e _ k) (h.tasks j u hu)
    · rw [own.env] at hk
      exact h.covered k hk
  | step i choice t ht =>
    have hI := h.tasks i t ht
    -- a place of another task is no place of this one, before the step or after it
    have hother : ∀ j u k, j ≠ i → p.tasks[j]? = some u → Owns u k → ¬ Owns (P.step choice p.shared t).2 k := by
      intro j u k hji hu hk hk'
      rcases own.takes choice _ t k hI hk' with hold | hnew
      · exact hji (h.apart j i u t k hu ht hk hold)
      · exact own.present _ u k (h.tasks j u hu) hk hnew
    refine ⟨fun j u hu => ?_, fun j j' u v k hu hv hk hk' => ?_, fun k hk => ?_⟩
    · rcases getElem?_set_cases hu with ⟨-, rfl⟩ | ⟨hji, hu⟩
      · exact own.step choice _ t hI
      · refine own.congr _ _ u (fun k hk => ?_) (h.tasks j u hu)
        exact own.frame choice _ t k hI (hother j u k hji hu hk)
    · rcases getElem?_set_cases hu with ⟨rfl, rfl⟩ | ⟨hji, hu'⟩
      · rcases getElem?_set_cases hv with ⟨rfl, -⟩ | ⟨hji', hv⟩
        · rfl
        · exact absurd hk (hother j' v k hji' hv hk')
      · rcases getElem?_set_cases hv with ⟨-, hv⟩ | ⟨-, hv⟩
        · exact absurd (hv ▸ hk') (hother j u k hji hu' hk)
        · exact h.apart j j' u v k hu' hv hk hk'
    · have hlt := (List.getElem?_eq_some_iff.1 ht).1
      by_cases hmine : Owns (P.step choice p.shared t).2 k
      · exact ⟨i, _, List.getElem?_set_self hlt, hmine⟩
      · rw [own.frame choice _ t k hI hmine] at hk
        obtain ⟨j, u, hu, hk⟩ := h.covered k hk
        have hji : j ≠ i := by
          rintro rfl
          rw [ht] at hu
          cases hu
          exact hmine (own.keeps choice _ t k hI hk)
        exact ⟨j, u, (List.getElem?_set_ne (Ne.symm hji)).trans hu, hk⟩

/-- After every run each place belongs to one task. -/
theorem run (own : Ownership P look Owns I) (h : Owned look Owns I p) (events : List (Event α ε χ)) :
    Owned look Owns I (P.run events p) :=
  run_keeps own.move h events

end Ownership

end Pool
