/-
Cooperative tasks. A task runs alone between its `await`s; at each of them the other tasks take any
number of steps before the awaited operation comes about, or fails with an exception, before or after
its effect. A schedule fixes what happens at every await site, so the runs of one program over all
schedules are its runs among all interleavings, as long as the program passes each site at most once.
An invariant that every step of the others keeps can be carried past an `await`.
-/
import TradingAgent.Lib.Wp

namespace Async

open Wp

variable {ε σ α Site Step : Type}

/-- A failure of an awaited operation, before its effect or after it. -/
structure Fault (ε : Type) where
  exn : ε
  applied : Bool := false

/-- What the others do at each await site, and which operations fail. -/
structure Schedule (ε Site Step : Type) where
  steps : Site → List Step
  fault : Site → Option (Fault ε) := fun _ => none

/-- The others take their steps. -/
def runSteps (step : σ → Step → σ) (steps : List Step) (s : σ) : σ := steps.foldl step s

/-- Await an operation: the others take their steps, then it comes about or fails. -/
def await (step : σ → Step → σ) (E : Schedule ε Site Step) (site : Site) (op : EStateM ε σ α) :
    EStateM ε σ α := do
  modify (runSteps step (E.steps site))
  match E.fault site with
  | none => op
  | some f => if f.applied then op >>= fun _ => throw f.exn else throw f.exn

variable {step : σ → Step → σ} {E : Schedule ε Site Step} {site : Site} {I : σ → Prop}

theorem runSteps_keeps {steps : List Step} (hI : ∀ e ∈ steps, ∀ s, I s → I (step s e)) {s : σ} (hs : I s) :
    I (runSteps step steps s) := by
  induction steps generalizing s with
  | nil => exact hs
  | cons e es ih =>
    refine ih (fun e he => hI e (List.mem_cons_of_mem _ he)) (hI e (List.mem_cons_self ..) s hs)

theorem wp_await {op : EStateM ε σ α} {Q : α → σ → Prop} {R : ε → σ → Prop} {s : σ} :
    wp (await step E site op) Q R s ↔
      (E.fault site = none → wp op Q R (runSteps step (E.steps site) s)) ∧
      ∀ f, E.fault site = some f →
        if f.applied then wp op (fun _ => R f.exn) R (runSteps step (E.steps site) s)
        else R f.exn (runSteps step (E.steps site) s) := by
  unfold await
  rw [wp_bind, wp_modify]
  cases hf : E.fault site with
  | none => simp
  | some f =>
    cases ha : f.applied <;> simp [ha]

/-- Past an `await`: the invariant holds where the operation starts, and after a failure the
exception is raised there or after the operation. -/
theorem wp_await_of {op : EStateM ε σ α} {Q : α → σ → Prop} {R : ε → σ → Prop} {s : σ}
    (hI : ∀ e ∈ E.steps site, ∀ s, I s → I (step s e)) (hs : I s)
    (hop : ∀ s', I s' → E.fault site = none → wp op Q R s')
    (hfault : ∀ f s', I s' → E.fault site = some f → R f.exn s' ∧ wp op (fun _ => R f.exn) R s') :
    wp (await step E site op) Q R s := by
  have hs' := runSteps_keeps hI hs
  refine wp_await.2 ⟨fun h => hop _ hs' h, fun f hf => ?_⟩
  split
  · exact (hfault f _ hs' hf).2
  · exact (hfault f _ hs' hf).1

theorem keeps_await {op : EStateM ε σ α} (hI : ∀ e ∈ E.steps site, ∀ s, I s → I (step s e))
    (hop : Keeps I op) : Keeps I (await step E site op) := fun _ hs =>
  wp_await_of hI hs (fun _ hs' _ => hop _ hs') fun _ _ hs' _ => ⟨hs', hop _ hs'⟩

/-! ## Runs along a condition -/

/-- Along the run of the steps, each of them meets a condition in the state it starts from. -/
def Along (step : σ → Step → σ) (meets : σ → Step → Prop) : List Step → σ → Prop
  | [], _ => True
  | e :: es, s => meets s e ∧ Along step meets es (step s e)

instance decidableAlong {meets : σ → Step → Prop} [∀ s e, Decidable (meets s e)] :
    ∀ (steps : List Step) (s : σ), Decidable (Along step meets steps s)
  | [], _ => .isTrue trivial
  | e :: es, s => @instDecidableAnd _ _ _ (decidableAlong es (step s e))

/-- An invariant that the steps keep where they meet the condition holds at every point of such a run. -/
theorem along_keeps {meets : σ → Step → Prop} (hstep : ∀ s e, I s → meets s e → I (step s e)) :
    ∀ {steps : List Step} {s : σ}, Along step meets steps s → I s → ∀ k, I (runSteps step (steps.take k) s)
  | [], _, _, hs, k => by rw [List.take_nil]; exact hs
  | _ :: _, _, _, hs, 0 => hs
  | e :: _, s, h, hs, k + 1 => along_keeps hstep h.2 (hstep s e hs h.1) k

/-- A condition that the steps meet in every state is met along every run of them. -/
theorem along_of_forall {meets : σ → Step → Prop} :
    ∀ {steps : List Step} (s : σ), (∀ e ∈ steps, ∀ s, meets s e) → Along step meets steps s
  | [], _, _ => trivial
  | e :: _, s, h => ⟨h e List.mem_cons_self s, along_of_forall _ fun e' he' => h e' (List.mem_cons_of_mem e he')⟩

/-- Where the steps that meet the condition keep an invariant and have a property, every step of such a run has
it. -/
theorem Along.imp {meets holds : σ → Step → Prop} (hstep : ∀ s e, I s → meets s e → I (step s e) ∧ holds s e) :
    ∀ {steps : List Step} {s : σ}, Along step meets steps s → I s → Along step holds steps s
  | [], _, _, _ => trivial
  | e :: _, s, h, hs => ⟨(hstep s e hs h.1).2, Along.imp hstep h.2 (hstep s e hs h.1).1⟩

/-- What the first steps of a run leave of it is such a run too. -/
theorem Along.drop {meets : σ → Step → Prop} :
    ∀ {steps : List Step} {s : σ}, Along step meets steps s → ∀ k,
      Along step meets (steps.drop k) (runSteps step (steps.take k) s)
  | [], _, h, k => by rw [List.drop_nil, List.take_nil]; exact h
  | _ :: _, _, h, 0 => h
  | _ :: _, _, h, k + 1 => Along.drop h.2 k

/-- A run through a point of it. -/
theorem runSteps_take_of_le {steps : List Step} {s : σ} {k m : ℕ} (h : k ≤ m) :
    runSteps step (steps.take m) s =
      runSteps step ((steps.drop k).take (m - k)) (runSteps step (steps.take k) s) := by
  obtain ⟨n, rfl⟩ := Nat.exists_eq_add_of_le h
  unfold runSteps
  rw [Nat.add_sub_cancel_left, List.take_add, List.foldl_append]

/-- A run goes on with one more step. -/
theorem runSteps_snoc (es : List Step) (e : Step) (s : σ) :
    runSteps step (es ++ [e]) s = step (runSteps step es s) e := by
  unfold runSteps
  rw [List.foldl_append]
  rfl

theorem runSteps_take_succ {steps : List Step} {k : ℕ} {e : Step} (h : steps[k]? = some e) (s : σ) :
    runSteps step (steps.take (k + 1)) s = step (runSteps step (steps.take k) s) e := by
  rw [List.take_add_one, h]
  exact runSteps_snoc _ _ _

/-- The condition is met along a run if every step meets it where the steps before have led. -/
theorem along_iff {meets : σ → Step → Prop} : ∀ {steps : List Step} {s : σ},
    Along step meets steps s ↔ ∀ k e, steps[k]? = some e → meets (runSteps step (steps.take k) s) e
  | [], _ => by
    refine iff_of_true trivial fun k e h => ?_
    rw [List.getElem?_nil] at h
    cases h
  | first :: steps, s => by
    have ih : Along step meets steps (step s first) ↔ _ := along_iff
    unfold Along
    rw [ih]
    constructor
    · rintro ⟨hfirst, hrest⟩ k e h
      cases k with
      | zero =>
        cases h
        exact hfirst
      | succ k => exact hrest k e h
    · exact fun h => ⟨h 0 first rfl, fun k e hk => h (k + 1) e hk⟩

end Async
