/-
The exit service: a batch of exit signals is sorted by urgency, and each signal is matched to an open
position by its symbol. What is due today goes to the executor, the rest is only reported.
-/
import TradingAgent.Execution.Executor
import Mathlib.Data.List.Sort

namespace TradingAgent

open Execution (M)
open OrderExecutor (ExitArgs)

/-! ## The environment of a job -/

/-- The await sites of the stop-loss job outside the executor. -/
inductive JobSite
  | getOpen | getPrice (i : ℕ) | recordDecision (i : ℕ) | sendMessage (i : ℕ)
  deriving DecidableEq

/-- The order in which the database holds the rows of a table. -/
structure RowOrder where
  order : List PositionRecord → List PositionRecord
  perm : ∀ rows, (order rows).Perm rows

/-- The rows stand as they were inserted. -/
def RowOrder.inserted : RowOrder := ⟨id, fun _ => .refl _⟩

/-- The environment of one run of the job: what happens at its await sites, and what the calls outside
return. Positions and signals are numbered in the order in which the run goes through them. -/
structure JobEnv extends Async.Schedule Exn JobSite Step where
  price : ℕ → Decimal
  /-- the environment in which the executor runs the exit of a signal -/
  exits : ℕ → Env
  decisionId : ℕ → ℕ := id
  today : ℤ := 0
  str : Exn → String
  rowOrder : RowOrder := .inserted

/-- Await a call of the job at a site. -/
def JobEnv.await {α : Type} (env : JobEnv) (site : JobSite) (op : M α) : M α :=
  Async.await World.step env.toSchedule site op

/-- Programs of the job. Beside the world they carry the calls of `executeExit` so far. -/
abbrev JobM := StateT (List ExitArgs) M

/-! ## The service -/

namespace ExitExecutionService

/-- The place of an urgency in the batch; an unknown one comes last. -/
def urgencyOrder (urgency : String) : ℕ :=
  if urgency = "immediate" then 0
  else if urgency = "end_of_day" then 1
  else if urgency = "next_session" then 2
  else 99

/-- Sort by urgency; signals of one urgency keep their order. -/
def sortSignals (exitSignals : List ExitSignal) : List ExitSignal :=
  exitSignals.insertionSort (fun a b => urgencyOrder a.urgency ≤ urgencyOrder b.urgency)

/-- The first open position under the symbol of the signal. -/
def matchSignalToPosition (signal : ExitSignal) (positions : List PositionRecord) : Option PositionRecord :=
  positions.find? (fun pos => pos.symbol = signal.symbol ∧ pos.status = "open")

/-- The signal is executed today. -/
def DueToday (signal : ExitSignal) : Prop := signal.urgency = "immediate" ∨ signal.urgency = "end_of_day"

instance (signal : ExitSignal) : Decidable (DueToday signal) := by unfold DueToday; infer_instance

/-- Run the exit; an exception of the executor ends it with a failed result. -/
def executeSignal (env : Env) (exit : ExitArgs) : JobM ExecutionResult := do
  modify (· ++ [exit])
  (tryCatch (OrderExecutor.executeExit env exit) (fun e => pure
    { success := false, symbol := exit.exitSignal.symbol, side := .sell, quantity := exit.position.quantity
      approvalStatus := .autoApproved, error := "실행 중 예외: " ++ env.str e }) : M ExecutionResult)

variable (env : JobEnv)

/-- A signal for the next session is recorded and reported, and nothing is sold. -/
def handleNextSessionSignal (i : ℕ) (signal : ExitSignal) (position : PositionRecord) : M ExecutionResult := do
  let did ← tryCatch (some <$> env.await (.recordDecision i) (pure (env.decisionId i))) (fun _ => pure none)
  tryCatch (env.await (.sendMessage i) (pure ⟨⟩)) (fun _ => pure ⟨⟩)
  pure { success := false, symbol := signal.symbol, side := .sell, quantity := position.quantity
         approvalStatus := .autoApproved, decisionIds := did.toList
         error := "next_session: 알림 전송만 실행 (자동 체결 없음)" }

/-- Handle a signal that has found its position. -/
def handleSignal (accountId : String) (i : ℕ) (signal : ExitSignal) (position : PositionRecord) :
    JobM ExecutionResult :=
  if DueToday signal then executeSignal (env.exits i) { exitSignal := signal, position, accountId }
  else handleNextSessionSignal env i signal position

/-- The loop over the sorted signals, from the `i`-th on. A signal without a position is skipped. -/
def processSorted (positions : List PositionRecord) (accountId : String) :
    ℕ → List ExitSignal → JobM (List ExecutionResult)
  | _, [] => pure []
  | i, signal :: signals =>
    match matchSignalToPosition signal positions with
    | none => processSorted positions accountId (i + 1) signals
    | some position => do
      let result ← handleSignal env accountId i signal position
      let results ← processSorted positions accountId (i + 1) signals
      pure (result :: results)

/-- Work off a batch of exit signals in the order of their urgency. -/
def processExitSignals (exitSignals : List ExitSignal) (positions : List PositionRecord) (accountId : String) :
    JobM (List ExecutionResult) :=
  if exitSignals.isEmpty then pure []
  else processSorted env positions accountId 0 (sortSignals exitSignals)

end ExitExecutionService

/-! ## The calls of a program -/

/-- The program returns, and on the way makes the calls `l`, whatever happens outside. -/
def Calls {α : Type} (x : JobM α) (l : List ExitArgs) (Q : α → Prop) : Prop :=
  ∀ calls w, ∃ a w', x.run calls w = .ok (a, calls ++ l) w' ∧ Q a

section Calls

variable {α β : Type} {l m : List ExitArgs} {P : α → Prop} {Q : β → Prop}

theorem calls_pure {a : α} (h : P a) : Calls (pure a) [] P := fun calls w =>
  ⟨a, w, by rw [List.append_nil]; rfl, h⟩

theorem calls_bind {x : JobM α} {f : α → JobM β} (hx : Calls x l P) (hf : ∀ a, P a → Calls (f a) m Q) :
    Calls (x >>= f) (l ++ m) Q := by
  intro calls w
  obtain ⟨a, w₁, hrun, ha⟩ := hx calls w
  obtain ⟨b, w₂, hrun', hb⟩ := hf a ha (calls ++ l) w₁
  refine ⟨b, w₂, ?_, hb⟩
  rw [StateT.run_bind, Wp.bind_apply, hrun]
  dsimp only
  rw [hrun', List.append_assoc]

/-- A program that concerns the world alone makes no calls. -/
theorem calls_lift {x : M α} (hx : ∀ w, Wp.wp x (fun a _ => P a) (fun _ _ => False) w) :
    Calls (monadLift x : JobM α) [] P := by
  intro calls w
  have h := hx w
  unfold Wp.wp at h
  have hrun : (monadLift x : JobM α).run calls w = (x >>= fun a => pure (a, calls)) w := rfl
  rw [hrun, Wp.bind_apply, List.append_nil]
  cases hw : x w with
  | ok a w' => rw [hw] at h; exact ⟨a, w', rfl, h⟩
  | error e w' => rw [hw] at h; exact h.elim

end Calls

namespace ExitExecutionService

variable {env : JobEnv}

/-- An exit that goes to the executor is one call, also if the executor raises. -/
theorem executeSignal_calls (env : Env) (exit : ExitArgs) : Calls (executeSignal env exit) [exit] (fun _ => True) := by
  unfold executeSignal
  refine calls_bind (l := [exit]) (m := []) (P := fun _ => True) (fun calls w => ⟨⟨⟩, w, rfl, trivial⟩)
    fun _ _ => calls_lift fun w => Wp.wp_catch_pure _ _

theorem handleNextSessionSignal_calls (i : ℕ) (signal : ExitSignal) (position : PositionRecord) :
    Calls (monadLift (handleNextSessionSignal env i signal position) : JobM ExecutionResult) [] (fun _ => True) := by
  refine calls_lift fun w => ?_
  unfold handleNextSessionSignal
  rw [Wp.wp_bind]
  refine Wp.wp_mono (Wp.wp_catch_pure _ _) (fun did w₁ _ => ?_) fun _ _ h => h
  rw [Wp.wp_bind]
  exact Wp.wp_mono (Wp.wp_catch_pure _ _) (fun _ _ _ => trivial) fun _ _ h => h

/-- The call that a signal leads to. -/
def callFor (positions : List PositionRecord) (accountId : String) (signal : ExitSignal) : Option ExitArgs :=
  if DueToday signal then
    (matchSignalToPosition signal positions).map (fun position => { exitSignal := signal, position, accountId })
  else none

theorem handleSignal_calls {positions : List PositionRecord} (accountId : String) (i : ℕ) {signal : ExitSignal}
    {position : PositionRecord} (h : matchSignalToPosition signal positions = some position) :
    Calls (handleSignal env accountId i signal position) (callFor positions accountId signal).toList
      (fun _ => True) := by
  unfold handleSignal callFor
  split
  · rw [h]
    exact executeSignal_calls _ _
  · exact handleNextSessionSignal_calls i signal position

theorem processSorted_calls (positions : List PositionRecord) (accountId : String) (i : ℕ)
    (signals : List ExitSignal) : Calls (processSorted env positions accountId i signals)
      (signals.filterMap (callFor positions accountId)) (fun _ => True) := by
  induction signals generalizing i with
  | nil => exact calls_pure trivial
  | cons signal signals ih =>
    have hcons : (signal :: signals).filterMap (callFor positions accountId) =
        (callFor positions accountId signal).toList ++ signals.filterMap (callFor positions accountId) := by
      rw [List.filterMap_cons]
      cases callFor positions accountId signal <;> rfl
    rw [hcons]
    unfold processSorted
    split
    · rename_i hnone
      have hcall : callFor positions accountId signal = none := by unfold callFor; rw [hnone]; simp
      rw [hcall]
      exact ih (i + 1)
    · rename_i position hsome
      refine calls_bind (handleSignal_calls accountId i hsome) fun result _ => ?_
      have hrest : Calls (do pure (result :: (← processSorted env positions accountId (i + 1) signals)))
          (signals.filterMap (callFor positions accountId) ++ []) (fun _ => True) :=
        calls_bind (ih (i + 1)) fun _ _ => calls_pure trivial
      rwa [List.append_nil] at hrest

/-- A batch makes the calls of its signals, in the order of their urgency. -/
theorem processExitSignals_calls (exitSignals : List ExitSignal) (positions : List PositionRecord)
    (accountId : String) : Calls (processExitSignals env exitSignals positions accountId)
      ((sortSignals exitSignals).filterMap (callFor positions accountId)) (fun _ => True) := by
  unfold processExitSignals
  split
  · rename_i h
    rw [List.isEmpty_iff.1 h]
    exact calls_pure trivial
  · exact processSorted_calls positions accountId 0 _

end ExitExecutionService

end TradingAgent
