/-
The steps of an exit and the program of the executor. Every run of `executeExit`, whatever fails in it and
whatever the callbacks do meanwhile, leaves the positions and the broker as some steps of the desk do.
-/
import TradingAgent.Scheduler.Overlap
import TradingAgent.Execution.Conservation

namespace TradingAgent

open Wp Execution
open OrderExecutor

/-- What the broker sold in a trace, as sales of a position. -/
def soldIn (positionId : ℕ) (t : List Event) : List Sale :=
  (answers t).filterMap fun a => if Unfilled a.2 then none else some ⟨positionId, a.2.filledQuantity⟩

theorem answers_own (t : List Event) : answers (t.filter Event.isOwn) = answers t := by
  induction t with
  | nil => rfl
  | cons e t ih =>
    rw [List.filter_cons]
    cases e <;> simp [answers, Event.isOwn] at ih ⊢ <;> exact ih

/-- Only the answers to the run itself count. -/
theorem Logs.soldIn {l : List Event} {w w' : World} (h : Logs l w w') (positionId : ℕ) :
    soldIn positionId (w.since w') = soldIn positionId l := by
  have hown := own_eq_append h.extends_
  rw [h.own] at hown
  unfold TradingAgent.soldIn
  rw [List.append_cancel_left hown, answers_own]

/-- The run whose step it is. -/
def JobStep.run? : JobStep → Option ℕ
  | .start _ | .create _ => none
  | .getOpen i .. | .getPrice i _ | .next i | .verify i _ | .approve i _ | .placeOrder i .. | .recordExecution i _
  | .close i .. => some i

/-- A broker that fills nothing. -/
def noFill : Broker :=
  ⟨fun r => { fillAll r with status := .failed, filledQuantity := 0 }, fun r => r.quantity_pos.le⟩

/-- The run of `executeExit` from `w₀` to `w` logged `l`, and some steps of run `i` of the desk `s₀` lead
to the same positions and sales, with its exit at `task`. -/
structure Follows (s₀ : Desk) (i : ℕ) (rows : List PositionRecord) (signals : List ExitSignal) (exit : ExitArgs)
    (w₀ : World) (l : List Event) (task : Option ExitTask) (w : World) : Prop extends Logs l w₀ w where
  reached : ∃ steps : List JobStep, (∀ e ∈ steps, e.run? = some i) ∧
    (Async.runSteps Desk.step steps s₀).positions = w.positions ∧
    (Async.runSteps Desk.step steps s₀).phase? i = some (.exiting rows signals task) ∧
    (Async.runSteps Desk.step steps s₀).sales = s₀.sales ++ soldIn exit.position.id l

theorem own_snoc {i : ℕ} {steps : List JobStep} {e : JobStep} (h : ∀ e ∈ steps, e.run? = some i)
    (he : e.run? = some i) : ∀ e' ∈ steps ++ [e], e'.run? = some i := by
  intro e' hmem
  rcases List.mem_append.1 hmem with hmem | hmem
  · exact h e' hmem
  · rw [List.mem_singleton.1 hmem]
    exact he

namespace Follows

variable {env : Env} {s₀ : Desk} {i : ℕ} {rows : List PositionRecord} {signals : List ExitSignal} {exit : ExitArgs}
  {w₀ w w' : World} {l l' : List Event} {task task' : Option ExitTask}

/-- What the others do, and what the run writes elsewhere, is nothing to the desk. -/
theorem still (h : Follows s₀ i rows signals exit w₀ l task w) (h' : Still l' w w')
    (hl : soldIn exit.position.id l' = []) : Follows s₀ i rows signals exit w₀ (l ++ l') task w' := by
  obtain ⟨steps, hown, hpositions, hphase, hsales⟩ := h.reached
  refine ⟨h.toLogs.trans h'.toLogs, steps, hown, hpositions.trans h'.positions.symm, hphase, ?_⟩
  rw [hsales]
  unfold soldIn answers at hl ⊢
  rw [List.filterMap_append, List.filterMap_append, hl, List.append_nil]

theorem step (h : Follows s₀ i rows signals exit w₀ l task w) (e : Step) :
    Follows s₀ i rows signals exit w₀ l task (w.step e) := by
  have := h.still ((Quiet.refl w).still.step e) rfl
  rwa [List.append_nil] at this

theorem orders (h : Follows s₀ i rows signals exit w₀ l task w) (orders : Table Order) :
    Follows s₀ i rows signals exit w₀ l task { w with orders } :=
  ⟨h.toLogs.of_trace rfl, h.reached⟩

/-- A step of the desk that moves the exit on. -/
theorem move (h : Follows s₀ i rows signals exit w₀ l task w) (e : JobStep) (hrun : e.run? = some i)
    (he : ∀ s : Desk, s.phase? i = some (.exiting rows signals task) →
      s.step e = s.setPhase i (.exiting rows signals task')) :
    Follows s₀ i rows signals exit w₀ l task' w := by
  obtain ⟨steps, hown, hpositions, hphase, hsales⟩ := h.reached
  refine ⟨h.toLogs, steps ++ [e], own_snoc hown hrun, ?_⟩
  rw [Async.runSteps_snoc, he _ hphase]
  exact ⟨hpositions, (Desk.phase?_setPhase hphase _ i).trans (if_pos rfl), hsales⟩

theorem verify (h : Follows s₀ i rows signals exit w₀ l (some ⟨exit, .verifying⟩) w) (passes : Bool) :
    Follows s₀ i rows signals exit w₀ l (if passes then some ⟨exit, .approving⟩ else none) w :=
  h.move (.verify i passes) rfl fun s hs => by
    show s.verify i passes = _
    unfold Desk.verify
    rw [hs]

theorem approve (h : Follows s₀ i rows signals exit w₀ l (some ⟨exit, .approving⟩) w) (passes : Bool) :
    Follows s₀ i rows signals exit w₀ l (if passes then some ⟨exit, .placing⟩ else none) w :=
  h.move (.approve i passes) rfl fun s hs => by
    show s.approve i passes = _
    unfold Desk.approve
    rw [hs]

/-- The order does not go out, or is not filled. -/
theorem unplaced (h : Follows s₀ i rows signals exit w₀ l (some ⟨exit, .placing⟩) w) (broker : Broker)
    (hunfilled : ∀ request, exit.run.request exit.run.quantity = some request → Unfilled (broker.answer request)) :
    Follows s₀ i rows signals exit w₀ l none w :=
  h.move (.placeOrder i broker false) rfl fun s hs => by
    show s.placeOrder i broker false = _
    unfold Desk.placeOrder
    rw [hs]
    dsimp only
    split
    · rfl
    · rename_i request hreq
      rw [if_pos (hunfilled request hreq)]

/-- The order is filled. -/
theorem placed {request : OrderRequest} (broker : Broker)
    (h : Follows s₀ i rows signals exit w₀ l (some ⟨exit, .placing⟩) w)
    (hreq : exit.run.request exit.run.quantity = some request) (hfilled : ¬ Unfilled (broker.answer request))
    (hlogs : Logs l' w w') (hl' : l' = [.placed request, .answered request (broker.answer request)])
    (hpositions : w'.positions = w.positions) :
    Follows s₀ i rows signals exit w₀ (l ++ l') (some ⟨exit, .recording
      (priceOr (broker.answer request).filledPrice exit.run.price)⟩) w' := by
  obtain ⟨steps, hown, hpos, hphase, hsales⟩ := h.reached
  refine ⟨h.toLogs.trans hlogs, steps ++ [.placeOrder i broker false], own_snoc hown rfl, ?_⟩
  have hstep : (Async.runSteps Desk.step steps s₀).step (.placeOrder i broker false) =
      ((Async.runSteps Desk.step steps s₀).sell ⟨exit.position.id, (broker.answer request).filledQuantity⟩).setPhase i
        (.exiting rows signals
          (some ⟨exit, .recording (priceOr (broker.answer request).filledPrice exit.run.price)⟩)) := by
    show Desk.placeOrder _ i broker false = _
    unfold Desk.placeOrder
    rw [hphase]
    dsimp only
    rw [hreq]
    dsimp only
    rw [if_neg hfilled, if_neg (by simp)]
  rw [Async.runSteps_snoc, hstep]
  refine ⟨hpos.trans hpositions.symm, (Desk.phase?_setPhase hphase _ i).trans
    (if_pos rfl), ?_⟩
  show (Async.runSteps Desk.step steps s₀).sales ++ _ = _
  rw [hsales, List.append_assoc, hl']
  congr 1
  unfold soldIn answers
  rw [List.filterMap_append, List.filterMap_append]
  simp [hfilled]

theorem recorded {fillPrice : Decimal}
    (h : Follows s₀ i rows signals exit w₀ l (some ⟨exit, .recording fillPrice⟩) w) (fails : Bool) :
    Follows s₀ i rows signals exit w₀ l (if fails then none else some ⟨exit, .closing fillPrice⟩) w :=
  h.move (.recordExecution i fails) rfl fun s hs => by
    show s.recordExecution i fails = _
    unfold Desk.recordExecution
    rw [hs]

theorem unclosed {fillPrice : Decimal}
    (h : Follows s₀ i rows signals exit w₀ l (some ⟨exit, .closing fillPrice⟩) w) :
    Follows s₀ i rows signals exit w₀ l none w :=
  h.move (.close i true 0) rfl fun s hs => by
    show s.close i true 0 = _
    unfold Desk.close
    rw [hs]
    rfl

/-- The row is closed. -/
theorem closed {fillPrice : Decimal} (today : ℤ)
    (h : Follows s₀ i rows signals exit w₀ l (some ⟨exit, .closing fillPrice⟩) w) :
    Follows s₀ i rows signals exit w₀ l none { w with
      positions := closeIn w.positions exit.position.id (·.closedOn today fillPrice exit.exitSignal.reason) } := by
  obtain ⟨steps, hown, hpos, hphase, hsales⟩ := h.reached
  refine ⟨h.toLogs.of_trace rfl, steps ++ [.close i false today], own_snoc hown rfl, ?_⟩
  have hstep : (Async.runSteps Desk.step steps s₀).step (.close i false today) =
      ((Async.runSteps Desk.step steps s₀).closeRow exit fillPrice today).setPhase i (.exiting rows signals none) := by
    show Desk.close _ i false today = _
    unfold Desk.close
    rw [hphase]
    rfl
  rw [Async.runSteps_snoc, hstep]
  refine ⟨?_, (Desk.phase?_setPhase hphase _ i).trans (if_pos rfl), hsales⟩
  show closeIn (Async.runSteps Desk.step steps s₀).positions _ _ = _
  rw [hpos]

/-- The exit came to its end, whatever it logged. -/
def Ended (s₀ : Desk) (i : ℕ) (rows : List PositionRecord) (signals : List ExitSignal) (exit : ExitArgs)
    (w₀ w : World) : Prop := ∃ l, Follows s₀ i rows signals exit w₀ l none w

theorem Ended.step (h : Ended s₀ i rows signals exit w₀ w) (e : Step) :
    Ended s₀ i rows signals exit w₀ (w.step e) := by
  obtain ⟨l, hl⟩ := h
  exact ⟨l, hl.step e⟩

theorem Ended.orders (h : Ended s₀ i rows signals exit w₀ w) (orders : Table Order) :
    Ended s₀ i rows signals exit w₀ { w with orders } := by
  obtain ⟨l, hl⟩ := h
  exact ⟨l, hl.orders orders⟩

/-- Closing the row brings the exit to its end, whether it succeeds or not. -/
theorem close_ends {fillPrice : Decimal}
    (h : Follows s₀ i rows signals exit w₀ l (some ⟨exit, .closing fillPrice⟩) w) :
    wp (PositionManager.close env exit.position.id fillPrice exit.exitSignal.reason)
      (fun _ w' => Ended s₀ i rows signals exit w₀ w') (fun _ w' => Ended s₀ i rows signals exit w₀ w') w := by
  unfold PositionManager.close
  rw [wp_tryCatch]
  refine wp_await_ends (I := Follows s₀ i rows signals exit w₀ l (some ⟨exit, .closing fillPrice⟩))
    (P := Ended s₀ i rows signals exit w₀) (fun e _ _ h => h.step e) h (fun w₁ hw₁ => ?_)
    (fun w₁ hw₁ => ⟨l, hw₁.unclosed⟩) (fun _ _ hw₂ => hw₂) fun e w₂ hw₂ => by cases e <;> exact hw₂
  rw [wp_bind, wp_get]
  split
  · exact ⟨l, hw₁.unclosed⟩
  · rename_i record hrecord
    split
    · exact ⟨l, hw₁.unclosed⟩
    · rename_i hopen
      have hclosed := hw₁.closed env.today
      unfold closeIn at hclosed
      rw [hrecord] at hclosed
      dsimp only at hclosed
      rw [if_neg hopen] at hclosed
      exact ⟨l, hclosed⟩

theorem trackExit_ends {fillPrice : Decimal} (fillQuantity : ℤ)
    (h : Follows s₀ i rows signals exit w₀ l (some ⟨exit, .closing fillPrice⟩) w) :
    wp (trackExit env exit fillQuantity fillPrice) (fun _ w' => Ended s₀ i rows signals exit w₀ w')
      (fun _ _ => False) w := by
  unfold OrderExecutor.trackExit
  rw [wp_tryCatch, wp_bind]
  exact wp_mono (close_ends h) (fun _ _ h => h) fun _ _ h => h

variable {id : ℕ} {status : ApprovalStatus} {verification : WebVerification}

/-- After the fill. -/
theorem fill_ends {request : OrderRequest}
    (h : Follows s₀ i rows signals exit w₀ l (some ⟨exit, .recording
      (priceOr (env.placeOrder request).filledPrice exit.run.price)⟩) w) :
    wp (fill env exit.run id exit.run.quantity status verification (env.placeOrder request) (trackExit env exit))
      (fun _ w' => Ended s₀ i rows signals exit w₀ w') (fun _ w' => Ended s₀ i rows signals exit w₀ w') w := by
  have hstep : ∀ w e, Ended s₀ i rows signals exit w₀ w → Ended s₀ i rows signals exit w₀ (w.step e) :=
    fun _ e h => h.step e
  unfold fill recordExecution
  rw [wp_bind]
  refine wp_await_modify (I := Follows s₀ i rows signals exit w₀ l (some ⟨exit, .recording
      (priceOr (env.placeOrder request).filledPrice exit.run.price)⟩))
    (fun e _ _ h => h.step e) h (fun w₁ hw₁ => ?_) fun e w₁ hw₁ => ?_
  · have hwrite : ∀ executions, Follows s₀ i rows signals exit w₀ l (some ⟨exit, .closing
        (priceOr (env.placeOrder request).filledPrice exit.run.price)⟩) { w₁ with executions } :=
      fun executions => ⟨hw₁.toLogs.of_trace rfl, (hw₁.recorded false).reached⟩
    rw [wp_bind]
    refine wp_mono (trackExit_ends _ (hwrite _)) (fun positionId w₂ hw₂ => ?_) fun _ _ h => h.elim
    unfold updateOrder
    rw [wp_bind]
    refine wp_await_modify (I := Ended s₀ i rows signals exit w₀) (fun e _ _ h => h.step e) hw₂ (fun w₃ hw₃ => ?_)
      fun e w₃ hw₃ => ⟨hw₃, hw₃.orders _⟩
    rw [wp_bind]
    refine wp_mono (wp_notifySafe hstep (hw₃.orders _)) (fun _ w₄ hw₄ => ?_) fun _ _ h => h.elim
    rw [wp_bind]
    exact wp_mono (wp_recordDecisionSafe hstep hw₄) (fun _ _ h => h) fun _ _ h => h.elim
  · have hend : Follows s₀ i rows signals exit w₀ l none w₁ := hw₁.recorded true
    exact ⟨⟨l, hend⟩, ⟨l, hend.toLogs.of_trace rfl, hend.reached⟩⟩


/-- From the broker call on. -/
theorem execute_ends (hfills : ∀ r, (env.placeOrder r).filledQuantity ≤ r.quantity)
    (h : Follows s₀ i rows signals exit w₀ l (some ⟨exit, .placing⟩) w) :
    wp (execute env exit.run id exit.run.quantity status verification (trackExit env exit))
      (fun _ w' => Ended s₀ i rows signals exit w₀ w') (fun _ w' => Ended s₀ i rows signals exit w₀ w') w := by
  unfold execute placeOrder
  rw [wp_bind]
  split
  · rename_i hreq
    refine ⟨l, h.unplaced noFill fun request hrequest => ?_⟩
    exact absurd (hrequest.symm.trans hreq) (by simp)
  · rename_i r hreq
    have hplaced : Still [.placed r] w (w.log (.placed r)) := (Quiet.refl w).still.log rfl
    rw [wp_bind, wp_modify, wp_bind]
    refine wp_await_pure (I := Still [.placed r] w) (fun e _ _ h => h.step e) hplaced (fun w₁ hw₁ _ => ?_)
      fun _ w₁ hw₁ => ?_
    · have hanswered : Still [.placed r, .answered r (env.placeOrder r)] w
          (w₁.log (.answered r (env.placeOrder r))) := hw₁.log rfl
      rw [wp_bind, wp_modify, wp_pure]
      split
      · rename_i hunfilled
        have hend : Follows s₀ i rows signals exit w₀ (l ++ [.placed r, .answered r (env.placeOrder r)]) none
            (w₁.log (.answered r (env.placeOrder r))) := by
          refine (h.still hanswered ?_).unplaced ⟨env.placeOrder, hfills⟩ fun request hrequest => ?_
          · have hnone : Unfilled (env.placeOrder r) := hunfilled
            simp [soldIn, answers, hnone]
          · have heq : request = r := Option.some.inj (hrequest.symm.trans hreq)
            rw [heq]
            exact hunfilled
        unfold brokerFailed updateOrder
        rw [wp_bind]
        exact wp_await_modify (I := Ended s₀ i rows signals exit w₀) (fun e _ _ h => h.step e) ⟨_, hend⟩
          (fun _ h => h.orders _) fun _ _ h => ⟨h, h.orders _⟩
      · rename_i hfilled
        exact fill_ends (h.placed ⟨env.placeOrder, hfills⟩ hreq hfilled hanswered.toLogs rfl
          hanswered.positions)
    · exact ⟨_, (h.still hw₁ rfl).unplaced noFill fun _ _ => by simp [noFill, Unfilled]⟩

theorem abort_ends (h : Ended s₀ i rows signals exit w₀ w) (run : Run) (id : ℕ) (e : Exn) :
    wp (abort env run id e) (fun _ w' => Ended s₀ i rows signals exit w₀ w') (fun _ _ => False) w :=
  wp_mono (wp_abort (I := Ended s₀ i rows signals exit w₀) (fun _ e h => h.step e) (fun _ _ _ h => h.orders _)
    run id e h) (fun _ _ h => h.2.2) fun _ _ h => h

end Follows

/-- Every run of an exit, from a desk with the same positions that is about to verify it, leaves the positions
and what the broker sold as some steps of its run do that bring the exit to its end. -/
theorem executeExit_follows (env : Env) (hfills : ∀ r, (env.placeOrder r).filledQuantity ≤ r.quantity)
    (exit : ExitArgs) (w : World) (s : Desk) (hpositions : s.positions = w.positions) (i : ℕ)
    (rows : List PositionRecord) (signals : List ExitSignal)
    (hphase : s.phase? i = some (.exiting rows signals (some ⟨exit, .verifying⟩))) :
    ∃ res w' steps, executeExit env exit w = .ok res w' ∧ (∀ e ∈ steps, e.run? = some i) ∧
      (Async.runSteps Desk.step steps s).positions = w'.positions ∧
      (Async.runSteps Desk.step steps s).phase? i = some (.exiting rows signals none) ∧
      (Async.runSteps Desk.step steps s).sales = s.sales ++ soldIn exit.position.id (w.since w') := by
  have hstart : Follows s i rows signals exit w [] (some ⟨exit, .verifying⟩) w :=
    ⟨.refl w, [], by simp, hpositions, hphase, (List.append_nil _).symm⟩
  have hrun : wp (executeExit env exit) (fun _ w' => Follows.Ended s i rows signals exit w w')
      (fun _ _ => False) w := by
    refine Goal.submit_nothing ⟨fun _ l w' _ hquiet hun => ?_, fun id status w₁ _ happ _ => ?_⟩
    · refine ⟨_, (hstart.verify false).still hquiet.still ?_⟩
      rcases hun with rfl | ⟨status, _, rfl⟩ <;> rfl
    · obtain ⟨l, hquiet, hl⟩ : ∃ l, Quiet l w w₁ ∧ soldIn exit.position.id l = [] := by
        rcases happ with ⟨_, _, hquiet⟩ | ⟨_, hquiet, _⟩ <;> exact ⟨_, hquiet, rfl⟩
      have hplacing : Follows s i rows signals exit w [] (some ⟨exit, .placing⟩) w :=
        Follows.approve (hstart.verify true) true
      exact wp_mono (Follows.execute_ends hfills (hplacing.still hquiet.still hl)) (fun _ _ h => h)
        fun e _ h => Follows.abort_ends h exit.run id e
  obtain ⟨res, w', hok, l, hlogs, steps, hown, hpos, hend, hsales⟩ := ok_of_wp hrun
  exact ⟨res, w', steps, hok, hown, hpos, hend, by rw [hsales, hlogs.soldIn]⟩

end TradingAgent
