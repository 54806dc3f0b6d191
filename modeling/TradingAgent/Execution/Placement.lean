/-
Specification of the last stages: the broker call and what follows it. `Placement` tells how far a run
came at the broker, whether the result reports success, and which failures that takes.
-/
import TradingAgent.Execution.Stages

namespace TradingAgent

open Wp Execution

variable {env : Env}

/-- The run logged the events `l` itself. -/
structure Logs (l : List Event) (w w' : World) : Prop where
  own : w'.own = w.own ++ l
  extends_ : w.trace <+: w'.trace

theorem Quiet.logs {l : List Event} {w w' : World} (h : Quiet l w w') : Logs l w w' := ⟨h.own, h.extends_⟩

theorem Logs.refl (w : World) : Logs [] w w := (Quiet.refl w).logs

theorem Logs.trans {l l' : List Event} {w w' w'' : World} (h : Logs l w w') (h' : Logs l' w' w'') :
    Logs (l ++ l') w w'' :=
  ⟨by rw [h'.own, h.own, List.append_assoc], h.extends_.trans h'.extends_⟩

theorem Logs.step {l : List Event} {w w' : World} (h : Logs l w w') (e : Step) : Logs l w (w'.step e) := by
  have := h.trans (step_frame w' e).logs
  rwa [List.append_nil] at this

theorem Logs.log {l : List Event} {w w' : World} (h : Logs l w w') {e : Event} (he : e.isOwn = true) :
    Logs (l ++ [e]) w (w'.log e) :=
  h.trans ⟨own_log_of_isOwn he, List.prefix_append ..⟩

/-- A change that leaves the trace alone. -/
theorem Logs.of_trace {l : List Event} {w w' w'' : World} (h : Logs l w w') (htrace : w''.trace = w'.trace) :
    Logs l w w'' := by
  refine ⟨?_, htrace ▸ h.extends_⟩
  rw [← h.own]
  unfold World.own
  rw [htrace]

theorem Logs.mem_since {l : List Event} {w w' : World} (h : Logs l w w') {e : Event} (he : e.isOwn = true) :
    e ∈ w.since w' ↔ e ∈ l := mem_since_iff_of_own h.extends_ h.own he

/-- The status of the order, in the worlds that follow. -/
def HasStatus (id : ℕ) (status : OrderStatus) (w : World) : Prop :=
  ∀ row, w.orders.get? id = some row → row.status = status

theorem HasStatus.congr {id : ℕ} {status : OrderStatus} {w w' : World} (h : HasStatus id status w)
    (heq : (w'.orders.get? id).map (·.status) = (w.orders.get? id).map (·.status)) :
    HasStatus id status w' := by
  intro row hrow
  rw [hrow, Option.map_some] at heq
  obtain ⟨row', hrow', hs⟩ := Option.map_eq_some_iff.1 heq.symm
  rw [← hs, h row' hrow']

namespace OrderExecutor

variable {run : Run} {id : ℕ} {quantity : ℤ} {status : ApprovalStatus} {verification : WebVerification}

/-- The request of a run for a quantity; none if it is not positive. -/
def Run.request (run : Run) (quantity : ℤ) : Option OrderRequest :=
  OrderRequest.make? run.symbol run.side run.orderType quantity (some run.price) run.reason run.accountId

theorem Run.request_eq_some {r : OrderRequest} (h : run.request quantity = some r) :
    r.symbol = run.symbol ∧ r.side = run.side ∧ r.quantity = quantity ∧ r.price = some run.price ∧
      r.accountId = run.accountId := by
  unfold request OrderRequest.make? at h
  split at h
  · cases h; exact ⟨rfl, rfl, rfl, rfl, rfl⟩
  · cases h

theorem Run.request_eq_none (h : run.request quantity = none) : quantity ≤ 0 := by
  unfold request OrderRequest.make? at h
  split at h
  · cases h
  · omega

/-- The broker did not fill the order. -/
def Unfilled (result : OrderResult) : Prop := result.status ≠ .filled ∧ result.status ≠ .partiallyFilled

instance (result : OrderResult) : Decidable (Unfilled result) := by unfold Unfilled; infer_instance

/-- The writes that the report of a fill depends on fail. -/
def ReportFails (env : Env) : Prop := env.fault .recordExecution ≠ none ∨ env.fault .updateFilled ≠ none

/-- How a run ends that came to the broker call. -/
inductive Placement (env : Env) (run : Run) (id : ℕ) (quantity : ℤ) (w : World) : ExecutionResult → World → Prop
  | refused {res w'} (hreq : run.request quantity = none) (hlogs : Logs [] w w') (hres : res.success = false) :
    Placement env run id quantity w res w'
  | raised {res w'} (r : OrderRequest) (hreq : run.request quantity = some r)
      (hlogs : Logs [.placed r] w w') (hres : res.success = false) : Placement env run id quantity w res w'
  | failed {res w'} (r : OrderRequest) (hreq : run.request quantity = some r)
      (hlogs : Logs [.placed r, .answered r (env.placeOrder r)] w w') (hres : res.success = false)
      (hcause : Unfilled (env.placeOrder r) ∨ ReportFails env) : Placement env run id quantity w res w'
  | filled {res w'} (r : OrderRequest) (hreq : run.request quantity = some r)
      (hlogs : Logs [.placed r, .answered r (env.placeOrder r)] w w') (hres : res.success = true)
      (hid : res.orderId = some id) (hfilled : ¬ Unfilled (env.placeOrder r)) (hok : ¬ ReportFails env)
      (hstatus : HasStatus id .filled w') : Placement env run id quantity w res w'

/-- Where a run that came to the broker call can raise. -/
inductive Interrupted (env : Env) (run : Run) (quantity : ℤ) (w : World) : World → Prop
  | refused {w'} (hreq : run.request quantity = none) (hlogs : Logs [] w w') : Interrupted env run quantity w w'
  | raised {w'} (r : OrderRequest) (hreq : run.request quantity = some r) (hlogs : Logs [.placed r] w w') :
    Interrupted env run quantity w w'
  | failed {w'} (r : OrderRequest) (hreq : run.request quantity = some r)
      (hlogs : Logs [.placed r, .answered r (env.placeOrder r)] w w')
      (hcause : Unfilled (env.placeOrder r) ∨ ReportFails env) : Interrupted env run quantity w w'

/-- The handler turns an interruption into a failed result. -/
theorem Interrupted.abort {w w' : World} (h : Interrupted env run quantity w w') (e : Exn) :
    wp (abort env run id e) (Placement env run id quantity w) (fun _ _ => False) w' := by
  have habort : ∀ l, Logs l w w' → wp (OrderExecutor.abort env run id e)
      (fun res w'' => res.success = false ∧ res.orderId = some id ∧ Logs l w w'') (fun _ _ => False) w' :=
    fun l hl => wp_abort (I := Logs l w) (fun _ e h => h.step e) (fun _ _ _ h => h.of_trace rfl) run id e hl
  cases h with
  | refused hreq hlogs =>
    exact wp_mono (habort _ hlogs) (fun _ _ h => .refused hreq h.2.2 h.1) fun _ _ h => h
  | raised r hreq hlogs =>
    exact wp_mono (habort _ hlogs) (fun _ _ h => .raised r hreq h.2.2 h.1) fun _ _ h => h
  | failed r hreq hlogs hcause =>
    exact wp_mono (habort _ hlogs) (fun _ _ h => .failed r hreq h.2.2 h.1 hcause) fun _ _ h => h

/-- Keeping the positions up to date never raises, and concerns neither the trace nor the orders. -/
def Tracks (track : ℤ → Decimal → M (Option ℕ)) : Prop :=
  ∀ (I : World → Prop), (∀ w e, I w → I (w.step e)) → (∀ w positions, I w → I { w with positions }) →
    ∀ q p w, I w → wp (track q p) (fun _ w' => I w') (fun _ _ => False) w

theorem fill_spec {track : ℤ → Decimal → M (Option ℕ)} (htrack : Tracks track) {r : OrderRequest}
    (hreq : run.request quantity = some r) (hfilled : ¬ Unfilled (env.placeOrder r)) {w₀ w : World}
    (hw : Logs [.placed r, .answered r (env.placeOrder r)] w₀ w) :
    wp (fill env run id quantity status verification (env.placeOrder r) track)
      (Placement env run id quantity w₀) (fun _ w' => Interrupted env run quantity w₀ w') w := by
  have hstep : ∀ w e, Logs [.placed r, .answered r (env.placeOrder r)] w₀ w →
      Logs [.placed r, .answered r (env.placeOrder r)] w₀ (w.step e) := fun _ e h => h.step e
  unfold fill recordExecution
  rw [wp_bind]
  refine Execution.wp_await_of (fun e _ w h => hstep w e h) hw (fun w₁ hw₁ hrec => ?_) fun f w₁ hw₁ hf => ?_
  · rw [wp_modify, wp_bind]
    refine wp_mono (htrack _ hstep (fun _ _ h => h.of_trace rfl) _ _ _ (hw₁.of_trace rfl))
      (fun positionId w₂ hw₂ => ?_) fun _ _ h => h.elim
    unfold updateOrder
    rw [wp_bind]
    refine Execution.wp_await_of (fun e _ w h => hstep w e h) hw₂ (fun w₃ hw₃ hupd => ?_) fun f w₃ hw₃ hf => ?_
    · rw [wp_modify, wp_bind]
      -- from here on the row says filled, and nothing can change that
      let I : World → Prop := fun w => Logs [.placed r, .answered r (env.placeOrder r)] w₀ w ∧ HasStatus id .filled w
      have hI : ∀ w e, I w → I (w.step e) := fun w e h => ⟨h.1.step e, h.2.congr ((step_frame w e).status id)⟩
      have hrow : I { w₃ with orders := w₃.orders.update id (fun o => { o with
          status := .filled, brokerOrderId := some (env.placeOrder r).orderId
          filledQuantity := intOr (env.placeOrder r).filledQuantity quantity
          filledPrice := some (priceOr (env.placeOrder r).filledPrice run.price)
          commission := (env.placeOrder r).commission, executedAt := some env.now, positionId }) } := by
        refine ⟨hw₃.of_trace rfl, fun row hget => ?_⟩
        rw [Table.get?_update, if_pos rfl] at hget
        obtain ⟨row', _, rfl⟩ := Option.map_eq_some_iff.1 hget
        rfl
      refine wp_mono (wp_notifySafe hI hrow) (fun _ w₄ hw₄ => ?_) fun _ _ h => h.elim
      rw [wp_bind]
      refine wp_mono (wp_recordDecisionSafe hI hw₄) (fun _ w₅ hw₅ => ?_) fun _ _ h => h.elim
      exact .filled r hreq hw₅.1 rfl rfl hfilled (by simp [ReportFails, hrec, hupd]) hw₅.2
    · have hfail : ReportFails env := .inr (by simp [hf])
      exact ⟨.failed r hreq hw₃ (.inr hfail), .failed r hreq (hw₃.of_trace rfl) (.inr hfail)⟩
  · have hfail : ReportFails env := .inl (by simp [hf])
    exact ⟨.failed r hreq hw₁ (.inr hfail), .failed r hreq (hw₁.of_trace rfl) (.inr hfail)⟩

theorem brokerFailed_spec {r : OrderRequest} (hreq : run.request quantity = some r)
    (hunfilled : Unfilled (env.placeOrder r)) {w₀ w : World}
    (hw : Logs [.placed r, .answered r (env.placeOrder r)] w₀ w) :
    wp (brokerFailed env run id quantity status verification (env.placeOrder r).status)
      (Placement env run id quantity w₀) (fun _ w' => Interrupted env run quantity w₀ w') w := by
  unfold brokerFailed updateOrder
  rw [wp_bind]
  refine wp_await_modify (I := Logs [.placed r, .answered r (env.placeOrder r)] w₀) (fun e _ _ h => h.step e) hw
    (fun w₁ hw₁ => ?_) fun e w₁ hw₁ => ?_
  · exact .failed r hreq (hw₁.of_trace rfl) rfl (.inl hunfilled)
  · exact ⟨.failed r hreq hw₁ (.inl hunfilled), .failed r hreq (hw₁.of_trace rfl) (.inl hunfilled)⟩

/-- Every run that comes to the broker call ends in a placement, or is interrupted. -/
theorem execute_spec {track : ℤ → Decimal → M (Option ℕ)} (htrack : Tracks track) (w : World) :
    wp (execute env run id quantity status verification track) (Placement env run id quantity w)
      (fun _ w' => Interrupted env run quantity w w') w := by
  unfold execute placeOrder
  rw [wp_bind]
  split
  · rename_i hreq
    exact .refused hreq (.refl w)
  · rename_i r hreq
    have hplaced : Logs [.placed r] w (w.log (.placed r)) := (Logs.refl w).log rfl
    rw [wp_bind, wp_modify, wp_bind]
    refine wp_await_pure (I := Logs [.placed r] w) (fun e _ _ h => h.step e) hplaced (fun w₁ hw₁ _ => ?_)
      fun e w₁ hw₁ => .raised r hreq hw₁
    have hanswered : Logs [.placed r, .answered r (env.placeOrder r)] w (w₁.log (.answered r (env.placeOrder r))) :=
      hw₁.log rfl
    rw [wp_bind, wp_modify, wp_pure]
    split
    · rename_i hunfilled
      exact brokerFailed_spec hreq hunfilled hanswered
    · rename_i hfilled
      exact fill_spec htrack hreq hfilled hanswered

theorem execute_placement {track : ℤ → Decimal → M (Option ℕ)} (htrack : Tracks track) (w : World) :
    wp (execute env run id quantity status verification track) (Placement env run id quantity w)
      (fun e w' => wp (abort env run id e) (Placement env run id quantity w) (fun _ _ => False) w') w :=
  wp_mono (execute_spec htrack w) (fun _ _ h => h) fun e _ h => h.abort e

/-! ## Tracking -/

theorem create_tracks (site : Site) (symbol : String) (strategyType : StrategyType) (q : ℤ) (price : Option Decimal)
    (stop : Decimal) (target : Option Decimal) (accountId : String) {I : World → Prop}
    (hstep : ∀ w e, I w → I (w.step e)) (hpos : ∀ w positions, I w → I { w with positions }) :
    Keeps I (PositionManager.create env site symbol strategyType q price stop target accountId) := by
  refine keeps_tryCatch (keeps_await (fun e _ w h => hstep w e h) ?_) fun _ => keeps_throw _
  split
  · exact keeps_throw _
  · exact fun w hw => hpos w _ hw

theorem close_tracks (positionId : ℕ) (price : Decimal) (reason : ExitReason) {I : World → Prop}
    (hstep : ∀ w e, I w → I (w.step e)) (hpos : ∀ w positions, I w → I { w with positions }) :
    Keeps I (PositionManager.close env positionId price reason) := by
  refine keeps_tryCatch (keeps_await (fun e _ w h => hstep w e h) ?_) fun e => ?_
  · refine keeps_bind keeps_get fun w => ?_
    split
    · exact keeps_throw _
    · split
      · exact keeps_throw _
      · exact keeps_modify fun w hw => hpos w _ hw
  · split <;> exact keeps_throw _

theorem trackEntry_tracks (args : EntryArgs) : Tracks (trackEntry env args) := by
  intro I hstep hpos q p w hw
  unfold trackEntry
  rw [wp_tryCatch, wp_map]
  exact wp_mono (create_tracks _ _ _ _ _ _ _ _ hstep hpos w hw) (fun _ _ h => h) fun _ _ h => h

theorem trackExit_tracks (exit : ExitArgs) : Tracks (trackExit env exit) := by
  intro I hstep hpos q p w hw
  unfold trackExit
  rw [wp_tryCatch, wp_bind]
  exact wp_mono (close_tracks _ _ _ hstep hpos w hw) (fun _ _ h => h) fun _ _ h => h

/-! ## The way of an entry to the broker -/

/-- What the executor read back for its order: the row as it stood in a world on the way. -/
structure Reread (J : ℕ → World → Prop) (id : ℕ) (l : List Event) (w₀ w : World) (row : Option Order) : Prop where
  quiet : Quiet (l ++ [.reread row]) w₀ w
  read : ∃ w₁, J id w₁ ∧ Quiet l w₀ w₁ ∧ row = w₁.orders.get? id ∧ w₁.trace ++ [.reread row] <+: w.trace

theorem Reread.then {J : ℕ → World → Prop} {l : List Event} {w₀ w w' : World} {row : Option Order}
    (h : Reread J id l w₀ w row) (h' : Quiet [] w w') : Reread J id l w₀ w' row := by
  obtain ⟨w₁, hJ, hl, hrow, hpre⟩ := h.read
  exact ⟨h.quiet.then h', w₁, hJ, hl, hrow, hpre.trans h'.extends_⟩

/-- The quantity that goes out for a row read back: that of the decision, or the modified one if it
passes the risk check. -/
inductive Sends (env : Env) (args : EntryArgs) (row : Option Order) : ℤ → Prop
  | original (h : row.bind (·.modifiedQuantity) = none) : Sends env args row args.run.quantity
  | modified (m : ℤ) (h : row.bind (·.modifiedQuantity) = some m) (hcheck : env.fault .riskCheck = none)
      (hpassed : (recheck env args m).passed = true) :
    Sends env args row (intOr (recheck env args m).adjustedQuantity m)

/-- How an approved entry ends: the row could not be read, the risk check stopped the modified quantity,
or the order went to the broker, of which `X` is known. -/
inductive EntryEnd (env : Env) (args : EntryArgs) (J : ℕ → World → Prop) (id : ℕ) (l : List Event) (w₀ : World)
    (X : ℤ → World → ExecutionResult → World → Prop) : ExecutionResult → World → Prop
  | unread {res w} (l' : List Event) (hfault : env.fault .getOrder ≠ none) (hres : res.success = false)
      (hquiet : Quiet l' w₀ w) (hl : l' = l ∨ ∃ row, l' = l ++ [.reread row]) : EntryEnd env args J id l w₀ X res w
  | stopped {res w} (row : Option Order) (m : ℤ) (hread : Reread J id l w₀ w row) (hres : res.success = false)
      (hmod : row.bind (·.modifiedQuantity) = some m)
      (hstop : env.fault .riskCheck ≠ none ∨ (recheck env args m).passed = false) :
    EntryEnd env args J id l w₀ X res w
  | sent {res w} (row : Option Order) (q : ℤ) (w₁ : World) (hread : Reread J id l w₀ w₁ row)
      (hget : env.fault .getOrder = none) (hsends : Sends env args row q) (hX : X q w₁ res w) :
    EntryEnd env args J id l w₀ X res w

variable {args : EntryArgs} {J : ℕ → World → Prop} {l : List Event} {w₀ : World}
  {X : ℤ → World → ExecutionResult → World → Prop}

theorem abort_unread {w : World} (l' : List Event) (hfault : env.fault .getOrder ≠ none)
    (hquiet : Quiet l' w₀ w) (hl : l' = l ∨ ∃ row, l' = l ++ [.reread row]) (e : Exn) :
    wp (abort env args.run id e) (EntryEnd env args J id l w₀ X) (fun _ _ => False) w :=
  wp_mono (wp_abort (I := Quiet l' w₀) (fun _ e h => h.step e) (fun _ id f h => quiet_update h id f) args.run id e
    hquiet) (fun _ _ h => .unread l' hfault h.1 h.2.2 hl) fun _ _ h => h

theorem abort_stopped {w : World} {row : Option Order} {m : ℤ} (hread : Reread J id l w₀ w row)
    (hmod : row.bind (·.modifiedQuantity) = some m)
    (hstop : env.fault .riskCheck ≠ none ∨ (recheck env args m).passed = false) (e : Exn) :
    wp (abort env args.run id e) (EntryEnd env args J id l w₀ X) (fun _ _ => False) w :=
  wp_mono (wp_abort (I := Quiet [] w) (fun _ e h => h.step e) (fun _ id f h => quiet_update h id f) args.run id e
    (.refl w)) (fun _ _ h => .stopped row m (hread.then h.2.2) h.1 hmod hstop) fun _ _ h => h

theorem recheckEntry_spec
    (hX : ∀ q w₁, wp (execute env args.run id q status verification (trackEntry env args)) (X q w₁)
      (fun e w' => wp (abort env args.run id e) (X q w₁) (fun _ _ => False) w') w₁)
    {w : World} {row : Option Order} {m : ℤ} (hread : Reread J id l w₀ w row)
    (hget : env.fault .getOrder = none) (hmod : row.bind (·.modifiedQuantity) = some m) :
    wp (recheckEntry env args id verification status m) (EntryEnd env args J id l w₀ X)
      (fun e w' => wp (abort env args.run id e) (EntryEnd env args J id l w₀ X) (fun _ _ => False) w') w := by
  unfold recheckEntry
  rw [wp_bind]
  refine Execution.wp_await_of (I := fun w => Reread J id l w₀ w row)
    (fun e _ w h => h.then (step_frame w e).toQuiet) hread (fun w₁ hw₁ hcheck => ?_) fun f w₁ hw₁ hf => ?_
  · rw [wp_pure]
    split
    · rename_i hpassed
      have hsent : ∀ res w', X _ w₁ res w' → EntryEnd env args J id l w₀ X res w' := fun res w' h =>
        .sent row _ w₁ hw₁ hget (.modified m hmod hcheck hpassed) h
      exact wp_mono (hX _ w₁) hsent fun e w' h => wp_mono h hsent fun _ _ h => h
    · rename_i hpassed
      have hstop : env.fault .riskCheck ≠ none ∨ (recheck env args m).passed = false :=
        .inr (Bool.eq_false_iff.2 hpassed)
      exact wp_mono (riskBlocked_ends args id verification status m _ w₁ (.refl w₁))
        (fun _ _ h => .stopped row m (hw₁.then h.2) h.1 hmod hstop)
        fun e w' h => abort_stopped (hw₁.then h) hmod hstop e
  · have hstop : env.fault .riskCheck ≠ none ∨ (recheck env args m).passed = false := .inl (by simp [hf])
    exact ⟨abort_stopped hw₁ hmod hstop _, abort_stopped hw₁ hmod hstop _⟩

theorem confirmEntry_spec (hstep : ∀ id w e, J id w → J id (w.step e))
    (hX : ∀ q w₁, wp (execute env args.run id q status verification (trackEntry env args)) (X q w₁)
      (fun e w' => wp (abort env args.run id e) (X q w₁) (fun _ _ => False) w') w₁)
    {w : World} (hw : Quiet l w₀ w) (hJ : J id w) :
    wp (confirmEntry env args id verification status) (EntryEnd env args J id l w₀ X)
      (fun e w' => wp (abort env args.run id e) (EntryEnd env args J id l w₀ X) (fun _ _ => False) w') w := by
  unfold confirmEntry getOrder
  rw [wp_bind]
  have hreread : ∀ w₁, Quiet l w₀ w₁ ∧ J id w₁ →
      Reread J id l w₀ (w₁.log (.reread (w₁.orders.get? id))) (w₁.orders.get? id) := fun w₁ h =>
    ⟨h.1.log rfl, w₁, h.2, h.1, rfl, List.prefix_refl _⟩
  refine Execution.wp_await_of (I := fun w => Quiet l w₀ w ∧ J id w)
    (fun e _ w h => ⟨h.1.step e, hstep id w e h.2⟩) ⟨hw, hJ⟩ (fun w₁ hw₁ hget => ?_) fun f w₁ hw₁ hf => ?_
  · show wp _ _ _ (w₁.log (.reread (w₁.orders.get? id)))
    split
    · rename_i m hmod
      exact recheckEntry_spec hX (hreread w₁ hw₁) hget hmod
    · rename_i hmod
      have hsent : ∀ res w', X _ _ res w' → EntryEnd env args J id l w₀ X res w' := fun res w' h =>
        .sent _ _ _ (hreread w₁ hw₁) hget (.original hmod) h
      exact wp_mono (hX _ _) hsent fun e w' h => wp_mono h hsent fun _ _ h => h
  · have hfault : env.fault .getOrder ≠ none := by simp [hf]
    exact ⟨abort_unread l hfault hw₁.1 (.inl rfl) _,
      abort_unread _ hfault (hreread w₁ hw₁).quiet (.inr ⟨_, rfl⟩) _⟩

end OrderExecutor

end TradingAgent
