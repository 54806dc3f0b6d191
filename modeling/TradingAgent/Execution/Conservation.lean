/-
Conservation of the tracked quantity. `Conserves` says of one run that the open quantity of every account
and symbol changed by what the broker filled; it holds of every entry that buys and of every exit that is
filled as a whole. A strategy run adds its signals on top, with nothing bought at the broker.
-/
import TradingAgent.Execution.Gate
import TradingAgent.Api.Strategy

namespace TradingAgent

open Wp Execution OrderExecutor

variable {env : Env}

/-! ## Quantities -/

/-- What a row counts for the account and symbol while it is open. -/
def openAmount (accountId symbol : String) (record : PositionRecord) : ℤ :=
  if record.status = "open" ∧ record.accountId = accountId ∧ record.symbol = symbol then record.quantity else 0

/-- The quantity of the open positions. -/
def openQuantity (accountId symbol : String) (w : World) : ℤ := w.positions.sum (openAmount accountId symbol)

/-- The quantity that the broker filled on a side. -/
def filledOn (side : OrderSide) (accountId symbol : String) (t : List Event) : ℤ :=
  (t.map fun e => match e with
    | .answered request result =>
      if request.side = side ∧ request.accountId = accountId ∧ request.symbol = symbol then result.filledQuantity
      else 0
    | _ => 0).sum

/-- Filled on buys less filled on sells. -/
def netFilled (accountId symbol : String) (t : List Event) : ℤ :=
  filledOn .buy accountId symbol t - filledOn .sell accountId symbol t

def signed : OrderSide → ℤ → ℤ
  | .buy, q => q
  | .sell, q => -q

theorem filledOn_append (side : OrderSide) (accountId symbol : String) (t t' : List Event) :
    filledOn side accountId symbol (t ++ t') =
      filledOn side accountId symbol t + filledOn side accountId symbol t' := by
  unfold filledOn
  rw [List.map_append, List.sum_append]

theorem netFilled_append (accountId symbol : String) (t t' : List Event) :
    netFilled accountId symbol (t ++ t') = netFilled accountId symbol t + netFilled accountId symbol t' := by
  unfold netFilled
  rw [filledOn_append, filledOn_append]
  ring

theorem filledOn_own (side : OrderSide) (accountId symbol : String) (t : List Event) :
    filledOn side accountId symbol (t.filter Event.isOwn) = filledOn side accountId symbol t := by
  induction t with
  | nil => rfl
  | cons e t ih =>
    rw [List.filter_cons]
    cases e <;> simp [filledOn, Event.isOwn] at ih ⊢ <;> exact ih

/-- Only the events of the run itself count. -/
theorem Logs.netFilled {l : List Event} {w w' : World} (h : Logs l w w') (accountId symbol : String) :
    netFilled accountId symbol (w.since w') = netFilled accountId symbol l := by
  have hown := own_eq_append h.extends_
  rw [h.own] at hown
  unfold TradingAgent.netFilled
  rw [List.append_cancel_left hown, filledOn_own, filledOn_own]

theorem netFilled_answered (accountId symbol : String) (r : OrderRequest) (result : OrderResult) :
    netFilled accountId symbol [.placed r, .answered r result] =
      if r.accountId = accountId ∧ r.symbol = symbol then signed r.side result.filledQuantity else 0 := by
  unfold netFilled filledOn
  cases hside : r.side <;> simp [hside, signed]
  split <;> rfl

/-! ## Changes of the positions -/

/-- The run logged the events `l` itself and left the positions alone. -/
structure Still (l : List Event) (w₀ w : World) : Prop extends Logs l w₀ w where
  positions : w.positions = w₀.positions

/-- The run logged the events `l` itself, and the open quantities changed by `d`. -/
structure Books (l : List Event) (d : String → String → ℤ) (w₀ w : World) : Prop extends Logs l w₀ w where
  change : ∀ accountId symbol, openQuantity accountId symbol w = openQuantity accountId symbol w₀ + d accountId symbol

/-- The open quantities changed by what the broker filled. -/
structure Conserves (w₀ w : World) : Prop where
  extends_ : w₀.trace <+: w.trace
  change : ∀ accountId symbol, openQuantity accountId symbol w =
    openQuantity accountId symbol w₀ + netFilled accountId symbol (w₀.since w)

section Changes

variable {l : List Event} {d : String → String → ℤ} {w₀ w w' : World}

theorem Quiet.still (h : Quiet l w₀ w) : Still l w₀ w := ⟨h.logs, h.positions⟩

theorem Still.step (h : Still l w₀ w) (e : Step) : Still l w₀ (w.step e) :=
  ⟨h.toLogs.step e, (step_frame w e).positions.trans h.positions⟩

theorem Still.log (h : Still l w₀ w) {e : Event} (he : e.isOwn = true) : Still (l ++ [e]) w₀ (w.log e) :=
  ⟨h.toLogs.log he, h.positions⟩

theorem Still.books (h : Still l w₀ w) : Books l (fun _ _ => 0) w₀ w :=
  ⟨h.toLogs, fun _ _ => by unfold openQuantity; rw [h.positions, add_zero]⟩

theorem Books.step (h : Books l d w₀ w) (e : Step) : Books l d w₀ (w.step e) :=
  ⟨h.toLogs.step e, fun accountId symbol => by
    rw [← h.change]
    unfold openQuantity
    rw [(step_frame w e).positions]⟩

/-- A write to the orders. -/
theorem Books.orders (h : Books l d w₀ w) (orders : Table Order) : Books l d w₀ { w with orders } :=
  ⟨h.toLogs.of_trace rfl, h.change⟩

theorem Books.conserves (h : Books l d w₀ w)
    (hd : ∀ accountId symbol, d accountId symbol = netFilled accountId symbol l) : Conserves w₀ w :=
  ⟨h.extends_, fun accountId symbol => by rw [h.toLogs.netFilled, h.change, hd]⟩

/-- A run that answers nothing and leaves the positions alone. -/
theorem Still.conserves (h : Still l w₀ w) (hl : ∀ request result, .answered request result ∉ l) : Conserves w₀ w := by
  refine h.books.conserves fun accountId symbol => ?_
  have hnone : ∀ side, filledOn side accountId symbol l = 0 := fun side => by
    unfold filledOn
    refine List.sum_eq_zero fun x hx => ?_
    obtain ⟨e, he, rfl⟩ := List.mem_map.1 hx
    cases e with
    | answered request result => exact absurd he (hl request result)
    | _ => rfl
  unfold netFilled
  rw [hnone, hnone, sub_zero]

theorem Conserves.refl (w : World) : Conserves w w :=
  Still.conserves (l := []) ⟨.refl w, rfl⟩ fun _ _ => List.not_mem_nil

theorem Conserves.trans (h : Conserves w₀ w) (h' : Conserves w w') : Conserves w₀ w' :=
  ⟨h.extends_.trans h'.extends_, fun accountId symbol => by
    rw [h'.change, h.change, since_append h.extends_ h'.extends_, netFilled_append, add_assoc]⟩

theorem Conserves.step (h : Conserves w₀ w) (e : Step) : Conserves w₀ (w.step e) :=
  h.trans ((step_frame w e).toQuiet.still.conserves fun _ _ => List.not_mem_nil)

theorem Conserves.orders (h : Conserves w₀ w) (orders : Table Order) : Conserves w₀ { w with orders } :=
  ⟨h.extends_, h.change⟩

/-- A position more. -/
theorem Books.insert (h : Books l d w₀ w) (row : ℕ → PositionRecord) :
    Books l (fun accountId symbol => d accountId symbol + openAmount accountId symbol (row w.positions.nextId)) w₀
      { w with positions := w.positions.insert row } := by
  refine ⟨h.toLogs.of_trace rfl, fun accountId symbol => ?_⟩
  calc (w.positions.insert row).sum (openAmount accountId symbol)
      = openQuantity accountId symbol w + openAmount accountId symbol (row w.positions.nextId) :=
        w.positions.sum_insert row (openAmount accountId symbol)
    _ = _ := by rw [h.change, add_assoc]

/-- An open position less. -/
theorem Still.close (h : Still l w₀ w) {record : PositionRecord} (hrow : w₀.positions.get? record.id = some record)
    {close : PositionRecord → PositionRecord} (hclose : (close record).status = "closed") :
    Books l (fun accountId symbol => -openAmount accountId symbol record) w₀
      { w with positions := w.positions.update record.id close } := by
  refine ⟨h.toLogs.of_trace rfl, fun accountId symbol => ?_⟩
  have hsum := w₀.positions.sum_update close (openAmount accountId symbol) hrow
  have hzero : openAmount accountId symbol (close record) = 0 := by
    unfold openAmount
    rw [hclose, if_neg (by simp)]
  rw [hzero, add_zero] at hsum
  show (w.positions.update record.id close).sum (openAmount accountId symbol) =
    w₀.positions.sum (openAmount accountId symbol) + -openAmount accountId symbol record
  rw [h.positions, ← hsum, add_neg_cancel_right]

end Changes

/-! ## The position manager -/

section Positions

variable {l : List Event} {d : String → String → ℤ} {w₀ w : World}

/-- With a price, and its write succeeding, a position is created. -/
theorem create_books {site : Site} (hsite : env.fault site = none) (symbol : String) (strategyType : StrategyType)
    (q : ℤ) (price stop : Decimal) (target : Option Decimal) (accountId : String) (trailingStopPct : Option Decimal)
    (maxHoldingDays : Option ℤ) (hw : Books l d w₀ w) :
    wp (PositionManager.create env site symbol strategyType q (some price) stop target accountId trailingStopPct
      maxHoldingDays) (fun _ w' => Books l (fun accountId' symbol' => d accountId' symbol' +
        if accountId = accountId' ∧ symbol = symbol' then q else 0) w₀ w') (fun _ _ => False) w := by
  unfold PositionManager.create
  rw [wp_tryCatch]
  refine Execution.wp_await_of (I := Books l d w₀) (fun e _ _ h => h.step e) hw (fun w₁ hw₁ _ => ?_)
    fun f w₁ _ hf => absurd hf (by simp [hsite])
  have hbooks := hw₁.insert (CreateArgs.record {
    symbol, strategyType, quantity := q, entryPrice := price, stopLossPrice := stop, takeProfitPrice := target
    trailingStopPct, maxHoldingDays, accountId } env.today)
  simp only [openAmount, CreateArgs.record, true_and] at hbooks
  exact hbooks

/-- An open position is closed. -/
theorem close_books (hsite : env.fault .closePosition = none) {record : PositionRecord}
    (hrow : w₀.positions.get? record.id = some record) (hopen : record.status = "open") (price : Decimal)
    (reason : ExitReason) (hw : Still l w₀ w) :
    wp (PositionManager.close env record.id price reason)
      (fun _ w' => Books l (fun accountId symbol => -openAmount accountId symbol record) w₀ w')
      (fun _ _ => False) w := by
  unfold PositionManager.close
  rw [wp_tryCatch]
  refine Execution.wp_await_of (I := Still l w₀) (fun e _ _ h => h.step e) hw (fun w₁ hw₁ _ => ?_)
    fun f w₁ _ hf => absurd hf (by simp [hsite])
  rw [wp_bind, wp_get, hw₁.positions, hrow]
  simp only [hopen]
  exact hw₁.close hrow rfl

end Positions

/-! ## The broker call -/

section Broker

variable {run : Run} {id : ℕ} {q : ℤ} {status : ApprovalStatus} {verification : WebVerification} {w₀ : World}
  {track : ℤ → Decimal → M (Option ℕ)}

/-- Tracking the filled quantity books it for the account and symbol of the run. -/
def TracksFill (run : Run) (track : ℤ → Decimal → M (Option ℕ)) (w₀ : World) (q : ℤ) : Prop :=
  ∀ l w price, Still l w₀ w → wp (track q price) (fun _ w' => Books l (fun accountId symbol =>
    if run.accountId = accountId ∧ run.symbol = symbol then signed run.side q else 0) w₀ w') (fun _ _ => False) w

theorem fill_conserves {r : OrderRequest} (hreq : run.request q = some r) (hrec : env.fault .recordExecution = none)
    (hpos : 0 < (env.placeOrder r).filledQuantity)
    (htrack : TracksFill run track w₀ (env.placeOrder r).filledQuantity) {w : World}
    (hw : Still [.placed r, .answered r (env.placeOrder r)] w₀ w) :
    wp (fill env run id q status verification (env.placeOrder r) track) (fun _ w' => Conserves w₀ w')
      (fun _ w' => Conserves w₀ w') w := by
  have hfill : intOr (env.placeOrder r).filledQuantity q = (env.placeOrder r).filledQuantity := by
    unfold intOr
    rw [if_neg (by omega)]
  unfold fill recordExecution
  rw [hfill, wp_bind]
  refine Execution.wp_await_of (I := Still [.placed r, .answered r (env.placeOrder r)] w₀) (fun e _ _ h => h.step e) hw
    (fun w₁ hw₁ _ => ?_) fun f w₁ _ hf => absurd hf (by simp [hrec])
  rw [wp_modify, wp_bind]
  have hstill : Still [.placed r, .answered r (env.placeOrder r)] w₀ { w₁ with
      executions := w₁.executions ++ [{ orderId := id, brokerOrderId := (env.placeOrder r).orderId
                                        fillPrice := priceOr (env.placeOrder r).filledPrice run.price
                                        fillQuantity := (env.placeOrder r).filledQuantity
                                        commission := (env.placeOrder r).commission, executedAt := env.now }] } :=
    ⟨hw₁.toLogs.of_trace rfl, hw₁.positions⟩
  refine wp_mono (htrack _ _ _ hstill) (fun positionId w₂ hw₂ => ?_) fun _ _ h => h.elim
  -- what is booked is what the broker answered, and the rest of the run only writes to the order
  have hconserves : Conserves w₀ w₂ := hw₂.conserves fun accountId symbol => by
    obtain ⟨hsymbol, hside, _, _, haccount⟩ := Run.request_eq_some hreq
    rw [netFilled_answered, hsymbol, hside, haccount]
  unfold updateOrder
  rw [wp_bind]
  refine wp_await_modify (I := Conserves w₀) (fun e _ _ h => h.step e) hconserves (fun w₃ hw₃ => ?_)
    fun _ w₃ hw₃ => ⟨hw₃, hw₃.orders _⟩
  rw [wp_bind]
  refine wp_mono (wp_notifySafe (I := Conserves w₀) (fun _ e h => h.step e) (hw₃.orders _)) (fun _ w₄ hw₄ => ?_)
    fun _ _ h => h.elim
  rw [wp_bind]
  exact wp_mono (wp_recordDecisionSafe (I := Conserves w₀) (fun _ e h => h.step e) hw₄) (fun _ _ h => h)
    fun _ _ h => h.elim

/-- The broker call conserves the quantity, if an unfilled answer fills nothing and a fill is tracked. -/
theorem execute_conserves (hrec : env.fault .recordExecution = none)
    (hnone : ∀ r, Unfilled (env.placeOrder r) → (env.placeOrder r).filledQuantity = 0)
    (hfill : ∀ r, run.request q = some r → ¬ Unfilled (env.placeOrder r) →
      0 < (env.placeOrder r).filledQuantity ∧ TracksFill run track w₀ (env.placeOrder r).filledQuantity) :
    wp (execute env run id q status verification track) (fun _ w' => Conserves w₀ w')
      (fun _ w' => Conserves w₀ w') w₀ := by
  unfold execute placeOrder
  rw [wp_bind]
  split
  · exact .refl w₀
  · rename_i r hreq
    have hplaced : Still [.placed r] w₀ (w₀.log (.placed r)) := (Quiet.refl w₀).still.log rfl
    rw [wp_bind, wp_modify, wp_bind]
    refine wp_await_pure (I := Still [.placed r] w₀) (fun e _ _ h => h.step e) hplaced (fun w₁ hw₁ _ => ?_)
      fun _ _ h => h.conserves (by simp)
    have hanswered : Still [.placed r, .answered r (env.placeOrder r)] w₀
        (w₁.log (.answered r (env.placeOrder r))) := hw₁.log rfl
    rw [wp_bind, wp_modify, wp_pure]
    split
    · rename_i hunfilled
      have hconserves : Conserves w₀ (w₁.log (.answered r (env.placeOrder r))) :=
        hanswered.books.conserves fun accountId symbol => by
          rw [netFilled_answered, hnone r hunfilled]
          cases r.side <;> simp [signed]
      unfold brokerFailed updateOrder
      rw [wp_bind]
      exact wp_await_modify (I := Conserves w₀) (fun e _ _ h => h.step e) hconserves (fun _ h => h.orders _)
        fun _ _ h => ⟨h, h.orders _⟩
    · rename_i hfilled
      obtain ⟨hpos, htrack⟩ := hfill r hreq hfilled
      exact fill_conserves hreq hrec hpos htrack hanswered

theorem execute_conserves_abort (h : wp (execute env run id q status verification track)
      (fun _ w' => Conserves w₀ w') (fun _ w' => Conserves w₀ w') w₀) :
    wp (execute env run id q status verification track) (fun _ w' => Conserves w₀ w')
      (fun e w' => wp (abort env run id e) (fun _ w' => Conserves w₀ w') (fun _ _ => False) w') w₀ :=
  wp_mono h (fun _ _ h => h) fun e _ h => wp_mono (wp_abort (I := Conserves w₀) (fun _ e h => h.step e)
    (fun _ _ _ h => h.orders _) run id e h) (fun _ _ h => h.2.2) fun _ _ h => h

end Broker

/-! ## Entries and exits -/

/-- The writes that the positions depend on succeed. -/
structure WritesSucceed (env : Env) : Prop where
  execution : env.fault .recordExecution = none
  create : env.fault .createPosition = none
  close : env.fault .closePosition = none
  record : ∀ i, env.fault (.recordPosition i) = none

/-- The broker fills between one share and the ordered quantity, or nothing. -/
structure Fills (env : Env) : Prop where
  unfilled : ∀ r, Unfilled (env.placeOrder r) → (env.placeOrder r).filledQuantity = 0
  filled : ∀ r, ¬ Unfilled (env.placeOrder r) →
    0 < (env.placeOrder r).filledQuantity ∧ (env.placeOrder r).filledQuantity ≤ r.quantity

/-- The broker fills the whole quantity, or nothing. -/
def FillsWhole (env : Env) : Prop :=
  ∀ r, ¬ Unfilled (env.placeOrder r) → (env.placeOrder r).filledQuantity = r.quantity

theorem trackEntry_tracksFill (hwrites : WritesSucceed env) {args : EntryArgs} (hbuy : args.run.side = .buy)
    (w₀ : World) (q : ℤ) : TracksFill args.run (trackEntry env args) w₀ q := by
  intro l w price hw
  unfold trackEntry
  rw [wp_tryCatch, wp_map]
  refine wp_mono (create_books hwrites.create _ _ _ _ _ _ _ _ _ hw.books) (fun _ w' h => ?_) fun _ _ h => h.elim
  refine ⟨h.toLogs, fun accountId symbol => ?_⟩
  rw [h.change, hbuy, zero_add]
  rfl

theorem executeEntry_conserves (hwrites : WritesSucceed env) (hfills : Fills env) {args : EntryArgs}
    (hbuy : args.run.side = .buy) (w : World) :
    wp (executeEntry env args) (fun _ w' => Conserves w w') (fun _ _ => False) w := by
  refine Goal.submit_nothing ⟨?_, ?_⟩
  · intro _ l w' _ hquiet hun
    exact hquiet.still.conserves hun.unanswered
  · intro id status w₁ _ happ _
    obtain ⟨l, hquiet, hl⟩ := happ.unanswered
    have hto : Conserves w w₁ := hquiet.still.conserves hl
    have hends : ∀ res w', EntryEnd env args (fun _ _ => True) id [] w₁ (fun _ w₁ _ w' => Conserves w₁ w') res w' →
        Conserves w w' := by
      intro res w' h
      cases h with
      | unread l' _ _ hquiet' hl' =>
        refine hto.trans (hquiet'.still.conserves fun request result => ?_)
        rcases hl' with rfl | ⟨row, rfl⟩ <;> simp
      | stopped row m hread => exact hto.trans (hread.quiet.still.conserves (by simp))
      | sent row q w₂ hread _ _ hX => exact hto.trans ((hread.quiet.still.conserves (by simp)).trans hX)
    exact wp_mono (confirmEntry_spec (fun _ _ _ _ => trivial)
      (fun q w₁ => execute_conserves_abort (execute_conserves hwrites.execution hfills.unfilled
        fun r _ hfilled => ⟨(hfills.filled r hfilled).1, trackEntry_tracksFill hwrites hbuy w₁ _⟩)) (.refl w₁) trivial)
      hends fun e w' h => wp_mono h hends fun _ _ h => h

/-- The exit of an open position of the book, under its symbol and account. -/
structure ExitsOpen (exit : ExitArgs) (w : World) : Prop where
  row : w.positions.get? exit.position.id = some exit.position
  status : exit.position.status = "open"
  symbol : exit.exitSignal.symbol = exit.position.symbol
  account : exit.accountId = exit.position.accountId

theorem ExitsOpen.of_positions {exit : ExitArgs} {w w' : World} (h : ExitsOpen exit w)
    (hpositions : w'.positions = w.positions) : ExitsOpen exit w' :=
  ⟨by rw [hpositions, h.row], h.status, h.symbol, h.account⟩

theorem trackExit_tracksFill (hwrites : WritesSucceed env) {exit : ExitArgs} {w₀ : World} (hexit : ExitsOpen exit w₀) :
    TracksFill exit.run (trackExit env exit) w₀ exit.position.quantity := by
  intro l w price hw
  unfold trackExit
  rw [wp_tryCatch, wp_bind]
  refine wp_mono (close_books hwrites.close hexit.row hexit.status _ _ hw) (fun _ w' h => ?_) fun _ _ h => h.elim
  refine ⟨h.toLogs, fun accountId symbol => ?_⟩
  have hsymbol : exit.run.symbol = exit.position.symbol := hexit.symbol
  have haccount : exit.run.accountId = exit.position.accountId := hexit.account
  rw [h.change, hsymbol, haccount]
  unfold openAmount
  simp only [hexit.status, true_and]
  split <;> simp [signed, ExitArgs.run]

theorem executeExit_conserves (hwrites : WritesSucceed env) (hfills : Fills env) (hwhole : FillsWhole env)
    {exit : ExitArgs} {w : World} (hexit : ExitsOpen exit w) :
    wp (executeExit env exit) (fun _ w' => Conserves w w') (fun _ _ => False) w := by
  refine Goal.submit_nothing ⟨?_, ?_⟩
  · intro _ l w' _ hquiet hun
    exact hquiet.still.conserves hun.unanswered
  · intro id status w₁ _ happ _
    obtain ⟨l, hquiet, hl⟩ := happ.unanswered
    have hto : Conserves w w₁ := hquiet.still.conserves hl
    have htrack : ∀ r, exit.run.request exit.run.quantity = some r → ¬ Unfilled (env.placeOrder r) →
        0 < (env.placeOrder r).filledQuantity ∧
          TracksFill exit.run (trackExit env exit) w₁ (env.placeOrder r).filledQuantity := by
      intro r hreq hfilled
      refine ⟨(hfills.filled r hfilled).1, ?_⟩
      rw [hwhole r hfilled, (Run.request_eq_some hreq).2.2.1]
      exact trackExit_tracksFill hwrites (hexit.of_positions hquiet.positions)
    exact wp_mono (execute_conserves_abort (execute_conserves hwrites.execution hfills.unfilled htrack))
      (fun _ _ h => hto.trans h)
      fun e w' h => wp_mono h (fun _ _ h => hto.trans h) fun _ _ h => h

/-! ## Strategy runs -/

/-- The quantity of the signals recorded for the account and symbol. -/
def recordedQuantity (accountId symbol : String) (signals : List (String × Signal)) : ℤ :=
  (signals.map fun s => if s.1 = accountId ∧ s.2.symbol = symbol then s.2.quantity else 0).sum

theorem recordedQuantity_append (accountId symbol : String) (signals signals' : List (String × Signal)) :
    recordedQuantity accountId symbol (signals ++ signals') =
      recordedQuantity accountId symbol signals + recordedQuantity accountId symbol signals' := by
  unfold recordedQuantity
  rw [List.map_append, List.sum_append]

theorem recordSignals_books (hwrites : WritesSucceed env) (strategyType : StrategyType) {l : List Event} {w₀ : World}
    (signals : List Signal) (hpos : ∀ signal ∈ signals, 0 < signal.quantity) (created : ℕ)
    {d : String → String → ℤ} {w : World} (hw : Books l d w₀ w) :
    wp (StrategyRoute.recordSignals env strategyType created signals) (fun _ w' => Books l (fun accountId symbol =>
      d accountId symbol + recordedQuantity accountId symbol (signals.map ("default", ·))) w₀ w')
      (fun _ _ => False) w := by
  induction signals generalizing created d w with
  | nil =>
    refine ⟨hw.toLogs, fun accountId symbol => ?_⟩
    rw [hw.change, List.map_nil, recordedQuantity, List.map_nil, List.sum_nil, add_zero]
  | cons signal signals ih =>
    have hprice : StrategyRoute.entryPrice signal = some (signal.positionValueKrw / signal.quantity) :=
      if_pos (hpos signal (List.mem_cons_self ..))
    unfold StrategyRoute.recordSignals
    rw [wp_bind, hprice]
    refine wp_mono (create_books (hwrites.record created) _ _ _ _ _ _ _ _ _ hw) (fun _ w₁ hw₁ => ?_)
      fun _ _ h => h.elim
    refine wp_mono (ih (fun s hs => hpos s (List.mem_cons_of_mem _ hs)) (created + 1) hw₁) (fun _ w₂ hw₂ => ?_)
      fun _ _ h => h
    refine ⟨hw₂.toLogs, fun accountId symbol => ?_⟩
    rw [hw₂.change, List.map_cons, ← List.singleton_append, recordedQuantity_append]
    unfold recordedQuantity
    rw [List.map_singleton, List.sum_singleton]
    ring

/-- A strategy run books its signals, or fails before it records any. -/
theorem runStrategy_books (hwrites : WritesSucceed env) (generateSignals : StrategyRunRequest → List Signal)
    (req : StrategyRunRequest) (hpos : ∀ signal ∈ generateSignals req, 0 < signal.quantity) (w : World) :
    wp (StrategyRoute.runStrategy env generateSignals req) (fun response w' => Books [] (fun accountId symbol =>
      recordedQuantity accountId symbol (response.signals.map ("default", ·))) w w') (fun _ w' => Still [] w w') w := by
  unfold StrategyRoute.runStrategy
  rw [wp_tryCatch, wp_bind]
  refine wp_await_pure (I := Still [] w) (fun e _ _ h => h.step e) (Quiet.refl w).still (fun w₁ hw₁ _ => ?_)
    fun _ _ h => h
  rw [wp_bind]
  refine wp_mono (recordSignals_books hwrites req.strategyType _ hpos 0 hw₁.books) (fun _ w₂ hw₂ => ?_)
    fun _ _ h => h.elim
  exact ⟨hw₂.toLogs, fun accountId symbol => by rw [hw₂.change, zero_add]⟩

/-! ## Sequences of calls -/

/-- A call of the executor or of the strategy API, in its environment. -/
inductive Call
  | executeEntry (env : Env) (args : EntryArgs)
  | executeExit (env : Env) (exit : ExitArgs)
  | runStrategy (env : Env) (generateSignals : StrategyRunRequest → List Signal) (req : StrategyRunRequest)

/-- Make the call. A strategy run reports the signals that it recorded, for the account of its request. -/
def Call.exec : Call → M (List (String × Signal))
  | .executeEntry env args => (fun _ => []) <$> OrderExecutor.executeEntry env args
  | .executeExit env exit => (fun _ => []) <$> OrderExecutor.executeExit env exit
  | .runStrategy env generateSignals req =>
    (fun response => response.signals.map (req.accountId, ·)) <$> StrategyRoute.runStrategy env generateSignals req

/-- The signals reported by a call, and the world after it, also if it raised. -/
def Call.after (call : Call) (w : World) : List (String × Signal) × World :=
  match call.exec w with
  | .ok signals w' => (signals, w')
  | .error _ w' => ([], w')

def runCalls : List Call → World → List (String × Signal) × World
  | [], w => ([], w)
  | call :: calls, w =>
    let made := call.after w
    let rest := runCalls calls made.2
    (made.1 ++ rest.1, rest.2)

/-- Entries buy, exits close an open position and are filled as a whole, and strategy runs are for the
default account and size their signals; the writes succeed. -/
def Call.Allowed : Call → World → Prop
  | .executeEntry env args, _ => WritesSucceed env ∧ Fills env ∧ args.run.side = .buy
  | .executeExit env exit, w => WritesSucceed env ∧ Fills env ∧ FillsWhole env ∧ ExitsOpen exit w
  | .runStrategy env generateSignals req, _ =>
    WritesSucceed env ∧ req.accountId = "default" ∧ ∀ signal ∈ generateSignals req, 0 < signal.quantity

/-- Every call is allowed in the world where it is made. -/
def AllAllowed : List Call → World → Prop
  | [], _ => True
  | call :: calls, w => call.Allowed w ∧ AllAllowed calls (call.after w).2

/-- The open quantities changed by what the broker filled and by what strategy runs recorded. -/
structure ConservesWith (signals : List (String × Signal)) (w₀ w : World) : Prop where
  extends_ : w₀.trace <+: w.trace
  change : ∀ accountId symbol, openQuantity accountId symbol w = openQuantity accountId symbol w₀ +
    netFilled accountId symbol (w₀.since w) + recordedQuantity accountId symbol signals

theorem Conserves.with_nothing {w₀ w : World} (h : Conserves w₀ w) : ConservesWith [] w₀ w :=
  ⟨h.extends_, fun accountId symbol => (h.change accountId symbol).trans (add_zero _).symm⟩

theorem ConservesWith.trans {signals signals' : List (String × Signal)} {w₀ w w' : World}
    (h : ConservesWith signals w₀ w) (h' : ConservesWith signals' w w') : ConservesWith (signals ++ signals') w₀ w' :=
  ⟨h.extends_.trans h'.extends_, fun accountId symbol => by
    rw [h'.change, h.change, since_append h.extends_ h'.extends_, netFilled_append, recordedQuantity_append]
    ring⟩

/-- An allowed call conserves the quantities. -/
theorem Call.after_conserves {call : Call} {w : World} (h : call.Allowed w) :
    ConservesWith (call.after w).1 w (call.after w).2 := by
  have hexec : wp call.exec (fun signals w' => ConservesWith signals w w') (fun _ w' => ConservesWith [] w w') w := by
    cases call with
    | executeEntry env args =>
      obtain ⟨hwrites, hfills, hbuy⟩ := h
      unfold Call.exec
      rw [wp_map]
      exact wp_mono (executeEntry_conserves hwrites hfills hbuy w) (fun _ _ h => h.with_nothing) fun _ _ h => h.elim
    | executeExit env exit =>
      obtain ⟨hwrites, hfills, hwhole, hexit⟩ := h
      unfold Call.exec
      rw [wp_map]
      exact wp_mono (executeExit_conserves hwrites hfills hwhole hexit) (fun _ _ h => h.with_nothing)
        fun _ _ h => h.elim
    | runStrategy env generateSignals req =>
      obtain ⟨hwrites, haccount, hpos⟩ := h
      unfold Call.exec
      rw [wp_map, haccount]
      refine wp_mono (runStrategy_books hwrites generateSignals req hpos w) (fun response w' h => ?_)
        fun _ _ h => (h.conserves fun _ _ => List.not_mem_nil).with_nothing
      refine ⟨h.extends_, fun accountId symbol => ?_⟩
      have hnone : netFilled accountId symbol (w.since w') = 0 := by
        rw [h.toLogs.netFilled]
        rfl
      rw [h.change, hnone, add_zero]
  unfold Call.after
  unfold wp at hexec
  split <;> rename_i heq <;> rw [heq] at hexec <;> exact hexec

theorem runCalls_conserves {calls : List Call} {w : World} (h : AllAllowed calls w) :
    ConservesWith (runCalls calls w).1 w (runCalls calls w).2 := by
  induction calls generalizing w with
  | nil => exact (Conserves.refl w).with_nothing
  | cons call calls ih => exact (call.after_conserves h.1).trans (ih h.2)

/-- Start with no positions. After any sequence of allowed calls, the open quantity of every account and
symbol is what the broker filled on buys, less what it filled on sells, and what strategy runs recorded. -/
theorem trackedQuantity_eq (calls : List Call) (w : World) (hempty : w.positions = Table.empty)
    (hallowed : AllAllowed calls w) (accountId symbol : String) :
    openQuantity accountId symbol (runCalls calls w).2 =
      filledOn .buy accountId symbol (w.since (runCalls calls w).2) -
        filledOn .sell accountId symbol (w.since (runCalls calls w).2) +
        recordedQuantity accountId symbol (runCalls calls w).1 := by
  have hzero : openQuantity accountId symbol w = 0 := by
    unfold openQuantity
    rw [hempty, Table.sum_empty]
  rw [(runCalls_conserves hallowed).change, hzero, zero_add]
  rfl

/-! ## Runs -/

/-- A plain environment without human approval, for the given request id. -/
def tradingEnv (requestId : RequestId) : Env :=
  { plainEnv with cfg := { humanApprovalRequired := false }, requestId }

/-- The stop loss of the ten shares that were bought first. -/
def stopTen : ExitArgs :=
  { exitSignal := { symbol := "005930", reason := .stopLoss, urgency := "immediate", currentPrice := 65000
                    unrealizedPnlPct := 0, recommendedAction := .stopLoss }
    position := { id := 1, symbol := "005930", strategyType := .swing, quantity := 10, avgCost := 70000
                  entryPrice := 70000, entryDate := 0, stopLossPrice := 0 } }

/-- A signal for five shares. -/
def signalFive : Signal :=
  { symbol := "005930", action := .buy, confidence := 1, quantity := 5, positionValueKrw := 350000
    reasoning := .replay "" }

/-- A swing run that finds it. -/
def swingRun : Call := .runStrategy (tradingEnv 3) (fun _ => [signalFive])
    { strategyType := .swing, symbols := ["005930"] }

theorem writesSucceed_trading (requestId : RequestId) : WritesSucceed (tradingEnv requestId) :=
  ⟨rfl, rfl, rfl, fun _ => rfl⟩

theorem fills_trading (requestId : RequestId) : Fills (tradingEnv requestId) :=
  ⟨fun _ h => absurd rfl h.1, fun r _ => ⟨r.quantity_pos, le_rfl⟩⟩

/-- Ten shares are bought and sold, and a strategy run records five. -/
theorem trackedQuantity_three_calls :
    openQuantity "default" "005930"
      (runCalls [.executeEntry (tradingEnv 1) buyTen, .executeExit (tradingEnv 2) stopTen, swingRun] {}).2 =
      10 - 10 + 5 := by
  have hallowed :
      AllAllowed [.executeEntry (tradingEnv 1) buyTen, .executeExit (tradingEnv 2) stopTen, swingRun] {} := by
    refine ⟨⟨writesSucceed_trading 1, fills_trading 1, rfl⟩,
      ⟨writesSucceed_trading 2, fills_trading 2, fun _ _ => rfl, ?_, rfl, rfl, rfl⟩,
      ⟨writesSucceed_trading 3, rfl, fun signal hsignal => ?_⟩, trivial⟩
    · decide +kernel
    · rw [List.mem_singleton.1 hsignal]
      decide
  rw [trackedQuantity_eq _ {} rfl hallowed]
  decide +kernel

/-- One strategy run tracks five shares, of which the broker never filled any. -/
theorem swingRun_unfilled : ¬ openQuantity "default" "005930" (runCalls [swingRun] {}).2 =
    filledOn .buy "default" "005930" (World.since {} (runCalls [swingRun] {}).2) -
      filledOn .sell "default" "005930" (World.since {} (runCalls [swingRun] {}).2) := by
  decide +kernel

end TradingAgent
