/-
Runs of the stop-loss job side by side. The scheduler starts at most one run at a time by its interval
trigger, but `run_job_now` starts another at any time. Every run works on the rows that it read at its
start. A position is sold once at most, as long as each exit starts while its row is still open and no
other run is selling it, and nothing fails between the fill and the closing of the row.
-/
import TradingAgent.Scheduler.StopLoss
import TradingAgent.Execution.Placement

namespace TradingAgent

open OrderExecutor (ExitArgs Unfilled)
open ExitExecutionService StopLossJob

/-! ## The state -/

/-- Who starts a run. -/
inductive Trigger
  | interval | runJobNow
  deriving DecidableEq

/-- Where an exit stands. -/
inductive ExitPhase
  | verifying | approving | placing
  -- the order is filled
  | recording (fillPrice : Decimal)
  | closing (fillPrice : Decimal)

/-- The broker filled the order, and the row is not closed yet. -/
def ExitPhase.sold : ExitPhase → Bool
  | .verifying | .approving | .placing => false
  | .recording _ | .closing _ => true

/-- A call of `executeExit` under way. -/
structure ExitTask where
  exit : ExitArgs
  phase : ExitPhase

/-- The position that is sold. -/
def ExitTask.positionId (task : ExitTask) : ℕ := task.exit.position.id

/-- Where a run of the job stands. `rows` are the open positions that it read. -/
inductive RunPhase
  | reading
  | pricing (today : ℤ) (rows todo : List PositionRecord) (signals : List ExitSignal)
  | exiting (rows : List PositionRecord) (signals : List ExitSignal) (task : Option ExitTask)
  | ended

def RunPhase.task : RunPhase → Option ExitTask
  | .exiting _ _ task => task
  | .reading | .pricing .. | .ended => none

def RunPhase.isEnded : RunPhase → Bool
  | .ended => true
  | .reading | .pricing .. | .exiting .. => false

/-- The rows that a run holds on to. -/
def RunPhase.rows : RunPhase → List PositionRecord
  | .reading | .ended => []
  | .pricing _ rows _ _ => rows
  | .exiting rows _ task => rows ++ (task.map (·.exit.position)).toList

structure JobRun where
  trigger : Trigger
  phase : RunPhase := .reading

/-- What the broker does with a request. It fills no more than was ordered. -/
structure Broker where
  answer : OrderRequest → OrderResult
  fills_le : ∀ r, (answer r).filledQuantity ≤ r.quantity

/-- A SELL that the broker filled for a position. -/
structure Sale where
  positionId : ℕ
  quantity : ℤ

/-- The runs of one account, the positions table, and what the broker sold so far. -/
structure Desk where
  accountId : String := "default"
  positions : Table PositionRecord
  numbered : positions.Numbered (·.id)
  runs : Table JobRun := Table.empty
  sales : List Sale := []

/-- One step of a run, or of those who start runs and open positions. -/
inductive JobStep
  | start (trigger : Trigger)
  | create (position : PositionRecord)
  -- the query answers with its rows in some order, or fails
  | getOpen (i : ℕ) (rowOrder : Option RowOrder) (today : ℤ)
  | getPrice (i : ℕ) (price : Option Decimal)
  -- on to the signals, to the next of them, or to the end
  | next (i : ℕ)
  | verify (i : ℕ) (passes : Bool)
  | approve (i : ℕ) (passes : Bool)
  -- `lost` says that the answer does not arrive
  | placeOrder (i : ℕ) (broker : Broker) (lost : Bool)
  | recordExecution (i : ℕ) (fails : Bool)
  | close (i : ℕ) (fails : Bool) (today : ℤ)

/-- Close a row of the table; one that is missing or closed already stays as it is. -/
def closeIn (t : Table PositionRecord) (id : ℕ) (close : PositionRecord → PositionRecord) : Table PositionRecord :=
  match t.get? id with
  | none => t
  | some row => if row.status = "closed" then t else t.update id close

theorem numbered_closeIn {t : Table PositionRecord} (h : t.Numbered (·.id)) (id : ℕ)
    {close : PositionRecord → PositionRecord} (hclose : ∀ row, (close row).id = row.id) :
    (closeIn t id close).Numbered (·.id) := by
  unfold closeIn
  split
  · exact h
  · split
    · exact h
    · exact h.update id hclose

namespace Desk

variable (s : Desk)

def phase? (i : ℕ) : Option RunPhase := (s.runs.get? i).map (·.phase)

/-- The exit that a run is executing. -/
def task? (i : ℕ) : Option ExitTask := (s.phase? i).bind RunPhase.task

def setPhase (i : ℕ) (phase : RunPhase) : Desk :=
  { s with runs := s.runs.update i (fun run => { run with phase }) }

/-- A run that the interval trigger started is under way. -/
def intervalRuns : Bool := s.runs.rows.values.any (fun run => run.trigger = .interval && !run.phase.isEnded)

/-- The SELLs of a position. -/
def salesOf (id : ℕ) : List Sale := s.sales.filter (·.positionId = id)

/-- The broker fills a SELL. -/
def sell (sale : Sale) : Desk := { s with sales := s.sales ++ [sale] }

/-- Close the row of an exit. -/
def closeRow (exit : ExitArgs) (fillPrice : Decimal) (today : ℤ) : Desk :=
  { s with
    positions := closeIn s.positions exit.position.id (·.closedOn today fillPrice exit.exitSignal.reason)
    numbered := numbered_closeIn s.numbered _ fun _ => rfl }

/-! ## Steps -/

def start (trigger : Trigger) : Desk :=
  if trigger = .interval ∧ s.intervalRuns then s
  else { s with runs := s.runs.insert (fun _ => { trigger }) }

/-- Another job opens a position. -/
def create (position : PositionRecord) : Desk :=
  { s with
    positions := s.positions.insert (fun id => { position with id })
    numbered := s.numbered.insert rfl }

def getOpen (i : ℕ) (rowOrder : Option RowOrder) (today : ℤ) : Desk :=
  match s.phase? i, rowOrder with
  | some .reading, some rowOrder =>
    s.setPhase i (.pricing today (PositionManager.openRows rowOrder s.accountId s.positions)
      (PositionManager.openRows rowOrder s.accountId s.positions) [])
  | some .reading, none => s.setPhase i .ended
  | _, _ => s

def getPrice (i : ℕ) (price : Option Decimal) : Desk :=
  match s.phase? i with
  | some (.pricing today rows (position :: todo) signals) =>
    s.setPhase i (.pricing today rows todo (signals ++ (price.bind (checkConditions today position)).toList))
  | _ => s

def next (i : ℕ) : Desk :=
  match s.phase? i with
  | some (.pricing _ rows [] signals) => s.setPhase i (.exiting rows (sortSignals signals) none)
  | some (.exiting rows (signal :: signals) none) =>
    s.setPhase i (.exiting rows signals ((callFor rows s.accountId signal).map (⟨·, .verifying⟩)))
  | some (.exiting _ [] none) => s.setPhase i .ended
  | _ => s

def verify (i : ℕ) (passes : Bool) : Desk :=
  match s.phase? i with
  | some (.exiting rows signals (some ⟨exit, .verifying⟩)) =>
    s.setPhase i (.exiting rows signals (if passes then some ⟨exit, .approving⟩ else none))
  | _ => s

def approve (i : ℕ) (passes : Bool) : Desk :=
  match s.phase? i with
  | some (.exiting rows signals (some ⟨exit, .approving⟩)) =>
    s.setPhase i (.exiting rows signals (if passes then some ⟨exit, .placing⟩ else none))
  | _ => s

/-- The broker handles the request, and the run hears of it unless the answer is lost. -/
def placeOrder (i : ℕ) (broker : Broker) (lost : Bool) : Desk :=
  match s.phase? i with
  | some (.exiting rows signals (some ⟨exit, .placing⟩)) =>
    match exit.run.request exit.run.quantity with
    | none => s.setPhase i (.exiting rows signals none)
    | some request =>
      if Unfilled (broker.answer request) then s.setPhase i (.exiting rows signals none)
      else (s.sell ⟨exit.position.id, (broker.answer request).filledQuantity⟩).setPhase i
        (.exiting rows signals (if lost then none
          else some ⟨exit, .recording (priceOr (broker.answer request).filledPrice exit.run.price)⟩))
  | _ => s

def recordExecution (i : ℕ) (fails : Bool) : Desk :=
  match s.phase? i with
  | some (.exiting rows signals (some ⟨exit, .recording fillPrice⟩)) =>
    s.setPhase i (.exiting rows signals (if fails then none else some ⟨exit, .closing fillPrice⟩))
  | _ => s

def close (i : ℕ) (fails : Bool) (today : ℤ) : Desk :=
  match s.phase? i with
  | some (.exiting rows signals (some ⟨exit, .closing fillPrice⟩)) =>
    if fails then s.setPhase i (.exiting rows signals none)
    else (s.closeRow exit fillPrice today).setPhase i (.exiting rows signals none)
  | _ => s

def step : JobStep → Desk
  | .start trigger => s.start trigger
  | .create position => s.create position
  | .getOpen i rowOrder today => s.getOpen i rowOrder today
  | .getPrice i price => s.getPrice i price
  | .next i => s.next i
  | .verify i passes => s.verify i passes
  | .approve i passes => s.approve i passes
  | .placeOrder i broker lost => s.placeOrder i broker lost
  | .recordExecution i fails => s.recordExecution i fails
  | .close i fails today => s.close i fails today

/-! ## The law and its condition -/

/-- At most one filled SELL for each position, for no more than its quantity. -/
structure SoldOnce (s : Desk) : Prop where
  once : ∀ id, (s.salesOf id).length ≤ 1
  within : ∀ sale ∈ s.sales, ∃ row, s.positions.get? sale.positionId = some row ∧
    ((s.salesOf sale.positionId).map (·.quantity)).sum ≤ row.quantity

/-- The positions whose exits are under way. -/
def exiting : List ℕ := s.runs.rows.values.filterMap (fun run => run.phase.task.map ExitTask.positionId)

def IsOpen (id : ℕ) : Prop := (s.positions.get? id).map (·.status) = some "open"

/-- The row of the position is open, and no run is selling it. -/
def Free (id : ℕ) : Prop := s.IsOpen id ∧ id ∉ s.exiting

/-- The call that the next signal of a run leads to. -/
def due (i : ℕ) : Option ExitArgs :=
  match s.phase? i with
  | some (.exiting rows (signal :: _) none) => callFor rows s.accountId signal
  | _ => none

/-- The request that a run is about to place. -/
def request? (i : ℕ) : Option OrderRequest :=
  match s.task? i with
  | some ⟨exit, .placing⟩ => exit.run.request exit.run.quantity
  | _ => none

/-- A run starts an exit only while its position is free; the answer to an order that was filled arrives;
and after it the execution is recorded and the row closed without a failure. -/
def Meets : JobStep → Prop
  | .next i => ∀ exit ∈ s.due i, s.Free exit.position.id
  | .placeOrder i broker lost => ∀ request ∈ s.request? i, ¬ Unfilled (broker.answer request) → lost = false
  | .recordExecution i fails | .close i fails _ => (s.task? i).any (·.phase.sold) = true → fails = false
  | .start _ | .create _ | .getOpen .. | .getPrice .. | .verify .. | .approve .. => True

instance (id : ℕ) : Decidable (s.IsOpen id) := by unfold IsOpen; infer_instance

instance (id : ℕ) : Decidable (s.Free id) := by unfold Free; infer_instance

instance (e : JobStep) : Decidable (s.Meets e) := by
  cases e <;> unfold Meets <;> infer_instance

/-! ## Looking up phases and tasks -/

variable {s} {s' : Desk} {i : ℕ} {phase phase' : RunPhase}

theorem phase?_setPhase (h : s.phase? i = some phase) (phase' : RunPhase) (j : ℕ) :
    (s.setPhase i phase').phase? j = if j = i then some phase' else s.phase? j := by
  unfold phase? at h ⊢
  obtain ⟨run, hrun, _⟩ := Option.map_eq_some_iff.1 h
  unfold setPhase
  rw [Table.get?_update]
  split
  · rw [hrun]
    rfl
  · rfl

theorem task?_setPhase (h : s.phase? i = some phase) (phase' : RunPhase) (j : ℕ) :
    (s.setPhase i phase').task? j = if j = i then phase'.task else s.task? j := by
  unfold task?
  rw [phase?_setPhase h]
  split <;> rfl

theorem task?_of_phase? (h : s.phase? i = some phase) : s.task? i = phase.task := by
  unfold task?
  rw [h]
  rfl

theorem mem_exiting {id : ℕ} : id ∈ s.exiting ↔ ∃ i task, s.task? i = some task ∧ task.positionId = id := by
  unfold exiting
  rw [List.mem_filterMap]
  constructor
  · rintro ⟨run, hrun, htask⟩
    obtain ⟨i, hget⟩ := (Table.mem_values_iff run).1 hrun
    obtain ⟨task, htask, hid⟩ := Option.map_eq_some_iff.1 htask
    refine ⟨i, task, ?_, hid⟩
    unfold task? phase?
    rw [hget]
    exact htask
  · rintro ⟨i, task, htask, hid⟩
    unfold task? phase? at htask
    obtain ⟨phase, hphase, htask⟩ := Option.bind_eq_some_iff.1 htask
    obtain ⟨run, hrun, rfl⟩ := Option.map_eq_some_iff.1 hphase
    exact ⟨run, (Table.mem_values_iff run).2 ⟨i, hrun⟩, by rw [htask, Option.map_some, hid]⟩

/-! ## What a step can do -/

/-- A row that was read agrees with the table in its quantity. -/
def Knows (s : Desk) (position : PositionRecord) : Prop :=
  ∃ row, s.positions.get? position.id = some row ∧ row.quantity = position.quantity

/-- How the exit of a run moves on. -/
inductive TaskMove (s : Desk) : Option ExitTask → Option ExitTask → Prop
  | idle : TaskMove s none none
  | begin (exit : ExitArgs) (hfree : s.Free exit.position.id) : TaskMove s none (some ⟨exit, .verifying⟩)
  | forward (exit : ExitArgs) (phase phase' : ExitPhase) (hsold : phase'.sold = phase.sold) :
    TaskMove s (some ⟨exit, phase⟩) (some ⟨exit, phase'⟩)
  | giveUp (exit : ExitArgs) (phase : ExitPhase) (hsold : phase.sold = false) :
    TaskMove s (some ⟨exit, phase⟩) none

/-- What a step does that meets the condition. -/
inductive Move (s : Desk) : Desk → Prop
  | idle : Move s s
  | start (trigger : Trigger) : Move s { s with runs := s.runs.insert (fun _ => { trigger }) }
  | create (position : PositionRecord) : Move s (s.create position)
  | turn (i : ℕ) (phase phase' : RunPhase) (h : s.phase? i = some phase)
      (hrows : ∀ position ∈ phase'.rows, position ∈ phase.rows ∨ s.Knows position)
      (htask : TaskMove s phase.task phase'.task) : Move s (s.setPhase i phase')
  | sell (i : ℕ) (rows : List PositionRecord) (signals : List ExitSignal) (exit : ExitArgs) (fillPrice : Decimal)
      (quantity : ℤ) (h : s.phase? i = some (.exiting rows signals (some ⟨exit, .placing⟩)))
      (hquantity : quantity ≤ exit.position.quantity) :
    Move s ((s.sell ⟨exit.position.id, quantity⟩).setPhase i
      (.exiting rows signals (some ⟨exit, .recording fillPrice⟩)))
  | close (i : ℕ) (rows : List PositionRecord) (signals : List ExitSignal) (exit : ExitArgs) (fillPrice : Decimal)
      (today : ℤ) (h : s.phase? i = some (.exiting rows signals (some ⟨exit, .closing fillPrice⟩))) :
    Move s ((s.closeRow exit fillPrice today).setPhase i (.exiting rows signals none))

/-- A turn of a run that gives its exit up or takes it on, with the rows and signals at hand. -/
theorem Move.onward {rows : List PositionRecord} {signals : List ExitSignal} {exit : ExitArgs}
    {phase : ExitPhase} (h : s.phase? i = some (.exiting rows signals (some ⟨exit, phase⟩)))
    {task : Option ExitTask} (htask : TaskMove s (some ⟨exit, phase⟩) task) :
    Move s (s.setPhase i (.exiting rows signals task)) := by
  refine .turn i _ _ h (fun position hmem => .inl ?_) htask
  cases htask with
  | forward => exact hmem
  | giveUp =>
    refine List.mem_append_left _ ?_
    simpa [RunPhase.rows] using hmem

/-- A call is for one of the rows at hand. -/
theorem mem_rows_of_callFor {rows : List PositionRecord} {accountId : String} {signal : ExitSignal}
    {exit : ExitArgs} (h : callFor rows accountId signal = some exit) : exit.position ∈ rows := by
  unfold callFor at h
  split at h
  · obtain ⟨position, hmatch, rfl⟩ := Option.map_eq_some_iff.1 h
    exact List.mem_of_find?_eq_some hmatch
  · cases h

theorem start_move (trigger : Trigger) : Move s (s.start trigger) := by
  unfold start
  split
  · exact .idle
  · exact .start trigger

theorem getOpen_move (i : ℕ) (rowOrder : Option RowOrder) (today : ℤ) : Move s (s.getOpen i rowOrder today) := by
  unfold getOpen
  split
  · rename_i rowOrder hphase
    refine .turn i _ _ hphase (fun position hmem => .inr ?_) .idle
    obtain ⟨⟨id, hget⟩, _⟩ := PositionManager.mem_openRows.1 hmem
    have hid : position.id = id := s.numbered id position hget
    exact ⟨position, by rw [hid, hget], rfl⟩
  · rename_i hphase
    exact .turn i _ _ hphase (fun _ hmem => by cases hmem) .idle
  · exact .idle

theorem getPrice_move (i : ℕ) (price : Option Decimal) : Move s (s.getPrice i price) := by
  unfold getPrice
  split
  · rename_i hphase
    exact .turn i _ _ hphase (fun _ hmem => .inl hmem) .idle
  · exact .idle

/-- A run begins an exit only here, for a position that is free. -/
theorem next_move (h : s.Meets (.next i)) : Move s (s.next i) := by
  unfold next
  split
  · rename_i hphase
    refine .turn i _ _ hphase (fun _ hmem => .inl ?_) .idle
    simpa [RunPhase.rows] using hmem
  · rename_i rows signal signals hphase
    have hdue : s.due i = callFor rows s.accountId signal := by
      unfold due
      rw [hphase]
    have hfree : ∀ exit ∈ s.due i, s.Free exit.position.id := h
    rw [hdue] at hfree
    cases hcall : callFor rows s.accountId signal with
    | none =>
      refine .turn i _ _ hphase (fun _ hmem => .inl ?_) .idle
      simpa [RunPhase.rows] using hmem
    | some exit =>
      refine .turn i _ _ hphase (fun position hmem => .inl ?_) (.begin exit (hfree exit hcall))
      -- the position of the exit is among the rows, so nothing new is known
      have hposition : exit.position ∈ rows := mem_rows_of_callFor hcall
      simp only [RunPhase.rows, Option.map_some, Option.map_none, Option.toList_some, Option.toList_none,
        List.append_nil, List.mem_append, List.mem_singleton] at hmem ⊢
      rcases hmem with hmem | rfl
      · exact hmem
      · exact hposition
  · rename_i hphase
    exact .turn i _ _ hphase (fun _ hmem => by cases hmem) .idle
  · exact .idle

theorem verify_move (i : ℕ) (passes : Bool) : Move s (s.verify i passes) := by
  unfold verify
  split
  · rename_i hphase
    refine .onward hphase ?_
    cases passes
    · exact .giveUp _ _ rfl
    · exact .forward _ _ _ rfl
  · exact .idle

theorem approve_move (i : ℕ) (passes : Bool) : Move s (s.approve i passes) := by
  unfold approve
  split
  · rename_i hphase
    refine .onward hphase ?_
    cases passes
    · exact .giveUp _ _ rfl
    · exact .forward _ _ _ rfl
  · exact .idle

/-- An order that is filled sells, and its answer arrives. -/
theorem placeOrder_move {broker : Broker} {lost : Bool} (h : s.Meets (.placeOrder i broker lost)) :
    Move s (s.placeOrder i broker lost) := by
  unfold placeOrder
  split
  · rename_i rows signals exit hphase
    split
    · exact .onward hphase (.giveUp _ _ rfl)
    · rename_i request hreq
      split
      · exact .onward hphase (.giveUp _ _ rfl)
      · rename_i hfilled
        have hrequest : s.request? i = some request := by
          unfold request?
          rw [task?_of_phase? hphase]
          exact hreq
        rw [h request hrequest hfilled]
        refine .sell i rows signals exit _ _ hphase ((broker.fills_le request).trans_eq ?_)
        exact (OrderExecutor.Run.request_eq_some hreq).2.2.1
  · exact .idle

theorem recordExecution_move {fails : Bool} (h : s.Meets (.recordExecution i fails)) :
    Move s (s.recordExecution i fails) := by
  unfold recordExecution
  split
  · rename_i hphase
    rw [h (by rw [task?_of_phase? hphase]; rfl)]
    exact .onward hphase (.forward _ _ _ rfl)
  · exact .idle

theorem close_move {fails : Bool} {today : ℤ} (h : s.Meets (.close i fails today)) :
    Move s (s.close i fails today) := by
  unfold close
  split
  · rename_i rows signals exit fillPrice hphase
    rw [h (by rw [task?_of_phase? hphase]; rfl)]
    exact .close i rows signals exit fillPrice today hphase
  · exact .idle

theorem step_move {e : JobStep} (h : s.Meets e) : Move s (s.step e) := by
  cases e with
  | start trigger => exact start_move trigger
  | create position => exact .create position
  | getOpen i rowOrder today => exact getOpen_move i rowOrder today
  | getPrice i price => exact getPrice_move i price
  | next i => exact next_move h
  | verify i passes => exact verify_move i passes
  | approve i passes => exact approve_move i passes
  | placeOrder i broker lost => exact placeOrder_move h
  | recordExecution i fails => exact recordExecution_move h
  | close i fails today => exact close_move h

/-! ## The invariant -/

/-- What holds of the desk along runs that meet the condition. -/
structure Inv (s : Desk) : Prop where
  known : ∀ i phase, s.phase? i = some phase → ∀ position ∈ phase.rows, s.Knows position
  exclusive : ∀ i j task task', s.task? i = some task → s.task? j = some task' →
    task.positionId = task'.positionId → i = j
  pending : ∀ i task, s.task? i = some task → s.IsOpen task.positionId ∧
    (s.salesOf task.positionId).length = if task.phase.sold then 1 else 0
  settled : ∀ sale ∈ s.sales, ¬ s.IsOpen sale.positionId ∨ ∃ i task, s.task? i = some task ∧
    task.positionId = sale.positionId
  once : ∀ id, (s.salesOf id).length ≤ 1
  within : ∀ sale ∈ s.sales, ∃ row, s.positions.get? sale.positionId = some row ∧ sale.quantity ≤ row.quantity

/-- A position that is free was not sold. -/
theorem Inv.unsold (h : s.Inv) {id : ℕ} (hfree : s.Free id) : s.salesOf id = [] := by
  refine List.filter_eq_nil_iff.2 fun sale hsale heq => ?_
  have hid : sale.positionId = id := of_decide_eq_true heq
  rcases h.settled sale hsale with hclosed | ⟨i, task, htask, htaskId⟩
  · exact hclosed (hid ▸ hfree.1)
  · exact hfree.2 (mem_exiting.2 ⟨i, task, htask, htaskId.trans hid⟩)

theorem Inv.soldOnce (h : s.Inv) : s.SoldOnce := by
  refine ⟨h.once, fun sale hsale => ?_⟩
  obtain ⟨row, hrow, hle⟩ := h.within sale hsale
  have hmem : sale ∈ s.salesOf sale.positionId := List.mem_filter.2 ⟨hsale, by simp⟩
  have hone := h.once sale.positionId
  obtain ⟨only, honly⟩ : ∃ only, s.salesOf sale.positionId = [only] := by
    cases hl : s.salesOf sale.positionId with
    | nil => rw [hl] at hmem; cases hmem
    | cons only rest =>
      rw [hl, List.length_cons] at hone
      have hrest : rest = [] := List.length_eq_zero_iff.1 (by omega)
      exact ⟨only, by rw [hrest]⟩
  rw [honly, List.mem_singleton] at hmem
  refine ⟨row, hrow, ?_⟩
  rw [honly, ← hmem]
  simpa using hle

/-- A run that moves on knows the rows it reads by then, if it knew them or just read them. -/
theorem Inv.known_setPhase (hs : s.Inv) (h : s.phase? i = some phase)
    (hrows : ∀ position ∈ phase'.rows, position ∈ phase.rows ∨ s.Knows position) {j : ℕ} {ph : RunPhase}
    (hph : (s.setPhase i phase').phase? j = some ph) : ∀ position ∈ ph.rows, s.Knows position := by
  rw [phase?_setPhase h] at hph
  split at hph
  · cases hph
    exact fun position hmem => (hrows position hmem).elim (hs.known i phase h position) id
  · exact hs.known j ph hph

/-- Two runs are at different positions. -/
theorem Inv.elsewhere (hs : s.Inv) {j : ℕ} {task task' : ExitTask} (htask : s.task? i = some task) (hji : j ≠ i)
    (htask' : s.task? j = some task') : task'.positionId ≠ task.positionId :=
  fun hid => hji (hs.exclusive j i task' task htask' htask hid)

/-- Exits stay exclusive as long as no run begins one. -/
theorem Inv.exclusive_of (hs : s.Inv) {s' : Desk} (hold : ∀ j task, s'.task? j = some task →
    ∃ task', s.task? j = some task' ∧ task'.positionId = task.positionId) {j k : ℕ} {task task' : ExitTask}
    (hj : s'.task? j = some task) (hk : s'.task? k = some task') (hid : task.positionId = task'.positionId) :
    j = k := by
  obtain ⟨t, ht, htid⟩ := hold j task hj
  obtain ⟨t', ht', htid'⟩ := hold k task' hk
  exact hs.exclusive j k t t' ht ht' (htid.trans (hid.trans htid'.symm))

/-- The tasks after a turn: those there were, and one that was just begun on a free position. -/
theorem task?_of_turn (h : s.phase? i = some phase) (htask : TaskMove s phase.task phase'.task) {j : ℕ}
    {task' : ExitTask} (h' : (s.setPhase i phase').task? j = some task') :
    (∃ task, s.task? j = some task ∧ task.positionId = task'.positionId ∧ task.phase.sold = task'.phase.sold) ∨
      (j = i ∧ task'.phase.sold = false ∧ s.Free task'.positionId) := by
  rw [task?_setPhase h] at h'
  split at h'
  · rename_i hj
    subst hj
    rw [task?_of_phase? h]
    generalize phase.task = t at htask
    generalize phase'.task = t' at htask h'
    subst h'
    cases htask with
    | begin exit hfree => exact .inr ⟨rfl, rfl, hfree⟩
    | forward exit ph ph' hsold => exact .inl ⟨_, rfl, rfl, hsold.symm⟩
  · exact .inl ⟨task', h', rfl, rfl⟩

/-- A task that is gone after a turn had not sold anything. -/
theorem task?_after_turn (h : s.phase? i = some phase) (htask : TaskMove s phase.task phase'.task) {j : ℕ}
    {task : ExitTask} (h' : s.task? j = some task) :
    (∃ task', (s.setPhase i phase').task? j = some task' ∧ task'.positionId = task.positionId) ∨
      task.phase.sold = false := by
  rw [task?_setPhase h]
  split
  · rename_i hj
    subst hj
    rw [task?_of_phase? h] at h'
    generalize phase.task = t at htask h'
    generalize phase'.task = t' at htask
    subst h'
    cases htask with
    | forward exit ph ph' hsold => exact .inl ⟨_, rfl, rfl⟩
    | giveUp exit ph hsold => exact .inr hsold
  · exact .inl ⟨task, h', rfl⟩

theorem Inv.turn (hs : s.Inv) (h : s.phase? i = some phase)
    (hrows : ∀ position ∈ phase'.rows, position ∈ phase.rows ∨ s.Knows position)
    (htask : TaskMove s phase.task phase'.task) : (s.setPhase i phase').Inv := by
  refine ⟨fun j ph hph position hmem => ?_, fun j k task task' hj hk hid => ?_, fun j task hj => ?_,
    fun sale hsale => ?_, hs.once, hs.within⟩
  · exact hs.known_setPhase h hrows hph position hmem
  · have hnew : ∀ {j k : ℕ} {t t' : ExitTask}, s.Free t.positionId → s.task? k = some t' →
        t'.positionId ≠ t.positionId := fun hfree ht' heq => hfree.2 (mem_exiting.2 ⟨_, _, ht', heq⟩)
    rcases task?_of_turn h htask hj with ⟨t, ht, htid, _⟩ | ⟨hji, _, hfree⟩
    · rcases task?_of_turn h htask hk with ⟨t', ht', htid', _⟩ | ⟨_, _, hfree'⟩
      · exact hs.exclusive j k t t' ht ht' (htid.trans (hid.trans htid'.symm))
      · exact absurd (htid.trans hid) (hnew (j := j) hfree' ht)
    · rcases task?_of_turn h htask hk with ⟨t', ht', htid', _⟩ | ⟨hki, _, _⟩
      · exact absurd (htid'.trans hid.symm) (hnew (j := j) hfree ht')
      · rw [hji, hki]
  · rcases task?_of_turn h htask hj with ⟨t, ht, htid, hsold⟩ | ⟨_, hsold, hfree⟩
    · have := hs.pending j t ht
      rw [htid, hsold] at this
      exact this
    · refine ⟨hfree.1, ?_⟩
      show (s.salesOf task.positionId).length = _
      rw [hs.unsold hfree, hsold]
      rfl
  · rcases hs.settled sale hsale with hclosed | ⟨j, task, hj, hid⟩
    · exact .inl hclosed
    · rcases task?_after_turn h htask hj with ⟨task', hj', hid'⟩ | hsold
      · exact .inr ⟨j, task', hj', hid'.trans hid⟩
      · have hcount := (hs.pending j task hj).2
        rw [hsold] at hcount
        have hnone := List.length_eq_zero_iff.1 hcount
        have hmem : sale ∈ s.salesOf task.positionId := List.mem_filter.2 ⟨hsale, by simp [hid]⟩
        rw [hnone] at hmem
        cases hmem

theorem salesOf_sell (sale : Sale) (id : ℕ) :
    (s.sell sale).salesOf id = s.salesOf id ++ if sale.positionId = id then [sale] else [] := by
  unfold salesOf sell
  rw [List.filter_append, List.filter_singleton]
  by_cases hid : sale.positionId = id <;> simp [hid]

/-- The order of a run is filled: it goes on at the same position, and the other runs stay where they are. -/
theorem task?_sell {rows : List PositionRecord} {signals : List ExitSignal} {exit : ExitArgs} {fillPrice : Decimal}
    {sale : Sale} (h : s.phase? i = some (.exiting rows signals (some ⟨exit, .placing⟩))) (j : ℕ) :
    ((s.sell sale).setPhase i (.exiting rows signals (some ⟨exit, .recording fillPrice⟩))).task? j =
      if j = i then some ⟨exit, .recording fillPrice⟩ else s.task? j :=
  task?_setPhase (s := s.sell sale) h _ j

theorem Inv.sell (hs : s.Inv) {rows : List PositionRecord} {signals : List ExitSignal} {exit : ExitArgs}
    {fillPrice : Decimal} {quantity : ℤ} (h : s.phase? i = some (.exiting rows signals (some ⟨exit, .placing⟩)))
    (hquantity : quantity ≤ exit.position.quantity) :
    ((s.sell ⟨exit.position.id, quantity⟩).setPhase i (.exiting rows signals
      (some ⟨exit, .recording fillPrice⟩))).Inv := by
  have htask : s.task? i = some ⟨exit, .placing⟩ := task?_of_phase? h
  obtain ⟨hopen, hunsold⟩ := hs.pending i _ htask
  have hnone : (s.salesOf exit.position.id).length = 0 := hunsold
  have hold : ∀ j task, ((s.sell ⟨exit.position.id, quantity⟩).setPhase i
      (.exiting rows signals (some ⟨exit, .recording fillPrice⟩))).task? j = some task →
      ∃ task', s.task? j = some task' ∧ task'.positionId = task.positionId := by
    intro j task hj
    rw [task?_sell h] at hj
    split at hj
    · rename_i hji
      cases hj
      exact ⟨⟨exit, .placing⟩, hji ▸ htask, rfl⟩
    · exact ⟨task, hj, rfl⟩
  have hrows : ∀ position ∈ (RunPhase.exiting rows signals (some ⟨exit, .recording fillPrice⟩)).rows,
      position ∈ (RunPhase.exiting rows signals (some ⟨exit, .placing⟩)).rows ∨ s.Knows position :=
    fun _ hmem => .inl hmem
  refine ⟨fun j ph hph => hs.known_setPhase h hrows hph, fun j k task task' => hs.exclusive_of hold,
    fun j task hj => ?_, fun sale hsale => ?_, fun id => ?_, fun sale hsale => ?_⟩
  · show _ ∧ ((s.sell _).salesOf task.positionId).length = _
    rw [task?_sell h] at hj
    rw [salesOf_sell]
    split at hj
    · cases hj
      refine ⟨hopen, ?_⟩
      have hself : Sale.positionId ⟨exit.position.id, quantity⟩ =
          ExitTask.positionId ⟨exit, .recording fillPrice⟩ := rfl
      rw [List.length_append, if_pos hself]
      exact congrArg (· + 1) hunsold
    · rename_i hji
      -- the other runs are at other positions
      have hother : exit.position.id ≠ task.positionId := (hs.elsewhere htask hji hj).symm
      rw [if_neg hother, List.append_nil]
      exact hs.pending j task hj
  · rcases List.mem_append.1 hsale with hsale | hsale
    · refine (hs.settled sale hsale).imp_right ?_
      rintro ⟨j, task, hj, htaskId⟩
      refine ⟨j, ?_⟩
      rw [task?_sell h]
      split
      · rename_i hji
        rw [hji, htask] at hj
        cases hj
        exact ⟨_, rfl, htaskId⟩
      · exact ⟨task, hj, htaskId⟩
    · rw [List.mem_singleton.1 hsale]
      exact .inr ⟨i, _, (task?_sell h i).trans (if_pos rfl), rfl⟩
  · show ((s.sell _).salesOf id).length ≤ 1
    rw [salesOf_sell]
    split
    · rename_i heq
      subst heq
      simp [hnone]
    · rw [List.append_nil]
      exact hs.once id
  · rcases List.mem_append.1 hsale with hsale | hsale
    · exact hs.within sale hsale
    · obtain ⟨row, hrow, hq⟩ := hs.known i _ h exit.position (by simp [RunPhase.rows])
      rw [List.mem_singleton.1 hsale]
      exact ⟨row, hrow, hq ▸ hquantity⟩

/-- The runs and tables after a step that leaves exits and sales alone, and no row gets lost. -/
theorem Inv.of_same {s' : Desk} (hs : s.Inv) (htasks : s'.task? = s.task?) (hsales : s'.sales = s.sales)
    (hget : ∀ id row, s.positions.get? id = some row → s'.positions.get? id = some row)
    (hnew : ∀ sale ∈ s.sales, ∀ row, s'.positions.get? sale.positionId = some row →
      s.positions.get? sale.positionId = some row)
    (hknown : ∀ i phase, s'.phase? i = some phase → phase.rows = [] ∨ s.phase? i = some phase) : s'.Inv := by
  have hsalesOf : s'.salesOf = s.salesOf := by
    funext id
    unfold salesOf
    rw [hsales]
  have hopen : ∀ id, s.IsOpen id → s'.IsOpen id := by
    intro id h
    unfold IsOpen at h ⊢
    obtain ⟨row, hrow, hstatus⟩ := Option.map_eq_some_iff.1 h
    rw [hget id row hrow, Option.map_some, hstatus]
  refine ⟨fun i phase hphase position hmem => ?_, by rw [htasks]; exact hs.exclusive, fun i task htask => ?_,
    fun sale hsale => ?_, by rw [hsalesOf]; exact hs.once, fun sale hsale => ?_⟩
  · rcases hknown i phase hphase with hnone | hold
    · rw [hnone] at hmem
      cases hmem
    · obtain ⟨row, hrow, hq⟩ := hs.known i phase hold position hmem
      exact ⟨row, hget _ row hrow, hq⟩
  · rw [htasks] at htask
    rw [hsalesOf]
    exact ⟨hopen _ (hs.pending i task htask).1, (hs.pending i task htask).2⟩
  · rw [hsales] at hsale
    rw [htasks]
    refine (hs.settled sale hsale).imp_left fun hclosed h => hclosed ?_
    unfold IsOpen at h ⊢
    obtain ⟨row, hrow, hstatus⟩ := Option.map_eq_some_iff.1 h
    rw [hnew sale hsale row hrow, Option.map_some, hstatus]
  · rw [hsales] at hsale
    obtain ⟨row, hrow, hle⟩ := hs.within sale hsale
    exact ⟨row, hget _ row hrow, hle⟩

theorem Inv.start (hs : s.Inv) (trigger : Trigger) :
    Inv { s with runs := s.runs.insert (fun _ => { trigger }) } := by
  have hphase : ∀ i, Desk.phase? { s with runs := s.runs.insert (fun _ => { trigger }) } i =
      if i = s.runs.nextId then some .reading else s.phase? i := by
    intro i
    unfold phase?
    rw [Table.get?_insert]
    split <;> rfl
  refine hs.of_same (funext fun i => ?_) rfl (fun _ _ h => h) (fun _ _ _ h => h) fun i phase h => ?_
  · unfold task?
    rw [hphase]
    split
    · rename_i hi
      unfold phase?
      rw [hi, s.runs.get?_nextId]
      rfl
    · rfl
  · rw [hphase] at h
    split at h
    · cases h
      exact .inl rfl
    · exact .inr h

theorem Inv.create (hs : s.Inv) (position : PositionRecord) : (s.create position).Inv := by
  have hget : ∀ id row, s.positions.get? id = some row → (s.create position).positions.get? id = some row := by
    intro id row hrow
    show (s.positions.insert _).get? id = some row
    rw [Table.get?_insert, if_neg (Nat.ne_of_lt (Table.lt_nextId hrow)), hrow]
  refine hs.of_same rfl rfl hget (fun sale hsale row hrow => ?_) fun _ _ h => .inr h
  obtain ⟨row', hrow', _⟩ := hs.within sale hsale
  rw [hget _ row' hrow'] at hrow
  exact hrow'.trans hrow

/-- What closing a row does to the table. -/
theorem get?_closeRow (exit : ExitArgs) (fillPrice : Decimal) (today : ℤ) (id : ℕ) :
    ((s.closeRow exit fillPrice today).positions.get? id).map (·.quantity) = (s.positions.get? id).map (·.quantity) ∧
      (id ≠ exit.position.id → (s.closeRow exit fillPrice today).IsOpen id = s.IsOpen id) ∧
      (s.IsOpen exit.position.id → ¬ (s.closeRow exit fillPrice today).IsOpen exit.position.id) := by
  unfold closeRow IsOpen closeIn
  dsimp only
  split
  · rename_i hnone
    refine ⟨rfl, fun _ => rfl, fun h => ?_⟩
    rw [hnone] at h
    cases h
  · rename_i row hrow
    split
    · rename_i hclosed
      refine ⟨rfl, fun _ => rfl, fun h => ?_⟩
      rw [hrow, Option.map_some, hclosed] at h
      exact absurd h (by decide)
    · refine ⟨?_, fun hne => ?_, fun _ h => ?_⟩
      · rw [Table.get?_update]
        split
        · rename_i hid
          rw [hid, hrow]
          rfl
        · rfl
      · rw [Table.get?_update, if_neg hne]
      · rw [Table.get?_update, if_pos rfl, hrow] at h
        simp [PositionRecord.closedOn] at h

theorem Knows.closeRow {position : PositionRecord} (h : s.Knows position) (exit : ExitArgs) (fillPrice : Decimal)
    (today : ℤ) : (s.closeRow exit fillPrice today).Knows position := by
  obtain ⟨row, hget, hq⟩ := h
  have hquantity := (get?_closeRow (s := s) exit fillPrice today position.id).1
  rw [hget] at hquantity
  obtain ⟨row', hget', hq'⟩ := Option.map_eq_some_iff.1 hquantity
  exact ⟨row', hget', hq'.trans hq⟩

theorem Inv.close (hs : s.Inv) {rows : List PositionRecord} {signals : List ExitSignal} {exit : ExitArgs}
    {fillPrice : Decimal} (today : ℤ)
    (h : s.phase? i = some (.exiting rows signals (some ⟨exit, .closing fillPrice⟩))) :
    ((s.closeRow exit fillPrice today).setPhase i (.exiting rows signals none)).Inv := by
  have htasks : ∀ j, ((s.closeRow exit fillPrice today).setPhase i (.exiting rows signals none)).task? j =
      if j = i then none else s.task? j := fun j => task?_setPhase (s := s.closeRow exit fillPrice today) h _ j
  have htask : s.task? i = some ⟨exit, .closing fillPrice⟩ := task?_of_phase? h
  have hstays : ∀ {j : ℕ} {task : ExitTask}, ((s.closeRow exit fillPrice today).setPhase i
      (.exiting rows signals none)).task? j = some task → j ≠ i ∧ s.task? j = some task := by
    intro j task hj
    rw [htasks] at hj
    split at hj
    · cases hj
    · exact ⟨‹_›, hj⟩
  refine ⟨fun j ph hph position hmem => ?_,
    fun j k task task' => hs.exclusive_of fun _ t hj => ⟨t, (hstays hj).2, rfl⟩, fun j task hj => ?_,
    fun sale hsale => ?_, hs.once, fun sale hsale => ?_⟩
  · have hrows : ∀ position ∈ (RunPhase.exiting rows signals none).rows,
        position ∈ (RunPhase.exiting rows signals (some ⟨exit, .closing fillPrice⟩)).rows ∨ s.Knows position :=
      fun p hp => .inl (List.mem_append_left _ (by simpa [RunPhase.rows] using hp))
    exact (hs.known_setPhase h hrows hph position hmem).closeRow exit fillPrice today
  · obtain ⟨hji, hj⟩ := hstays hj
    obtain ⟨hopen, hcount⟩ := hs.pending j task hj
    refine ⟨?_, hcount⟩
    show (s.closeRow exit fillPrice today).IsOpen task.positionId
    rw [(get?_closeRow exit fillPrice today task.positionId).2.1 (hs.elsewhere htask hji hj)]
    exact hopen
  · show ¬ (s.closeRow exit fillPrice today).IsOpen sale.positionId ∨ _
    by_cases hid : sale.positionId = exit.position.id
    · rw [hid]
      exact .inl ((get?_closeRow exit fillPrice today exit.position.id).2.2 (hs.pending i _ htask).1)
    · rw [(get?_closeRow exit fillPrice today sale.positionId).2.1 hid]
      refine (hs.settled sale hsale).imp_right ?_
      rintro ⟨j, task, hj, htaskId⟩
      refine ⟨j, task, ?_, htaskId⟩
      rw [htasks, if_neg, hj]
      rintro rfl
      rw [htask] at hj
      cases hj
      exact hid htaskId.symm
  · obtain ⟨row, hget, hle⟩ := hs.within sale hsale
    have hquantity := (get?_closeRow (s := s) exit fillPrice today sale.positionId).1
    rw [hget] at hquantity
    obtain ⟨row', hget', hq⟩ := Option.map_eq_some_iff.1 hquantity
    exact ⟨row', hget', hq ▸ hle⟩

theorem Move.inv {s' : Desk} (h : s.Move s') (hs : s.Inv) : s'.Inv := by
  cases h with
  | idle => exact hs
  | start trigger => exact hs.start trigger
  | create position => exact hs.create position
  | turn i phase phase' h hrows htask => exact hs.turn h hrows htask
  | sell i rows signals exit fillPrice quantity h hquantity => exact hs.sell h hquantity
  | close i rows signals exit fillPrice today h => exact hs.close today h

/-! ## Runs -/

/-- The desk before any run. -/
def opened (accountId : String) (positions : Table PositionRecord) (numbered : positions.Numbered (·.id)) : Desk :=
  { accountId, positions, numbered }

theorem opened_inv (accountId : String) (positions : Table PositionRecord) (numbered : positions.Numbered (·.id)) :
    (opened accountId positions numbered).Inv where
  known _ _ h := by cases h
  exclusive _ _ _ _ h := by cases h
  pending _ _ h := by cases h
  settled _ h := by cases h
  once _ := Nat.zero_le 1
  within _ h := by cases h

/-- Along every interleaving of any number of runs whose steps meet the condition, the broker fills at most
one SELL for each position, for no more than its quantity. -/
theorem soldOnce_of_run (accountId : String) (positions : Table PositionRecord)
    (numbered : positions.Numbered (·.id)) (steps : List JobStep)
    (h : Async.Along Desk.step Desk.Meets steps (opened accountId positions numbered)) (k : ℕ) :
    SoldOnce (Async.runSteps Desk.step (steps.take k) (opened accountId positions numbered)) :=
  (Async.along_keeps (I := Inv) (fun _ _ hs he => (step_move he).inv hs) h
    (opened_inv accountId positions numbered) k).soldOnce

/-! ## One run, and two that overlap -/

/-- A broker that fills every order. -/
def fillBroker : Broker := ⟨fillAll, fun _ => le_rfl⟩

/-- Ten shares with a stop at 65,000 won. -/
def tenShares : Desk :=
  opened "default" (Table.empty.insert (fun id => stopAt65000 id .swing 10)) (Table.numbered_empty.insert rfl)

/-- A run reads the position and its price. -/
def readsPrice (i : ℕ) : List JobStep :=
  [.getOpen i (some .inserted) 0, .getPrice i (some 60000), .next i]

/-- A run sells the position that it read. -/
def sells (i : ℕ) : List JobStep :=
  [.next i, .verify i true, .approve i true, .placeOrder i fillBroker false, .recordExecution i false,
    .close i false 0, .next i]

/-- A run of the trigger from its start to its end. -/
def oneRun : List JobStep := .start .interval :: (readsPrice 1 ++ sells 1)

/-- A run is started by hand before the run of the trigger has sold what it read. -/
def twoRuns : List JobStep :=
  .start .interval :: .start .runJobNow :: (readsPrice 1 ++ readsPrice 2 ++ sells 1 ++ sells 2)

/-- One run sells the shares once. -/
theorem soldOnce_oneRun : SoldOnce (Async.runSteps Desk.step (oneRun.take 11) tenShares) ∧
    (Async.runSteps Desk.step oneRun tenShares).sales.map (·.quantity) = [10] :=
  ⟨soldOnce_of_run _ _ _ oneRun (by decide +kernel) 11, by decide +kernel⟩

/-- Both runs sell the position that they read. -/
theorem twoRuns_sell_twice : ¬ SoldOnce (Async.runSteps Desk.step twoRuns tenShares) := by
  intro h
  have hsold : (salesOf (Async.runSteps Desk.step twoRuns tenShares) 1).length = 2 := by decide +kernel
  have hone := h.once 1
  omega

end Desk

end TradingAgent
