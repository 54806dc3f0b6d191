/-
The responses to approval requests: the Telegram callback handler, cut at its awaits, and the approval
API, cut between its checks and its commit. `World.step` is one step of one of them; `Move` says once
what a step can do, and every invariant of the responses is a case split on it.
-/
import TradingAgent.Execution.World
import TradingAgent.Lib.Async

namespace TradingAgent

/-- A step of a response. A callback or an API call under way is named by its place in the list. -/
inductive Step
  -- a callback arrives and runs to its first await
  | tap (requestId : RequestId) (action : String)
  -- its transaction commits, or fails and is logged
  | callbackCommit (i : ℕ) (fails : Bool)
  -- its Redis write, and its message update, end or fail and are logged
  | callbackRedis (i : ℕ)
  | callbackTelegram (i : ℕ)
  | callbackSignal (i : ℕ)
  -- an API call arrives and passes its checks, or is turned down
  | respond (requestId : RequestId) (body : ApprovalResponse)
  | respondCommit (i : ℕ) (fails : Bool)

namespace World

variable (w : World)

/-- The transaction of a response: the request and its order get the status, and the quantity if the
response carries one. -/
def writeAnswer (requestId : RequestId) (orderId : ℕ) (status : ApprovalStatus)
    (modifiedQuantity : Option ℤ) (responseReason : String) : World :=
  { w with
    approvals := w.approvals.modify requestId (fun r => { r with
      status := .settled status
      responseReason := responseReason
      modifiedQuantity := modifiedQuantity.or r.modifiedQuantity })
    orders := w.orders.update orderId (fun o => { o with
      approvalStatus := status
      modifiedQuantity := modifiedQuantity.or o.modifiedQuantity })
    trace := w.trace ++ [.committed requestId modifiedQuantity] }

/-! ## The callback handler -/

/-- `_handle_callback` up to its first await: ignored unless the request is pending. -/
def handleCallback (requestId : RequestId) (action : String) : World :=
  if w.pendingEvents.contains requestId then
    match h : parseAction action with
    | none => w
    | some answer =>
      { w with
        callbacks := w.callbacks ++ [⟨requestId, action, answer, .database, h⟩]
        trace := w.trace ++ [.accepted requestId answer.status] }
  else w

/-- Move callback `i` on to a phase. -/
def setPhase (i : ℕ) (cb : Callback) (phase : CallbackPhase) : World :=
  { w with callbacks := w.callbacks.set i { cb with phase } }

/-- The transaction of a callback. The order is the one that the request names. -/
def callbackCommit (i : ℕ) (cb : Callback) (fails : Bool) : World :=
  let w' := w.setPhase i cb .redis
  if fails then w'
  else match w.approvals.get? cb.requestId with
    | none => w'
    | some row => w'.writeAnswer cb.requestId row.orderId cb.answer.status cb.answer.modifiedQuantity
        cb.answer.responseReason

/-- The end of a callback: the result is stored and the event set; without an event this raises, with
the result stored. -/
def callbackSignal (i : ℕ) (cb : Callback) : World :=
  { w with
    callbacks := w.callbacks.eraseIdx i
    pendingResults := w.pendingResults.set cb.requestId cb.answer.status
    modifiedQuantities := match cb.answer.modifiedQuantity with
      | some q => w.modifiedQuantities.set cb.requestId q
      | none => w.modifiedQuantities
    pendingEvents := w.pendingEvents.modify cb.requestId (fun _ => true)
    trace := w.trace ++ [.handled cb.requestId cb.action] }

/-! ## The approval API -/

/-- `respond_to_approval` up to its transaction: not found, already responded and a missing quantity
are turned down. -/
def respondToApproval (requestId : RequestId) (body : ApprovalResponse) : World :=
  match w.approvals.get? requestId with
  | none => w
  | some row =>
    if row.status ≠ .pending then w
    else if body.action = .modify ∧ body.modifiedQuantity = none then w
    else
      { w with
        apiCalls := w.apiCalls ++ [⟨requestId, row.orderId, body⟩]
        trace := w.trace ++ [.accepted requestId body.newStatus] }

def respondCommit (i : ℕ) (call : ApiCall) (fails : Bool) : World :=
  let w' := { w with apiCalls := w.apiCalls.eraseIdx i }
  if fails then w'
  else w'.writeAnswer call.requestId call.orderId call.body.newStatus call.body.modifiedQuantity
    ("api_" ++ call.body.action.value)

/-! ## Steps -/

/-- One step of a response; a step that does not fit its phase is no step. -/
def step : Step → World
  | .tap requestId action => w.handleCallback requestId action
  | .callbackCommit i fails =>
    match w.callbacks[i]? with
    | none => w
    | some cb => if cb.phase = .database then w.callbackCommit i cb fails else w
  | .callbackRedis i =>
    match w.callbacks[i]? with
    | none => w
    | some cb => if cb.phase = .redis then w.setPhase i cb .telegram else w
  | .callbackTelegram i =>
    match w.callbacks[i]? with
    | none => w
    | some cb => if cb.phase = .telegram then w.setPhase i cb .signal else w
  | .callbackSignal i =>
    match w.callbacks[i]? with
    | none => w
    | some cb => if cb.phase = .signal then w.callbackSignal i cb else w
  | .respond requestId body => w.respondToApproval requestId body
  | .respondCommit i fails =>
    match w.apiCalls[i]? with
    | none => w
    | some call => w.respondCommit i call fails

end World

/-- The database write of the step, if it has one, succeeds. -/
def Step.Commits : Step → Prop
  | .callbackCommit _ fails => fails = false
  | .respondCommit _ fails => fails = false
  | _ => True

instance : DecidablePred Step.Commits
  | .callbackCommit _ fails => inferInstanceAs (Decidable (fails = false))
  | .respondCommit _ fails => inferInstanceAs (Decidable (fails = false))
  | .tap .. | .callbackRedis _ | .callbackTelegram _ | .callbackSignal _ | .respond .. => .isTrue trivial

/-! ## What a step does -/

/-- What a step can do to the world, with what it checked before. -/
inductive Move (w : World) (e : Step) : World → Prop
  | idle : Move w e w
  | tap (cb : Callback) (hphase : cb.phase = .database) (hpending : w.pendingEvents.contains cb.requestId = true) :
    Move w e { w with
      callbacks := w.callbacks ++ [cb]
      trace := w.trace ++ [.accepted cb.requestId cb.answer.status] }
  | fail (i : ℕ) (cb : Callback) (hcb : w.callbacks[i]? = some cb) (hphase : cb.phase = .database)
      (hfail : ¬ e.Commits ∨ w.approvals.get? cb.requestId = none) :
    Move w e (w.setPhase i cb .redis)
  | commit (i : ℕ) (cb : Callback) (row : ApprovalRequestDB) (hcb : w.callbacks[i]? = some cb)
      (hphase : cb.phase = .database) (hrow : w.approvals.get? cb.requestId = some row) :
    Move w e ((w.setPhase i cb .redis).writeAnswer cb.requestId row.orderId cb.answer.status
      cb.answer.modifiedQuantity cb.answer.responseReason)
  | next (i : ℕ) (cb : Callback) (phase : CallbackPhase) (hcb : w.callbacks[i]? = some cb)
      (hphase : cb.phase ≠ .database) (hnext : phase ≠ .database) :
    Move w e (w.setPhase i cb phase)
  | signal (i : ℕ) (cb : Callback) (hcb : w.callbacks[i]? = some cb) (hphase : cb.phase = .signal) :
    Move w e (w.callbackSignal i cb)
  | respond (row : ApprovalRequestDB) (call : ApiCall) (hrow : w.approvals.get? call.requestId = some row)
      (hpending : row.status = .pending) (horder : call.orderId = row.orderId) :
    Move w e { w with
      apiCalls := w.apiCalls ++ [call]
      trace := w.trace ++ [.accepted call.requestId call.body.newStatus] }
  | respondFail (i : ℕ) (call : ApiCall) (hcall : w.apiCalls[i]? = some call) :
    Move w e { w with apiCalls := w.apiCalls.eraseIdx i }
  | respondCommit (i : ℕ) (call : ApiCall) (hcall : w.apiCalls[i]? = some call) :
    Move w e (World.writeAnswer { w with apiCalls := w.apiCalls.eraseIdx i } call.requestId call.orderId
      call.body.newStatus call.body.modifiedQuantity ("api_" ++ call.body.action.value))

theorem step_move (w : World) (e : Step) : Move w e (w.step e) := by
  cases e with
  | tap requestId action =>
    simp only [World.step, World.handleCallback]
    split
    · rename_i hpending
      split
      · exact .idle
      · exact .tap ⟨requestId, action, _, .database, _⟩ rfl hpending
    · exact .idle
  | callbackCommit i fails =>
    simp only [World.step]
    split
    · exact .idle
    · rename_i cb hcb
      split
      · rename_i hphase
        simp only [World.callbackCommit]
        split
        · rename_i hf
          exact .fail i cb hcb hphase (.inl (by simp [Step.Commits, hf]))
        · split
          · rename_i hrow
            exact .fail i cb hcb hphase (.inr hrow)
          · rename_i row hrow
            exact .commit i cb row hcb hphase hrow
      · exact .idle
  | callbackRedis i =>
    simp only [World.step]
    split
    · exact .idle
    · rename_i cb hcb
      split
      · rename_i hphase
        exact .next i cb .telegram hcb (by simp [hphase]) (by simp)
      · exact .idle
  | callbackTelegram i =>
    simp only [World.step]
    split
    · exact .idle
    · rename_i cb hcb
      split
      · rename_i hphase
        exact .next i cb .signal hcb (by simp [hphase]) (by simp)
      · exact .idle
  | callbackSignal i =>
    simp only [World.step]
    split
    · exact .idle
    · rename_i cb hcb
      split
      · rename_i hphase
        exact .signal i cb hcb hphase
      · exact .idle
  | respond requestId body =>
    simp only [World.step, World.respondToApproval]
    split
    · exact .idle
    · rename_i row hrow
      split
      · exact .idle
      · rename_i hpending
        split
        · exact .idle
        · exact .respond row ⟨requestId, row.orderId, body⟩ hrow (not_not.1 hpending) rfl
  | respondCommit i fails =>
    simp only [World.step]
    split
    · exact .idle
    · rename_i call hcall
      simp only [World.respondCommit]
      split
      · exact .respondFail i call hcall
      · exact .respondCommit i call hcall

/-! ## What no step touches -/

/-- Between the worlds the run logged the events `l` itself, and nothing changed a position. -/
structure Quiet (l : List Event) (w w' : World) : Prop where
  positions : w'.positions = w.positions
  executions : w'.executions = w.executions
  own : w'.own = w.own ++ l
  extends_ : w.trace <+: w'.trace

/-- Moreover no order changed its status. -/
structure Frame (l : List Event) (w w' : World) : Prop extends Quiet l w w' where
  status : ∀ id, (w'.orders.get? id).map (·.status) = (w.orders.get? id).map (·.status)

theorem Quiet.refl (w : World) : Quiet [] w w := ⟨rfl, rfl, (List.append_nil _).symm, List.prefix_refl _⟩

theorem Frame.refl (w : World) : Frame [] w w := ⟨.refl w, fun _ => rfl⟩

theorem Quiet.trans {l l' : List Event} {w w' w'' : World} (h : Quiet l w w') (h' : Quiet l' w' w'') :
    Quiet (l ++ l') w w'' :=
  ⟨h'.positions.trans h.positions, h'.executions.trans h.executions,
    by rw [h'.own, h.own, List.append_assoc], h.extends_.trans h'.extends_⟩

theorem Frame.trans {l l' : List Event} {w w' w'' : World} (h : Frame l w w') (h' : Frame l' w' w'') :
    Frame (l ++ l') w w'' :=
  ⟨h.toQuiet.trans h'.toQuiet, fun id => (h'.status id).trans (h.status id)⟩

/-- A step that is not logged by the run adds nothing to what it logged. -/
theorem Quiet.then {l : List Event} {w w' w'' : World} (h : Quiet l w w') (h' : Quiet [] w' w'') :
    Quiet l w w'' := by
  have := h.trans h'
  rwa [List.append_nil] at this

theorem Frame.then {l : List Event} {w w' w'' : World} (h : Frame l w w') (h' : Frame [] w' w'') :
    Frame l w w'' := by
  have := h.trans h'
  rwa [List.append_nil] at this

/-- An update that keeps the status of every order is a frame. -/
theorem map_status_update (t : Table Order) (id' : ℕ) (f : Order → Order) (hf : ∀ o, (f o).status = o.status)
    (id : ℕ) : ((t.update id' f).get? id).map (·.status) = (t.get? id).map (·.status) := by
  rw [Table.get?_update]
  split
  · rename_i h
    subst h
    rw [Option.map_map]
    congr 1
    funext o
    exact hf o
  · rfl

theorem step_frame (w : World) (e : Step) : Frame [] w (w.step e) := by
  have hlog : ∀ e : Event, e.isOwn = false → (w.log e).own = w.own ++ [] := fun e he => by
    rw [own_log_of_not_isOwn he, List.append_nil]
  have hextends : ∀ e : Event, w.trace <+: w.trace ++ [e] := fun e => List.prefix_append ..
  have hmove := step_move w e
  generalize w.step e = w' at hmove
  cases hmove with
  | idle => exact .refl w
  | tap cb => exact ⟨⟨rfl, rfl, hlog (.accepted ..) rfl, hextends _⟩, fun _ => rfl⟩
  | fail i cb => exact ⟨⟨rfl, rfl, (List.append_nil _).symm, List.prefix_refl _⟩, fun _ => rfl⟩
  | commit i cb row =>
    exact ⟨⟨rfl, rfl, hlog (.committed ..) rfl, hextends _⟩, map_status_update _ _ _ fun _ => rfl⟩
  | next i cb phase => exact ⟨⟨rfl, rfl, (List.append_nil _).symm, List.prefix_refl _⟩, fun _ => rfl⟩
  | signal i cb => exact ⟨⟨rfl, rfl, hlog (.handled ..) rfl, hextends _⟩, fun _ => rfl⟩
  | respond row call => exact ⟨⟨rfl, rfl, hlog (.accepted ..) rfl, hextends _⟩, fun _ => rfl⟩
  | respondFail i call => exact ⟨⟨rfl, rfl, (List.append_nil _).symm, List.prefix_refl _⟩, fun _ => rfl⟩
  | respondCommit i call =>
    exact ⟨⟨rfl, rfl, hlog (.committed ..) rfl, hextends _⟩, map_status_update _ _ _ fun _ => rfl⟩

end TradingAgent
