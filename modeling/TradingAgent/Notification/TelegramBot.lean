/-
The Telegram bot and the approval managers that share it. The bot holds one callback handler, that of
the manager initialised last; a press or a text goes to it. A request can be answered from the moment
its manager registered it, some awaits after its message went out. `Chat.step` is one step of a manager,
a request, a callback or a user, so a list of steps is an interleaving of them.
-/
import TradingAgent.Execution.Approval

namespace TradingAgent

/-! ## The keyboard -/

/-- The buttons below an approval request. -/
inductive Button
  | approve | reject | modify
  deriving DecidableEq

/-- What the callback data of a button starts with. -/
def Button.action : Button → String
  | .approve => "approve"
  | .reject => "reject"
  | .modify => "modify"

/-- The status that a button answers with; the modify button does not answer. -/
def Button.status : Button → Option ApprovalStatus
  | .approve => some .approved
  | .reject => some .rejected
  | .modify => none

/-- The texts of request ids: `str(uuid)` and `UUID(text)`. -/
structure UuidText where
  str : RequestId → String
  parse? : String → Option RequestId
  parse_str : ∀ r, parse? (str r) = some r

/-- The callback data of a button. -/
def callbackData (U : UuidText) (button : Button) (requestId : RequestId) : String :=
  button.action ++ ":" ++ U.str requestId

/-- The inline keyboard of an approval request. -/
def keyboard (U : UuidText) (requestId : RequestId) : List String :=
  [Button.approve, .reject, .modify].map (callbackData U · requestId)

/-- Read callback data: the action up to the first colon, the request id behind it. -/
def parseCallbackData (U : UuidText) (data : String) : Option (String × RequestId) :=
  match data.toList.span (· ≠ ':') with
  | (_, []) => none
  | (action, _ :: requestId) => (U.parse? (String.ofList requestId)).map fun r => (String.ofList action, r)

/-! ## The state -/

/-- Where the task of an approval request stands. -/
inductive RequestPhase
  -- its row is in the database, its message is not out
  | preparing
  -- the message is out, the event is not set up
  | sent
  | waiting
  -- the wait ended with a timeout that is being written down
  | closing
  | ended (status : ApprovalStatus)
  -- an exception before the wait
  | failed
  deriving DecidableEq

/-- An approval request under way. `answer` remembers the first approve or reject pressed on its message
while it was to be answered. -/
structure RequestTask where
  manager : ℕ
  accountId : String
  phase : RequestPhase := .preparing
  messageId : Option ℤ := none
  answer : Option ApprovalStatus := none

/-- The message is out and the wait is not over. -/
def RequestTask.Awaited (req : RequestTask) : Prop := req.phase = .sent ∨ req.phase = .waiting

instance (req : RequestTask) : Decidable req.Awaited := by unfold RequestTask.Awaited; infer_instance

/-- A press that reached the bot, which acknowledges it first. `decides` marks the press that its request
remembers. -/
structure CallbackQuery where
  button : Button
  requestId : RequestId
  decides : Bool

structure Chat where
  /-- the callback handler of the bot, by its manager -/
  handler : Option ℕ := none
  pendingModify : Dict String RequestId := Dict.empty
  managers : ℕ → World := fun _ => {}
  requests : Dict RequestId RequestTask := Dict.empty
  queries : List CallbackQuery := []

namespace Chat

variable (U : UuidText) (s : Chat)

def updateManager (m : ℕ) (f : World → World) : Chat :=
  { s with managers := Function.update s.managers m (f (s.managers m)) }

def setRequest (requestId : RequestId) (req : RequestTask) : Chat :=
  { s with requests := s.requests.set requestId req }

/-! ## The bot -/

def registerCallbackHandler (m : ℕ) : Chat := { s with handler := some m }

/-- Call the registered handler. -/
def callHandler (action : String) (requestId : RequestId) : Chat :=
  match s.handler with
  | none => s
  | some m => s.updateManager m (·.handleCallback requestId action)

/-- Handle a press: its data names the action and the request. -/
def onCallbackQuery (data : String) : Chat :=
  match parseCallbackData U data with
  | none => s
  | some (action, requestId) => s.callHandler action requestId

/-- Ask for a new quantity. Nothing calls this. -/
def sendQuantityPrompt (chatId : String) (requestId : RequestId) : Chat :=
  { s with pendingModify := s.pendingModify.set chatId requestId }

/-- Handle a text: a positive number, while a quantity is asked for. -/
def onTextMessage (chatId text : String) : Chat :=
  match s.pendingModify.get? chatId with
  | none => s
  | some requestId =>
    match parseQuantity text.toList with
    | none => s
    | some quantity =>
      { s with pendingModify := s.pendingModify.erase chatId }.callHandler ("modify:" ++ toString quantity) requestId

/-! ## Users -/

/-- A user presses a button below the message of a request. -/
def press (button : Button) (requestId : RequestId) : Chat :=
  match s.requests.get? requestId with
  | none => s
  | some req =>
    if req.messageId = none then s
    else
      let decides := button.status.isSome && decide req.Awaited && req.answer.isNone
      { s with
        queries := s.queries ++ [⟨button, requestId, decides⟩]
        requests := if decides then s.requests.set requestId { req with answer := button.status } else s.requests }

/-- The bot acknowledged a press, and handles it; if the acknowledgement fails, it does not. -/
def dispatch (i : ℕ) (fails : Bool) : Chat :=
  match s.queries[i]? with
  | none => s
  | some q =>
    let s' := { s with queries := s.queries.eraseIdx i }
    if fails then s' else s'.onCallbackQuery U (callbackData U q.button q.requestId)

/-! ## Requests -/

/-- Set up the event of a request. -/
def registered (requestId : RequestId) (req : RequestTask) (w : World) : World :=
  { w with
    pendingEvents := w.pendingEvents.set requestId false
    pendingMessageIds := match req.messageId with
      | some messageId => w.pendingMessageIds.set requestId messageId
      | none => w.pendingMessageIds
    pendingAccountIds := w.pendingAccountIds.set requestId req.accountId }

/-- The entries of a request go. -/
def unregistered (requestId : RequestId) (w : World) : World :=
  { w with
    pendingEvents := w.pendingEvents.erase requestId
    pendingResults := w.pendingResults.erase requestId
    pendingMessageIds := w.pendingMessageIds.erase requestId
    pendingAccountIds := w.pendingAccountIds.erase requestId }

/-- Take a request that is in a phase further. -/
def advance (requestId : RequestId) (phase : RequestPhase) (next : RequestTask → Chat) : Chat :=
  match s.requests.get? requestId with
  | none => s
  | some req => if req.phase = phase then next req else s

/-- A manager inserts the row of a new request. -/
def insert (m : ℕ) (requestId : RequestId) (row : ApprovalRequestDB) : Chat :=
  if s.requests.contains requestId then s
  else (s.setRequest requestId { manager := m, accountId := row.accountId }).updateManager m
    fun w => { w with approvals := w.approvals.set requestId row }

/-- The message goes out; without an id it did not. -/
def send (requestId : RequestId) (messageId : Option ℤ) : Chat :=
  s.advance requestId .preparing fun req => s.setRequest requestId { req with phase := .sent, messageId }

def register (requestId : RequestId) : Chat :=
  s.advance requestId .sent fun req =>
    (s.setRequest requestId { req with phase := .waiting }).updateManager req.manager (registered requestId req)

/-- An exception ends the task before its wait. -/
def fail (requestId : RequestId) : Chat :=
  match s.requests.get? requestId with
  | none => s
  | some req =>
    if req.phase = .preparing ∨ req.phase = .sent then s.setRequest requestId { req with phase := .failed } else s

/-- The event of a request is set and its task resumes. -/
def wake (requestId : RequestId) : Chat :=
  s.advance requestId .waiting fun req =>
    let w := s.managers req.manager
    if w.pendingEvents.get? requestId = some true then
      let status := (w.pendingResults.get? requestId).getD .timeout
      if status = .timeout then s.setRequest requestId { req with phase := .closing }
      else (s.setRequest requestId { req with phase := .ended status }).updateManager req.manager
        (unregistered requestId)
    else s

/-- The timer of the wait fires. -/
def timer (requestId : RequestId) : Chat :=
  s.advance requestId .waiting fun req => s.setRequest requestId { req with phase := .closing }

/-- The timeout is written down. -/
def close (requestId : RequestId) : Chat :=
  s.advance requestId .closing fun req =>
    (s.setRequest requestId { req with phase := .ended .timeout }).updateManager req.manager
      (unregistered requestId)

end Chat

/-! ## Steps -/

/-- A step of a callback under way, by its place in the list of its manager. -/
inductive CallbackStep
  | commit (i : ℕ) (fails : Bool)
  | redis (i : ℕ)
  | telegram (i : ℕ)
  | signal (i : ℕ)

def CallbackStep.toStep : CallbackStep → Step
  | .commit i fails => .callbackCommit i fails
  | .redis i => .callbackRedis i
  | .telegram i => .callbackTelegram i
  | .signal i => .callbackSignal i

inductive ChatStep
  -- a manager registers its handler
  | setUp (m : ℕ)
  | insert (m : ℕ) (requestId : RequestId) (row : ApprovalRequestDB)
  | send (requestId : RequestId) (messageId : Option ℤ)
  | register (requestId : RequestId)
  | fail (requestId : RequestId)
  | press (button : Button) (requestId : RequestId)
  | dispatch (i : ℕ) (fails : Bool)
  | text (chatId text : String)
  | callback (m : ℕ) (e : CallbackStep)
  | wake (requestId : RequestId)
  | timer (requestId : RequestId)
  | close (requestId : RequestId)

/-- One step of the chat. -/
def Chat.step (U : UuidText) (s : Chat) : ChatStep → Chat
  | .setUp m => s.registerCallbackHandler m
  | .insert m requestId row => s.insert m requestId row
  | .send requestId messageId => s.send requestId messageId
  | .register requestId => s.register requestId
  | .fail requestId => s.fail requestId
  | .press button requestId => s.press button requestId
  | .dispatch i fails => s.dispatch U i fails
  | .text chatId text => s.onTextMessage chatId text
  | .callback m e => s.updateManager m (·.step e.toStep)
  | .wake requestId => s.wake requestId
  | .timer requestId => s.timer requestId
  | .close requestId => s.close requestId

/-! ## What the steps do -/

theorem span_append_cons {α : Type} [DecidableEq α] {c : α} {l : List α} (rest : List α) (h : c ∉ l) :
    (l ++ c :: rest).span (· ≠ c) = (l, c :: rest) := by
  have hl : ∀ a ∈ l, (decide (a ≠ c)) = true := fun a ha => by
    rw [decide_eq_true_eq]
    rintro rfl
    exact h ha
  rw [List.span_eq_takeWhile_dropWhile, List.takeWhile_append_of_pos hl, List.dropWhile_append_of_pos hl]
  simp

/-- The bot reads back the button and the request of every keyboard. -/
theorem parseCallbackData_callbackData (U : UuidText) (button : Button) (requestId : RequestId) :
    parseCallbackData U (callbackData U button requestId) = some (button.action, requestId) := by
  have hcolon : ':' ∉ button.action.toList := by cases button <;> decide
  unfold parseCallbackData callbackData
  rw [String.append_assoc, String.toList_append, String.toList_append]
  show (match (button.action.toList ++ ':' :: (U.str requestId).toList).span (· ≠ ':') with
    | (_, []) => none
    | (action, _ :: id) => (U.parse? (String.ofList id)).map fun r => (String.ofList action, r)) = _
  rw [span_append_cons _ hcolon]
  simp [U.parse_str]

/-- The manager sets up and drops a request as its task does. -/
theorem registered_eq (env : Env) (req : RequestTask) (w : World) :
    Chat.registered env.requestId req w = ApprovalManager.register env req.accountId req.messageId w := rfl

theorem unregistered_eq (env : Env) (w : World) :
    Chat.unregistered env.requestId w = ApprovalManager.unregister env w := rfl

end TradingAgent
