/-
What the order executor, the approval manager, the Telegram callbacks and the approval API share: the
tables, the dictionaries of the manager, the responses under way, and a trace of what happened.
-/
import TradingAgent.Core.Models
import TradingAgent.Lib.Table
import TradingAgent.Lib.PyInt

namespace TradingAgent

/-- Identifier of an approval request. -/
abbrev RequestId := ℕ

/-! ## Rows -/

/-- A row of the orders table. -/
structure Order where
  accountId : String := "default"
  symbol : String
  side : OrderSide
  orderType : OrderType
  quantity : ℤ
  price : Decimal
  status : OrderStatus := .pending
  approvalStatus : ApprovalStatus := .autoApproved
  originalQuantity : ℤ
  modifiedQuantity : Option ℤ := none
  positionId : Option ℕ := none
  brokerOrderId : Option String := none
  filledQuantity : ℤ := 0
  filledPrice : Option Decimal := none
  commission : Decimal := 0
  executedAt : Option ℤ := none
  rejectionReason : String := ""
  webVerifyResult : Option WebVerifyResult := none
  webVerifySummary : String := ""

/-- A row of the executions table. -/
structure Execution where
  orderId : ℕ
  brokerOrderId : String
  fillPrice : Decimal
  fillQuantity : ℤ
  commission : Decimal := 0
  executedAt : ℤ

/-- Status of an approval request: `"pending"`, or the spelling of the status it ended with. -/
inductive RequestStatus
  | pending | settled (status : ApprovalStatus)
  deriving DecidableEq

/-- A row of the approval requests table, under its request id. -/
structure ApprovalRequestDB where
  accountId : String := "default"
  orderId : ℕ
  status : RequestStatus := .pending
  telegramMessageId : Option ℤ := none
  modifiedQuantity : Option ℤ := none
  responseReason : String := ""
  requestedAt : ℤ
  expiresAt : ℤ

/-! ## Responses -/

/-- What a Telegram action says about the request. -/
structure Answer where
  status : ApprovalStatus
  modifiedQuantity : Option ℤ
  responseReason : String

/-- The quantity in the part of a `modify:` action behind the colon. -/
def parseQuantity (text : List Char) : Option ℤ :=
  match PyInt.parse? text with
  | none => none
  | some quantity => if quantity ≤ 0 then none else some quantity

/-- Read an action. A quantity that does not parse or is not positive rejects the request; an unknown
action is no answer. -/
def parseAction (action : String) : Option Answer :=
  if action = "approve" then some ⟨.approved, none, "user_approved"⟩
  else if action = "reject" then some ⟨.rejected, none, "user_rejected"⟩
  else if "modify:".toList.isPrefixOf action.toList then
    match parseQuantity (action.toList.drop 7) with
    | none => some ⟨.rejected, none, "invalid_modify_action: " ++ action⟩
    | some quantity => some ⟨.approved, some quantity, "user_modified_quantity:" ++ toString quantity⟩
  else none

/-- The await at which a callback stands. -/
inductive CallbackPhase
  | database | redis | telegram | signal
  deriving DecidableEq

/-- A callback under way, past its check of the pending requests. -/
structure Callback where
  requestId : RequestId
  action : String
  answer : Answer
  phase : CallbackPhase
  parsed : parseAction action = some answer

inductive ResponseAction
  | approve | reject | modify
  deriving DecidableEq

def ResponseAction.value : ResponseAction → String
  | .approve => "approve"
  | .reject => "reject"
  | .modify => "modify"

/-- The body of an API response. A validated quantity is positive. -/
structure ApprovalResponse where
  action : ResponseAction
  modifiedQuantity : Option ℤ := none
  modifiedQuantity_pos : ∀ q, modifiedQuantity = some q → 0 < q := by decide

/-- The status an API response stands for. -/
def ApprovalResponse.newStatus (body : ApprovalResponse) : ApprovalStatus :=
  match body.action with
  | .approve => .approved
  | .reject => .rejected
  | .modify => .approved

/-- An API call under way, past its checks. -/
structure ApiCall where
  requestId : RequestId
  orderId : ℕ
  body : ApprovalResponse

/-! ## The world -/

/-- What happened, in the order it happened. -/
inductive Event
  -- a response passed its check, or the timer of the wait fired
  | accepted (requestId : RequestId) (status : ApprovalStatus)
  -- the transaction of a response committed
  | committed (requestId : RequestId) (modifiedQuantity : Option ℤ)
  -- a callback stored its result and set the event, if there still is one
  | handled (requestId : RequestId) (action : String)
  | waitEnded (requestId : RequestId) (status : ApprovalStatus)
  | reread (order : Option Order)
  | placed (request : OrderRequest)
  | answered (request : OrderRequest) (result : OrderResult)

/-- The events that only the run of the executor itself logs. -/
def Event.isOwn : Event → Bool
  | .accepted .. | .committed .. | .handled .. => false
  | .waitEnded .. | .reread _ | .placed _ | .answered .. => true

structure World where
  -- database
  orders : Table Order := Table.empty
  approvals : Dict RequestId ApprovalRequestDB := Dict.empty
  executions : List Execution := []
  positions : Table PositionRecord := Table.empty
  -- approval manager
  pendingEvents : Dict RequestId Bool := Dict.empty
  pendingResults : Dict RequestId ApprovalStatus := Dict.empty
  pendingMessageIds : Dict RequestId ℤ := Dict.empty
  modifiedQuantities : Dict RequestId ℤ := Dict.empty
  pendingAccountIds : Dict RequestId String := Dict.empty
  -- responses under way
  callbacks : List Callback := []
  apiCalls : List ApiCall := []
  trace : List Event := []

/-- Append an event to the trace. -/
def World.log (w : World) (e : Event) : World := { w with trace := w.trace ++ [e] }

/-- The trace of the executor itself. -/
def World.own (w : World) : List Event := w.trace.filter Event.isOwn

/-- What happened between two worlds of a run. -/
def World.since (w w' : World) : List Event := w'.trace.drop w.trace.length

/-! ## Traces -/

section Traces

variable {w w' : World}

theorem since_self (w : World) : w.since w = [] := List.drop_length

theorem append_since (h : w.trace <+: w'.trace) : w.trace ++ w.since w' = w'.trace := by
  obtain ⟨l, hl⟩ := h
  unfold World.since
  rw [← hl, List.drop_left]

theorem since_of_append {l : List Event} (h : w'.trace = w.trace ++ l) : w.since w' = l := by
  unfold World.since
  rw [h, List.drop_left]

theorem since_log (h : w.trace <+: w'.trace) (e : Event) : w.since (w'.log e) = w.since w' ++ [e] := by
  apply since_of_append
  unfold World.log
  rw [← append_since h, List.append_assoc]

theorem since_append {w'' : World} (h : w.trace <+: w'.trace) (h' : w'.trace <+: w''.trace) :
    w.since w'' = w.since w' ++ w'.since w'' := by
  apply since_of_append
  rw [← List.append_assoc, append_since h, append_since h']

theorem mem_since_mono {w'' : World} {e : Event} (h : w'.trace <+: w''.trace) (he : e ∈ w.since w') :
    e ∈ w.since w'' := by
  obtain ⟨l, hl⟩ := h
  unfold World.since at *
  rw [← hl]
  rw [List.drop_append]
  exact List.mem_append_left _ he

theorem own_log_of_isOwn {e : Event} (h : e.isOwn = true) : (w.log e).own = w.own ++ [e] := by
  unfold World.own World.log
  rw [List.filter_append, List.filter_cons_of_pos h, List.filter_nil]

theorem own_log_of_not_isOwn {e : Event} (h : e.isOwn = false) : (w.log e).own = w.own := by
  unfold World.own World.log
  rw [List.filter_append, List.filter_cons_of_neg (by simp [h]), List.filter_nil, List.append_nil]

/-- The own events since a world. -/
theorem own_eq_append (h : w.trace <+: w'.trace) : w'.own = w.own ++ (w.since w').filter Event.isOwn := by
  unfold World.own
  rw [← append_since h, List.filter_append]

theorem mem_since_iff_of_own {l : List Event} (h : w.trace <+: w'.trace) (hown : w'.own = w.own ++ l)
    {e : Event} (he : e.isOwn = true) : e ∈ w.since w' ↔ e ∈ l := by
  rw [own_eq_append h] at hown
  rw [← List.append_cancel_left hown, List.mem_filter, he]
  simp

end Traces

/-! ## Reading actions -/

/-- The actions that give consent: an approval, or a modification to a positive quantity. -/
def Consents (action : String) : Prop :=
  action = "approve" ∨ ∃ text quantity, action.toList = "modify:".toList ++ text ∧
    PyInt.parse? text = some quantity ∧ 0 < quantity

/-- The action asks for the quantity `q`. -/
def Modifies (action : String) (q : ℤ) : Prop :=
  ∃ text, action.toList = "modify:".toList ++ text ∧ PyInt.parse? text = some q ∧ 0 < q

theorem parseQuantity_eq_some {text : List Char} {q : ℤ} :
    parseQuantity text = some q ↔ PyInt.parse? text = some q ∧ 0 < q := by
  unfold parseQuantity
  cases h : PyInt.parse? text with
  | none => simp
  | some n =>
    by_cases hn : n ≤ 0
    · simp only [hn, if_true, Option.some.injEq]
      constructor
      · intro h; cases h
      · rintro ⟨rfl, hq⟩; omega
    · simp only [hn, if_false, Option.some.injEq]
      constructor
      · rintro rfl; exact ⟨rfl, by omega⟩
      · exact fun h => h.1

theorem isPrefixOf_iff (action : String) :
    "modify:".toList.isPrefixOf action.toList = true ↔
      ∃ text, action.toList = "modify:".toList ++ text ∧ action.toList.drop 7 = text := by
  rw [List.isPrefixOf_iff_prefix]
  constructor
  · rintro ⟨text, h⟩
    refine ⟨text, h.symm, ?_⟩
    rw [← h]; rfl
  · rintro ⟨text, h, _⟩
    exact ⟨text, h.symm⟩

/-- No action answers with a timeout or an automatic approval. -/
theorem parseAction_status {action : String} {answer : Answer} (h : parseAction action = some answer) :
    answer.status = .approved ∨ answer.status = .rejected := by
  unfold parseAction at h
  split at h
  · cases h; exact .inl rfl
  split at h
  · cases h; exact .inr rfl
  split at h
  · split at h
    · cases h; exact .inr rfl
    · cases h; exact .inl rfl
  · cases h

/-- Only a consenting action approves. -/
theorem consents_of_approved {action : String} {answer : Answer} (h : parseAction action = some answer)
    (ha : answer.status = .approved) : Consents action := by
  unfold parseAction at h
  split at h
  · rename_i heq; exact .inl heq
  split at h
  · cases h; cases ha
  split at h
  · rename_i hp
    obtain ⟨text, htext, hdrop⟩ := (isPrefixOf_iff action).1 hp
    split at h
    · cases h; cases ha
    · rename_i q hq
      rw [hdrop, parseQuantity_eq_some] at hq
      exact .inr ⟨text, q, htext, hq.1, hq.2⟩
  · cases h

end TradingAgent
