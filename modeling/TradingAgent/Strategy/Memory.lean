/-
The memory of the agents: lessons that expire, saved one by one or drawn from closed positions, and queries for the
most relevant ones. A clean-up marks expired lessons as inactive. The abstract memory is the list of the lessons
that fit the table and whose commits came about; what a query may return is told by this list alone, so no clean-up
is ever seen.
-/
import TradingAgent.Core.Models
import TradingAgent.Strategy.Exit
import TradingAgent.Lib.Table

namespace TradingAgent

/-! ## The table -/

open Column

/-- A row of the agent memory table. Times are in microseconds since the first day of the calendar. -/
structure AgentMemory where
  agentType : String
  symbol : Option String
  content : String
  relevanceScore : Decimal := 1
  expiresAt : Option ℤ
  isActive : Bool := true
  accountId : String := "default"
  deriving DecidableEq

/-- Whether a row fits the columns of the table. -/
def AgentMemory.fits (row : AgentMemory) : Bool :=
  textFits (some 50) row.agentType && row.symbol.all (textFits (some 20)) && textFits none row.content &&
    numericFits 5 4 row.relevanceScore && textFits (some 50) row.accountId

/-- Whether a time lies in the calendar, which ends with the year 9999. -/
def timeFits (time : ℤ) : Bool := 0 ≤ time && time < 3652059 * 86400000000

/-- How the transaction of a call ends; one that fails with an error may have had its effect. -/
inductive Commit
  | succeeds
  | fails (applied : Bool) (error : String)

/-- The transaction of a row that the table may refuse. -/
def Commit.onRow (fits : Bool) (refusal : String) (commit : Commit) : Commit :=
  if fits then commit else .fails false refusal

def Commit.applied : Commit → Bool
  | .succeeds => true
  | .fails applied _ => applied

/-- What a call with its transaction returns or raises. -/
def Commit.result {α : Type} (commit : Commit) (failure : String) (value : α) : Except Exn α :=
  match commit with
  | .succeeds => .ok value
  | .fails _ error => .error (.databaseError (failure ++ error))

namespace AgentMemoryManager

/-- The row of a lesson that is saved now; the score has four decimals in the table. -/
def newLesson (now : ℤ) (agentType : String) (symbol : Option String) (content : String) (expiresDays : ℤ := 90)
    (relevanceScore : Decimal := 1) (accountId : String := "default") : AgentMemory :=
  { agentType, symbol, content, relevanceScore := quantize4 relevanceScore
    expiresAt := some (now + expiresDays * 86400000000), accountId }

/-- Save a lesson; its id is returned. A time past the calendar raises before, a row that does not fit is refused with
an error of the database. -/
def saveLesson (t : Table AgentMemory) (commit : Commit) (refusal : String) (lesson : AgentMemory) :
    Except Exn ℕ × Table AgentMemory :=
  if lesson.expiresAt.all timeFits then
    ((commit.onRow lesson.fits refusal).result "Memory save failed: " t.nextId,
      if (commit.onRow lesson.fits refusal).applied then t.insert fun _ => lesson else t)
  else (.error (.external "OverflowError"), t)

/-! ## Queries -/

/-- What a query asks for. Without a symbol the lessons of every symbol are asked for. -/
structure MemoryQuery where
  agentType : String
  symbol : Option String := none
  limit : ℕ := 10
  accountId : Option String := none

/-- The query asks for a row, whether it is active or not. -/
def MemoryQuery.asks (q : MemoryQuery) (now : ℤ) (row : AgentMemory) : Bool :=
  row.agentType = q.agentType && row.expiresAt.all (now < ·) && q.accountId.all (row.accountId = ·) &&
    q.symbol.all fun symbol => row.symbol = some symbol || row.symbol = none

/-- The first rows in descending order of their relevance. Rows of the same relevance come in any order. -/
def Ranked (limit : ℕ) (rows answer : List AgentMemory) : Prop :=
  ∃ sorted : List AgentMemory, sorted.Perm rows ∧ sorted.Pairwise (fun a b => b.relevanceScore ≤ a.relevanceScore) ∧
    answer = sorted.take limit

/-- `get_relevant_memories` may return this answer. -/
def GetRelevantMemories (t : Table AgentMemory) (q : MemoryQuery) (now : ℤ) (answer : List AgentMemory) : Prop :=
  Ranked q.limit (t.rows.values.filter fun row => row.isActive && q.asks now row) answer

/-! ## Lessons from trades -/

/-- The profit of a closed position in percent of what it had cost. -/
def pnlPct (position : PositionRecord) (pnl : Decimal) : Decimal :=
  if position.avgCost ≠ 0 ∧ position.quantity ≠ 0 then pnl / (position.avgCost * position.quantity) * 100 else 0

/-- The agent that the lessons of a strategy are for. -/
def strategyToAgent (_ : StrategyType) : String := "stock_analyst"

/-- The lesson of a closed position; without a realized profit there is none. `describe` words it. -/
def tradeLesson (describe : PositionRecord → Decimal → String) (now : ℤ) (position : PositionRecord)
    (accountId : String := "default") : Option AgentMemory :=
  match position.realizedPnl with
  | none => none
  | some pnl =>
    if position.status ≠ "closed" then none
    else some (newLesson now (strategyToAgent position.strategyType) (some position.symbol)
      (describe position (pnlPct position pnl)) 90 (if pnl < 0 then 9 / 10 else 7 / 10) accountId)

def recordTradeOutcome (t : Table AgentMemory) (commit : Commit) (refusal : String)
    (describe : PositionRecord → Decimal → String) (now : ℤ) (position : PositionRecord)
      (accountId : String := "default") :
    Except Exn (Option ℕ) × Table AgentMemory :=
  match tradeLesson describe now position accountId with
  | none => (.ok none, t)
  | some lesson => ((saveLesson t commit refusal lesson).1.map some, (saveLesson t commit refusal lesson).2)

/-! ## Clean-up -/

/-- An active row that has expired. -/
def isExpired (now : ℤ) (row : AgentMemory) : Bool := row.isActive && row.expiresAt.any (· ≤ now)

/-- Mark the expired rows as inactive; their number is returned. -/
def cleanupExpired (t : Table AgentMemory) (commit : Commit) (now : ℤ) : Except Exn ℕ × Table AgentMemory :=
  (commit.result "Memory cleanup failed: " (t.rows.values.countP (isExpired now)),
    if commit.applied then t.mapRows fun row => if isExpired now row then { row with isActive := false } else row
    else t)

/-! ## Runs -/

/-- A call of the manager that writes. -/
inductive MemoryCall
  | saveLesson (agentType : String) (symbol : Option String) (content : String) (expiresDays : ℤ)
      (relevanceScore : Decimal) (accountId : String)
  | recordTradeOutcome (describe : PositionRecord → Decimal → String) (position : PositionRecord) (accountId : String)
  | cleanupExpired

/-- A call with the end of its transaction, and with the text of the error that refuses a row. -/
structure MemoryEvent where
  now : ℤ
  call : MemoryCall
  commit : Commit := .succeeds
  refusal : String := "DataError"

def step (t : Table AgentMemory) (e : MemoryEvent) : Table AgentMemory :=
  match e.call with
  | .saveLesson agentType symbol content expiresDays relevanceScore accountId =>
    (saveLesson t e.commit e.refusal
      (newLesson e.now agentType symbol content expiresDays relevanceScore accountId)).2
  | .recordTradeOutcome describe position accountId =>
    (recordTradeOutcome t e.commit e.refusal describe e.now position accountId).2
  | .cleanupExpired => (cleanupExpired t e.commit e.now).2

/-- The table after a number of calls. -/
def run (events : List MemoryEvent) : Table AgentMemory := events.foldl step Table.empty

/-! ## The abstract memory -/

/-- The lesson that a call is to save. -/
def MemoryEvent.offered? (e : MemoryEvent) : Option AgentMemory :=
  match e.call with
  | .saveLesson agentType symbol content expiresDays relevanceScore accountId =>
    some (newLesson e.now agentType symbol content expiresDays relevanceScore accountId)
  | .recordTradeOutcome describe position accountId => tradeLesson describe e.now position accountId
  | .cleanupExpired => none

/-- The lesson that a call adds to the memory: it fits, and the transaction comes about. -/
def MemoryEvent.lesson? (e : MemoryEvent) : Option AgentMemory :=
  e.offered?.filter fun lesson => lesson.expiresAt.all timeFits && lesson.fits && e.commit.applied

/-- All lessons, the oldest first. -/
def lessons (events : List MemoryEvent) : List AgentMemory := events.filterMap MemoryEvent.lesson?

/-- A row stands for a lesson at a time: it is the lesson, or the lesson has expired and was marked as inactive. -/
def StandsFor (now : ℤ) (row lesson : AgentMemory) : Prop :=
  lesson.isActive = true ∧ (row = lesson ∨
    row = { lesson with isActive := false } ∧ ∃ expiresAt, lesson.expiresAt = some expiresAt ∧ expiresAt ≤ now)

variable {now : ℤ} {row lesson : AgentMemory} {t : Table AgentMemory}

/-- A query finds a row exactly if it asks for the lesson that the row stands for. -/
theorem StandsFor.found_iff (h : StandsFor now row lesson) (q : MemoryQuery) :
    (row.isActive && q.asks now row) = true ↔ q.asks now lesson = true := by
  obtain ⟨hactive, rfl | ⟨rfl, expiresAt, hexpires, hle⟩⟩ := h
  · rw [hactive, Bool.true_and]
  · have hasks : q.asks now lesson = false := by
      unfold MemoryQuery.asks
      rw [hexpires]
      simp [not_lt.2 hle]
    rw [Bool.false_and, hasks]

/-- A query finds the lessons it asks for. -/
theorem filter_rows_eq {rows lessons : List AgentMemory} (h : List.Forall₂ (StandsFor now) rows lessons)
    (q : MemoryQuery) : rows.filter (fun row => row.isActive && q.asks now row) = lessons.filter (q.asks now) := by
  induction h with
  | nil => rfl
  | @cons row lesson rows lessons hrow _ ih =>
    have hfound := hrow.found_iff q
    rw [List.filter_cons, List.filter_cons, ih]
    by_cases hasks : q.asks now lesson = true
    · have hrowfound := hfound.2 hasks
      rw [if_pos hrowfound, if_pos hasks]
      obtain ⟨-, rfl | ⟨rfl, -⟩⟩ := hrow
      · rfl
      · cases hrowfound
    · rw [if_neg hasks, if_neg fun hrowfound => hasks (hfound.1 hrowfound)]

/-- A clean-up leaves every row standing for its lesson. -/
theorem StandsFor.cleanup (h : StandsFor now row lesson) {then_ : ℤ} (hle : then_ ≤ now) :
    StandsFor now (if isExpired then_ row then { row with isActive := false } else row) lesson := by
  obtain ⟨hactive, hrow⟩ := h
  refine ⟨hactive, ?_⟩
  split
  · rename_i hexpired
    obtain rfl | ⟨rfl, hpast⟩ := hrow
    · unfold isExpired at hexpired
      rw [hactive, Bool.true_and, Option.any_eq_true] at hexpired
      obtain ⟨expiresAt, hexpires, hbefore⟩ := hexpired
      exact .inr ⟨rfl, expiresAt, hexpires, (of_decide_eq_true hbefore).trans hle⟩
    · exact .inr ⟨rfl, hpast⟩
  · exact hrow

theorem isActive_of_tradeLesson {describe : PositionRecord → Decimal → String} {position : PositionRecord}
    {accountId : String} (h : tradeLesson describe now position accountId = some lesson) : lesson.isActive = true := by
  unfold tradeLesson at h
  split at h
  · cases h
  · split at h
    · cases h
    · cases h
      rfl

/-- A lesson that is added is active. -/
theorem isActive_of_lesson? {e : MemoryEvent} (h : e.lesson? = some lesson) : lesson.isActive = true := by
  have hoffered := (Option.filter_eq_some_iff.1 h).1
  unfold MemoryEvent.offered? at hoffered
  split at hoffered
  · cases hoffered
    rfl
  · exact isActive_of_tradeLesson hoffered
  · cases hoffered

/-- The rows after a lesson was saved, or not. -/
theorem values_saveLesson (t : Table AgentMemory) (commit : Commit) (refusal : String) (lesson : AgentMemory) :
    (saveLesson t commit refusal lesson).2.rows.values = t.rows.values ++
      ((some lesson).filter fun lesson => lesson.expiresAt.all timeFits && lesson.fits && commit.applied).toList := by
  unfold saveLesson Commit.onRow
  rw [Option.filter_some]
  cases htime : lesson.expiresAt.all timeFits with
  | false => simp
  | true =>
    cases hfits : lesson.fits with
    | false => simp [Commit.applied]
    | true => cases happlied : commit.applied <;> simp [happlied]

/-- The rows after a call: that of the lesson it adds goes to the end, and a clean-up marks the expired ones. -/
theorem values_step (t : Table AgentMemory) (e : MemoryEvent) :
    (step t e).rows.values = t.rows.values ++ e.lesson?.toList ∨
    e.call = .cleanupExpired ∧ e.lesson? = none ∧ (step t e).rows.values =
      t.rows.values.map fun row => if isExpired e.now row then { row with isActive := false } else row := by
  obtain ⟨now, call, commit, refusal⟩ := e
  cases call with
  | saveLesson agentType symbol content expiresDays relevanceScore accountId =>
    exact .inl (values_saveLesson t commit refusal _)
  | recordTradeOutcome describe position accountId =>
    left
    unfold step MemoryEvent.lesson? MemoryEvent.offered? recordTradeOutcome
    dsimp only
    split
    · rename_i hnone
      rw [hnone, Option.filter_none, Option.toList_none, List.append_nil]
    · rename_i lesson hsome
      rw [hsome]
      exact values_saveLesson t commit refusal lesson
  | cleanupExpired =>
    have hnone : MemoryEvent.lesson? ⟨now, .cleanupExpired, commit, refusal⟩ = none := rfl
    cases happlied : commit.applied with
    | false =>
      left
      unfold step cleanupExpired
      simp [hnone, happlied]
    | true =>
      right
      unfold step cleanupExpired
      simp [hnone, happlied]

theorem lessons_concat (events : List MemoryEvent) (e : MemoryEvent) :
    lessons (events ++ [e]) = lessons events ++ e.lesson?.toList := by
  unfold lessons
  rw [List.filterMap_append, List.filterMap_cons, List.filterMap_nil]
  cases e.lesson? <;> rfl

/-- After every run the rows stand for the lessons, at any time that no clean-up was after. -/
theorem standsFor_run (events : List MemoryEvent) (hnow : ∀ e ∈ events, e.call = .cleanupExpired → e.now ≤ now) :
    List.Forall₂ (StandsFor now) (run events).rows.values (lessons events) := by
  induction events using List.reverseRecOn with
  | nil => exact .nil
  | append_singleton events e ih =>
    have hrows := ih fun e he => hnow e (List.mem_append_left _ he)
    have hrun : run (events ++ [e]) = step (run events) e := by
      unfold run
      rw [List.foldl_append]
      rfl
    rw [hrun, lessons_concat]
    rcases values_step (run events) e with hvalues | ⟨hcall, hnone, hvalues⟩
    · rw [hvalues]
      refine List.rel_append hrows ?_
      cases hlesson : e.lesson? with
      | none => exact .nil
      | some lesson => exact .cons ⟨isActive_of_lesson? hlesson, .inl rfl⟩ .nil
    · rw [hvalues, hnone, Option.toList_none, List.append_nil, List.forall₂_map_left_iff]
      refine hrows.imp fun row lesson hrow => hrow.cleanup (hnow e ?_ hcall)
      simp

/-- What a query may return is the first of the lessons it asks for, in descending order of their relevance. When
lessons were saved, and when they were cleaned up, is of no account. -/
theorem getRelevantMemories_iff (events : List MemoryEvent) (q : MemoryQuery) (now : ℤ)
    (hnow : ∀ e ∈ events, e.call = .cleanupExpired → e.now ≤ now) (answer : List AgentMemory) :
    GetRelevantMemories (run events) q now answer ↔ Ranked q.limit ((lessons events).filter (q.asks now)) answer := by
  unfold GetRelevantMemories
  rw [filter_rows_eq (standsFor_run events hnow) q]

/-- Four lessons: one is cleaned up after a day, one has a score that the table does not take, and two have the same
score there. -/
def namedEvents : List MemoryEvent :=
  [{ now := 0, call := .saveLesson "stock_analyst" none "cut losses" 1 1 "default" },
    { now := 0, call := .saveLesson "stock_analyst" none "buy all" 90 10 "default" },
    { now := 0, call := .saveLesson "stock_analyst" (some "005930") "hold winners" 90 (90001 / 100000) "default" },
    { now := 0, call := .saveLesson "stock_analyst" (some "005930") "wait" 90 (90004 / 100000) "default" },
    { now := 86400000000, call := .cleanupExpired }]

theorem getRelevantMemories_named :
    GetRelevantMemories (run namedEvents) { agentType := "stock_analyst", symbol := some "005930", limit :=
      1 } 86400000000
      [newLesson 0 "stock_analyst" (some "005930") "hold winners" 90 (9 / 10)] := by
  have hasked : (lessons namedEvents).filter
      (MemoryQuery.asks { agentType := "stock_analyst", symbol := some "005930", limit := 1 } 86400000000) =
      [newLesson 0 "stock_analyst" (some "005930") "hold winners" 90 (9 / 10),
        newLesson 0 "stock_analyst" (some "005930") "wait" 90 (9 / 10)] := by decide +kernel
  refine (getRelevantMemories_iff namedEvents _ _ (by simp [namedEvents]) _).2 ⟨_, .refl _, ?_, ?_⟩
  · rw [hasked]
    exact List.pairwise_pair.2 le_rfl
  · rw [hasked]
    rfl

end AgentMemoryManager

end TradingAgent
