/-
The analysis jobs and their BUY orders. The jobs look at the clock once, before the first order, and only at
the time of the day. The orders stay within market hours exactly if that look falls on a day from Monday to
Friday, and the waits before the last order do not go on past the close.
-/
import TradingAgent.Lib.Calendar
import TradingAgent.Agent.Orchestrator
import TradingAgent.Execution.RiskGate
import TradingAgent.Scheduler.StopLoss

namespace TradingAgent

open Execution (M)

/-! ## Korean time -/

/-- Moments are microseconds since the start of 1970 in UTC. -/
abbrev Moment := ℤ

namespace Kst

/-- The microseconds of a day. -/
def dayLength : ℤ := 86400 * 1000000

/-- Korea is nine hours ahead of UTC. -/
def ofUtc (t : Moment) : ℤ := t + 9 * 3600 * 1000000

def day (t : Moment) : ℤ := ofUtc t / dayLength

/-- The time of the day, in microseconds. -/
def time (t : Moment) : ℤ := ofUtc t % dayLength

theorem add_eq (t : Moment) (d : ℤ) (h : time t + d < dayLength) (hd : 0 ≤ d) :
    day (t + d) = day t ∧ time (t + d) = time t + d := by
  unfold day time ofUtc dayLength at *
  omega

end Kst

/-! ## Programs with a clock -/

/-- The world, the clock, and the orders that went to the broker, with their moments. -/
structure TimedWorld where
  world : World := {}
  now : Moment
  placed : List (Moment × OrderRequest) := []

abbrev TimedM := EStateM Exn TimedWorld

/-- The state after a program of the world. -/
def TimedWorld.after (s : TimedWorld) (toPlace total : ℕ) (w : World) : TimedWorld where
  world := w
  now := s.now + total
  placed := s.placed ++ (placements (s.world.since w)).map (s.now + toPlace, ·)

/-- Run a program of the world for a time; it gets to the broker after `toPlace`. -/
def timed {α : Type} (toPlace total : ℕ) (x : M α) : TimedM α := fun s =>
  match x s.world with
  | .ok a w => .ok a (s.after toPlace total w)
  | .error e w => .error e (s.after toPlace total w)

def elapse (total : ℕ) : TimedM PUnit := modify fun s => { s with now := s.now + total }

theorem wp_timed {α : Type} {toPlace total : ℕ} {x : M α} {Q : α → TimedWorld → Prop}
    {R : Exn → TimedWorld → Prop} {s : TimedWorld} :
    Wp.wp (timed toPlace total x) Q R s ↔
      Wp.wp x (fun a w => Q a (s.after toPlace total w)) (fun e w => R e (s.after toPlace total w)) s.world := by
  unfold Wp.wp timed
  cases x s.world <;> rfl

/-! ## The jobs -/

/-- How long a call of `execute_entry` takes until it gets to the broker, and as a whole. -/
structure Wait where
  toPlace : ℕ
  total : ℕ
  le : toPlace ≤ total := by decide

/-- What an analysis job is given, and what happens during its run. -/
structure AnalysisJob where
  agents : Agents
  accountId : String := "default"
  /-- the environment of each call of `execute_entry`; none without an order executor -/
  orderExecutor : Option (ℕ → Env)
  marketOpen : String := "09:00"
  marketClose : String := "15:30"
  /-- how long the query of the open positions takes, and the pipeline -/
  query : ℕ := 0
  analysis : ℕ
  waits : ℕ → Wait
  /-- the order in which a set of symbols is listed -/
  setOrder : List String → List String := id
  setOrder_perm : ∀ symbols, (setOrder symbols).Perm symbols := by exact fun _ => .refl _

namespace AnalysisJob

/-- `time(h, m)`, in microseconds. -/
def time (h m : ℤ) : Except Exn ℤ :=
  if h < 0 ∨ 23 < h then .error (.valueError "hour must be in 0..23")
  else if m < 0 ∨ 59 < m then .error (.valueError "minute must be in 0..59")
  else .ok ((h * 60 + m) * 60000000)

def int (text : List Char) : Except Exn ℤ :=
  match PyInt.parse? text with
  | some n => .ok n
  | none => .error .conversionError

/-- The two numbers around the colon. Taking them apart looks at no more than three parts. -/
def hourMinute (text : String) : Except Exn (ℤ × ℤ) := do
  match ← ((text.toList.splitOn ':').take 3).mapM int with
  | [h, m] => pure (h, m)
  | [_] => throw (.valueError "not enough values to unpack (expected 2, got 1)")
  | _ => throw (.valueError "too many values to unpack (expected 2)")

/-- Whether the time of the day lies in market hours. Before the opening the closing time is not built. -/
def isMarketOpen (now : Moment) (marketOpen marketClose : String) : Except Exn Bool := do
  let (hOpen, mOpen) ← hourMinute marketOpen
  let (hClose, mClose) ← hourMinute marketClose
  let opens ← time hOpen mOpen
  if opens ≤ Kst.time now then do
    let closes ← time hClose mClose
    pure (decide (Kst.time now ≤ closes))
  else pure false

variable (job : AnalysisJob)

/-- Run the BUY decisions one after the other. An exception is logged, and the next one follows. -/
def executeEach (envs : ℕ → Env) (strategyType : StrategyType) : ℕ → List TradeDecision → TimedM ℕ
  | _, [] => pure 0
  | i, td :: tds => do
    let success ← tryCatch
      (do
        let execResult ← timed (job.waits i).toPlace (job.waits i).total (OrderExecutor.executeEntry (envs i)
          { tradeDecision := td, strategyType, accountId := job.accountId })
        pure execResult.success)
      (fun _ => pure false)
    let executed ← executeEach envs strategyType (i + 1) tds
    pure (if success then executed + 1 else executed)

def buyDecisions (result : PipelineResult) : List TradeDecision :=
  result.tradeDecisions.filter (fun td => td.action = .buy)

/-- Run the BUY decisions of a result, if the market is open now. -/
def executeBuyDecisions (envs : ℕ → Env) (strategyType : StrategyType) (result : PipelineResult) : TimedM ℕ :=
  if (buyDecisions result).isEmpty then pure 0
  else do
    match isMarketOpen (← get).now job.marketOpen job.marketClose with
    | .error e => throw e
    | .ok false => pure 0
    | .ok true => executeEach job envs strategyType 0 (buyDecisions result)

/-- What the pipeline returns for the symbols. -/
def result (symbols : List String) : PipelineResult := PipelineOrchestrator.execute job.agents symbols job.accountId

/-- Analyse the symbols, and buy if there is an order executor. -/
def analyse (strategyType : StrategyType) (symbols : List String) : TimedM PUnit := do
  elapse job.analysis
  match job.orderExecutor with
  | none => pure ⟨⟩
  | some envs => do
    let _ ← executeBuyDecisions job envs strategyType (job.result symbols)
    pure ⟨⟩

def jobSwingAnalysis (symbols : List String) : TimedM PUnit := job.analyse .swing symbols

def heldSymbols (positions : List PositionRecord) : List String :=
  job.setOrder (positions.map (·.symbol)).dedup

def jobPositionAnalysis (env : JobEnv) : TimedM PUnit := do
  let positions ← timed 0 job.query (PositionManager.getOpen env job.accountId)
  if positions.isEmpty then pure ⟨⟩ else job.analyse .position (job.heldSymbols positions)

/-! ## What the check of the market says -/

def marketTime (text : String) : Except Exn ℤ := do
  let (h, m) ← hourMinute text
  time h m

theorem isMarketOpen_iff {now : Moment} {marketOpen marketClose : String} :
    isMarketOpen now marketOpen marketClose = .ok true ↔
      ∃ opens closes, marketTime marketOpen = .ok opens ∧ marketTime marketClose = .ok closes ∧
        opens ≤ Kst.time now ∧ Kst.time now ≤ closes := by
  unfold isMarketOpen marketTime
  simp only [Wp.bind_eq_ok]
  constructor
  · rintro ⟨⟨hOpen, mOpen⟩, hopen, ⟨hClose, mClose⟩, hclose, opens, hopens, h⟩
    split at h
    · rename_i hle
      obtain ⟨closes, hcloses, h⟩ := Wp.bind_eq_ok.1 h
      exact ⟨opens, closes, ⟨_, hopen, hopens⟩, ⟨_, hclose, hcloses⟩, hle, of_decide_eq_true (Except.ok.inj h)⟩
    · cases h
  · rintro ⟨opens, closes, ⟨a, hopen, hopens⟩, ⟨b, hclose, hcloses⟩, hle, hle'⟩
    refine ⟨a, hopen, b, hclose, opens, hopens, ?_⟩
    rw [if_pos hle]
    exact Wp.bind_eq_ok.2 ⟨closes, hcloses, congrArg _ (decide_eq_true hle')⟩

theorem marketTime_lt {text : String} {t : ℤ} (h : marketTime text = .ok t) : t < Kst.dayLength := by
  obtain ⟨⟨hour, minute⟩, -, h⟩ := Wp.bind_eq_ok.1 h
  dsimp only at h
  unfold time at h
  split at h
  · cases h
  · split at h
    · cases h
    · cases h
      unfold Kst.dayLength
      omega

/-! ## The orders of a run -/

/-- Monday to Friday, in market hours. -/
def InSession (t : Moment) : Prop :=
  Calendar.weekday (Kst.day t) ≤ 4 ∧ isMarketOpen t job.marketOpen job.marketClose = .ok true

/-- All orders of the run of a job that starts at a moment go to the broker in session. -/
def PlacesInSession (run : TimedM PUnit) (start : Moment) (w : World) : Prop :=
  Wp.wp run (fun _ s => ∀ p ∈ s.placed, job.InSession p.1) (fun _ s => ∀ p ∈ s.placed, job.InSession p.1)
    { world := w, now := start }

/-- The time from the check of the market to the turn of a decision. -/
def untilTurn (k : ℕ) : ℕ := ((List.range k).map (fun i => (job.waits i).total)).sum

/-- The time from the check of the market to the order of a decision. -/
def untilOrder (k : ℕ) : ℕ := job.untilTurn k + (job.waits k).toPlace

theorem untilTurn_succ (k : ℕ) : job.untilTurn (k + 1) = job.untilTurn k + (job.waits k).total := by
  unfold untilTurn
  rw [List.range_succ, List.map_append, List.sum_append, List.map_singleton, List.sum_singleton]

/-- A check that finds the market open falls on a day from Monday to Friday, and the orders of the first `n`
decisions follow it before the close. -/
def Timely (checked : Moment) (n : ℕ) : Prop :=
  isMarketOpen checked job.marketOpen job.marketClose = .ok true → ∀ k < n,
    Calendar.weekday (Kst.day checked) ≤ 4 ∧
      ∀ closes, marketTime job.marketClose = .ok closes → Kst.time checked + job.untilOrder k ≤ closes

variable {job}

/-- An order goes out at the time that the turns before it and its own wait take. -/
theorem executeEach_moments (checked : Moment) (envs : ℕ → Env) (strategyType : StrategyType) :
    ∀ (tds : List TradeDecision) (i : ℕ) (s : TimedWorld), s.now = checked + job.untilTurn i →
      (∀ p ∈ s.placed, ∃ k < i, p.1 = checked + job.untilOrder k) →
      Wp.wp (executeEach job envs strategyType i tds)
        (fun _ s' => ∀ p ∈ s'.placed, ∃ k < i + tds.length, p.1 = checked + job.untilOrder k) (fun _ _ => False) s
  | [], i, s, _, hplaced => hplaced
  | td :: tds, i, s, hnow, hplaced => by
    have hafter : ∀ w, (s.after (job.waits i).toPlace (job.waits i).total w).now = checked + job.untilTurn (i + 1) ∧
        ∀ p ∈ (s.after (job.waits i).toPlace (job.waits i).total w).placed,
          ∃ k < i + 1, p.1 = checked + job.untilOrder k := by
      intro w
      unfold TimedWorld.after
      refine ⟨by rw [untilTurn_succ, hnow]; push_cast; ring, fun p hp => ?_⟩
      rcases List.mem_append.1 hp with hp | hp
      · obtain ⟨k, hk, hmoment⟩ := hplaced p hp
        exact ⟨k, hk.trans (Nat.lt_succ_self i), hmoment⟩
      · obtain ⟨r, -, rfl⟩ := List.mem_map.1 hp
        refine ⟨i, Nat.lt_succ_self i, ?_⟩
        rw [hnow, untilOrder]
        push_cast
        ring
    have hrest : ∀ w, Wp.wp (executeEach job envs strategyType (i + 1) tds)
        (fun _ s' => ∀ p ∈ s'.placed, ∃ k < i + (td :: tds).length, p.1 = checked + job.untilOrder k)
        (fun _ _ => False) (s.after (job.waits i).toPlace (job.waits i).total w) := by
      intro w
      refine Wp.wp_mono (executeEach_moments checked envs strategyType tds (i + 1) _ (hafter w).1 (hafter w).2)
        (fun _ s' h p hp => ?_) fun _ _ h => h
      obtain ⟨k, hk, hmoment⟩ := h p hp
      exact ⟨k, by rw [List.length_cons]; omega, hmoment⟩
    unfold executeEach
    rw [Wp.wp_bind, Wp.wp_tryCatch, Wp.wp_bind, wp_timed]
    refine Wp.wp_mono (Wp.wp_true _ _) (fun execResult w _ => ?_) fun e w _ => ?_
    · rw [Wp.wp_pure, Wp.wp_bind]
      exact Wp.wp_mono (hrest w) (fun _ _ h => h) fun _ _ h => h
    · rw [Wp.wp_pure, Wp.wp_bind]
      exact Wp.wp_mono (hrest w) (fun _ _ h => h) fun _ _ h => h

/-- A moment after a timely check is in session. -/
theorem Timely.inSession {checked : Moment} {n k : ℕ} (h : job.Timely checked n) (hk : k < n)
    (hopen : isMarketOpen checked job.marketOpen job.marketClose = .ok true) :
    job.InSession (checked + job.untilOrder k) := by
  obtain ⟨opens, closes, hopens, hcloses, hle, hle'⟩ := isMarketOpen_iff.1 hopen
  obtain ⟨hweekday, hclose⟩ := h hopen k hk
  have hlate := hclose closes hcloses
  have hend : closes < Kst.dayLength := marketTime_lt hcloses
  obtain ⟨hday, htime⟩ := Kst.add_eq checked (job.untilOrder k) (by omega) (by omega)
  refine ⟨hday ▸ hweekday, isMarketOpen_iff.2 ⟨opens, closes, hopens, hcloses, ?_⟩⟩
  rw [htime]
  exact ⟨by omega, hlate⟩

/-- The orders of a job that has not placed any yet, if the check is timely. -/
theorem analyse_inSession {strategyType : StrategyType} {symbols : List String} {s : TimedWorld} (hnone : s.placed = [])
    (h : job.Timely (s.now + job.analysis) (buyDecisions (job.result symbols)).length) :
    Wp.wp (job.analyse strategyType symbols) (fun _ s' => ∀ p ∈ s'.placed, job.InSession p.1)
      (fun _ s' => ∀ p ∈ s'.placed, job.InSession p.1) s := by
  have hplaced : ∀ p ∈ s.placed, job.InSession p.1 := by simp [hnone]
  unfold analyse elapse
  rw [Wp.wp_bind, Wp.wp_modify]
  split
  · exact hplaced
  · rename_i envs _
    rw [Wp.wp_bind]
    unfold executeBuyDecisions
    split
    · exact hplaced
    · rw [Wp.wp_bind, Wp.wp_get]
      dsimp only
      split
      · exact hplaced
      · exact hplaced
      · rename_i hopen
        refine Wp.wp_mono (executeEach_moments (s.now + job.analysis) envs strategyType _ 0 _ (by simp [untilTurn])
          (by simp [hnone])) (fun _ s' hmoments p hp => ?_) fun _ _ hno => hno.elim
        obtain ⟨k, hk, hmoment⟩ := hmoments p hp
        rw [hmoment]
        exact h.inSession (by omega) hopen

theorem jobSwingAnalysis_inSession {symbols : List String} {start : Moment} (w : World)
    (h : job.Timely (start + job.analysis) (buyDecisions (job.result symbols)).length) :
    job.PlacesInSession (job.jobSwingAnalysis symbols) start w := analyse_inSession rfl h

/-- The query of the open positions places no order. -/
theorem getOpen_places_none (env : JobEnv) (accountId : String) (w : World) :
    Wp.wp (PositionManager.getOpen env accountId) (fun _ w' => placements (w.since w') = [])
      (fun _ w' => placements (w.since w') = []) w := by
  have hquiet : Wp.Keeps (Quiet [] w) (PositionManager.getOpen env accountId) := by
    unfold PositionManager.getOpen JobEnv.await
    refine Wp.keeps_tryCatch (Async.keeps_await (fun e _ _ h => h.step e) ?_) fun e => Wp.keeps_throw _
    exact Wp.keeps_bind Wp.keeps_get fun _ => Wp.keeps_pure _
  exact Wp.wp_mono (hquiet w (.refl w)) (fun _ _ h => h.logs.placements) fun _ _ h => h.logs.placements

theorem jobPositionAnalysis_inSession {env : JobEnv} {start : Moment} {w : World}
    (h : ∀ positions w', PositionManager.getOpen env job.accountId w = .ok positions w' →
      job.Timely (start + job.query + job.analysis) (buyDecisions (job.result (job.heldSymbols positions))).length) :
    job.PlacesInSession (job.jobPositionAnalysis env) start w := by
  have hnone : ∀ w', placements (w.since w') = [] →
      (TimedWorld.after { world := w, now := start } 0 job.query w').placed = [] := by
    intro w' hw'
    unfold TimedWorld.after
    rw [hw']
    rfl
  unfold PlacesInSession jobPositionAnalysis
  rw [Wp.wp_bind, wp_timed]
  refine Wp.wp_mono (Wp.wp_and (getOpen_places_none env job.accountId w) (Wp.wp_self _ w))
    (fun positions w' hw' => ?_) fun e w' hw' => ?_
  · split
    · show ∀ p ∈ _, _
      rw [hnone w' hw'.1]
      simp
    · exact analyse_inSession (hnone w' hw'.1) (h positions w' hw'.2)
  · rw [hnone w' hw'.1]
    simp

/-! ## When a check is not timely -/

/-- An environment in which an order row cannot be inserted. -/
def lostEnv : Env :=
  { plainEnv with
    fault := fun site => if site = .createOrder then some { exn := .external "connection lost" } else none }

/-- Only the decision of turn `k` is approved and gets to the broker. -/
def onlyTurn (k i : ℕ) : Env := if i = k then answeringEnv "approve" else lostEnv

/-- Answers that buy ten shares of whatever is asked for. -/
def buyAnswers : PipelineOrchestrator.Answers where
  market := { condition := "bullish", confidence := 8 / 10 }
  stock _ := { symbol := "005930", action := .buy, confidence := 8 / 10 }
  risk _ := { symbol := "005930", approved := true, confidence := 8 / 10 }
  trade _ := buyTen.tradeDecision

/-- A job whose pipeline buys for every requested symbol, and whose executor has these environments. -/
def buying (job : AnalysisJob) (envs : ℕ → Env) : AnalysisJob :=
  { job with agents := PipelineOrchestrator.agentsOf buyAnswers {}, accountId := "default", orderExecutor := some envs }

theorem executeEntry_lostEnv (args : OrderExecutor.EntryArgs) (w : World) :
    ∃ res, OrderExecutor.executeEntry lostEnv args w = .ok res w := ⟨_, rfl⟩

theorem executeEntry_approved : ∃ res w', OrderExecutor.executeEntry (answeringEnv "approve") buyTen {} = .ok res w' ∧
    ∃ r, r ∈ placements (World.since {} w') := by
  have hplaced : Wp.wp (OrderExecutor.executeEntry (answeringEnv "approve") buyTen)
      (fun _ w' => placements (World.since {} w') ≠ []) (fun _ _ => False) {} := by decide +kernel
  cases hrun : OrderExecutor.executeEntry (answeringEnv "approve") buyTen {} with
  | error e w' => exact (Wp.wp_of_error hplaced hrun).elim
  | ok res w' =>
    have hne := Wp.wp_of_ok hplaced hrun
    exact ⟨res, w', rfl, List.exists_mem_of_ne_nil _ hne⟩

/-- Orders that are out stay out. -/
theorem executeEach_keeps (envs : ℕ → Env) (strategyType : StrategyType) (p : Moment × OrderRequest) :
    ∀ (tds : List TradeDecision) (i : ℕ), Wp.Keeps (fun s => p ∈ s.placed) (executeEach job envs strategyType i tds)
  | [], _ => Wp.keeps_pure _
  | td :: tds, i => by
    have hrest := executeEach_keeps envs strategyType p tds (i + 1)
    unfold executeEach
    refine Wp.keeps_bind (Wp.keeps_tryCatch (Wp.keeps_bind (fun s hs => ?_) fun _ => Wp.keeps_pure _)
      fun _ => Wp.keeps_pure _) fun _ => Wp.keeps_bind hrest fun _ => Wp.keeps_pure _
    exact wp_timed.2 (Wp.wp_mono (Wp.wp_true _ _) (fun _ _ _ => List.mem_append_left _ hs)
      fun _ _ _ => List.mem_append_left _ hs)

/-- The order of turn `k` goes out at its moment. -/
theorem executeEach_onlyTurn (haccount : job.accountId = "default") (checked : Moment) {k : ℕ} :
    ∀ (n i : ℕ) (s : TimedWorld),
    s.now = checked + job.untilTurn i → s.world = {} → i ≤ k → k < i + n →
    Wp.wp (executeEach job (onlyTurn k) .swing i (List.replicate n buyTen.tradeDecision))
      (fun _ s' => ∃ p ∈ s'.placed, p.1 = checked + job.untilOrder k)
      (fun _ s' => ∃ p ∈ s'.placed, p.1 = checked + job.untilOrder k) s
  | 0, i, s, _, _, hi, hk => absurd hk (by omega)
  | n + 1, i, s, hnow, hworld, hi, hk => by
    rw [List.replicate_succ]
    unfold executeEach
    have hargs : ({ tradeDecision := buyTen.tradeDecision, strategyType := .swing } : OrderExecutor.EntryArgs) =
        buyTen := rfl
    rw [Wp.wp_bind, Wp.wp_tryCatch, Wp.wp_bind, wp_timed, hworld, haccount, hargs]
    by_cases hik : i = k
    · subst hik
      rw [show onlyTurn i i = answeringEnv "approve" from if_pos rfl]
      obtain ⟨res, w', hrun, r, hr⟩ := executeEntry_approved
      rw [Wp.wp_eq_of_ok hrun]
      have hplaced : (s.now + (job.waits i).toPlace, r) ∈
          (s.after (job.waits i).toPlace (job.waits i).total w').placed := by
        unfold TimedWorld.after
        rw [hworld]
        exact List.mem_append_right _ (List.mem_map_of_mem hr)
      have hmoment : s.now + (job.waits i).toPlace = checked + job.untilOrder i := by
        rw [hnow, untilOrder]
        push_cast
        ring
      rw [Wp.wp_pure, Wp.wp_bind]
      refine Wp.wp_mono (executeEach_keeps _ _ _ _ _ _ hplaced) (fun _ s' h => ?_) fun _ s' h => ?_
      · exact ⟨_, h, hmoment⟩
      · exact ⟨_, h, hmoment⟩
    · rw [show onlyTurn k i = lostEnv from if_neg hik]
      obtain ⟨res, hrun⟩ := executeEntry_lostEnv
        buyTen {}
      rw [Wp.wp_eq_of_ok hrun, Wp.wp_pure, Wp.wp_bind]
      have hnext : (s.after (job.waits i).toPlace (job.waits i).total {}).now = checked + job.untilTurn (i + 1) := by
        unfold TimedWorld.after
        rw [untilTurn_succ, hnow]
        push_cast
        ring
      exact Wp.wp_mono (executeEach_onlyTurn haccount checked n (i + 1) _ hnext rfl (by omega) (by omega))
        (fun _ _ h => h)
        fun _ _ h => h

/-- The pipeline decides to buy once for each symbol. -/
theorem result_buying (job : AnalysisJob) (envs : ℕ → Env) (n : ℕ) :
    buyDecisions ((buying job envs).result (List.replicate n "005930")) = List.replicate n buyTen.tradeDecision := by
  have hmarket : (PipelineOrchestrator.agentsOf buyAnswers {}).marketAnalyst = .ok buyAnswers.market := rfl
  have hdecision : ∀ i s, (PipelineOrchestrator.runSymbolPipeline (PipelineOrchestrator.agentsOf buyAnswers {})
      buyAnswers.market i s).tradeDecision = some buyTen.tradeDecision := fun i s =>
    PipelineOrchestrator.runSymbolPipeline_agentsOf.2 ⟨⟨nofun, rfl⟩, rfl, rfl, rfl, rfl⟩
  have hall : ((buying job envs).result (List.replicate n "005930")).tradeDecisions =
      List.replicate n buyTen.tradeDecision := by
    refine (PipelineOrchestrator.tradeDecisions_execute _ _ hmarket "default").trans ?_
    unfold PipelineOrchestrator.symbolResults
    rw [List.mapIdx_eq_zipIdx_map, List.flatMap_map]
    simp only [hdecision, Option.toList_some]
    rw [← List.map_eq_flatMap, List.map_const', List.length_zipIdx, List.length_replicate]
  unfold buyDecisions
  rw [hall, List.filter_replicate_of_pos (by decide)]

/-- Within the day of a check that is not timely, some run places an order out of session. -/
theorem exists_not_placesInSession {start : Moment} {n : ℕ} (hnot : ¬ job.Timely (start + job.analysis) n)
    (hsame : ∀ k < n, Kst.time (start + job.analysis) + job.untilOrder k < Kst.dayLength) :
    ∃ envs symbols, (buyDecisions ((buying job envs).result symbols)).length = n ∧
      ¬ job.PlacesInSession ((buying job envs).jobSwingAnalysis symbols) start {} := by
  unfold Timely at hnot
  push Not at hnot
  obtain ⟨hopen, k, hk, hlate⟩ := hnot
  refine ⟨onlyTurn k, List.replicate n "005930", by rw [result_buying, List.length_replicate], fun hin => ?_⟩
  -- the order of turn `k` is out of session
  have hout : ¬ job.InSession (start + job.analysis + job.untilOrder k) := by
    rintro ⟨hweekday, hsession⟩
    obtain ⟨hday, htime⟩ := Kst.add_eq (start + job.analysis) (job.untilOrder k) (hsame k hk) (by omega)
    rw [hday] at hweekday
    obtain ⟨closes, hcloses, hlt⟩ := hlate hweekday
    obtain ⟨_, closes', -, hcloses', -, hle⟩ := isMarketOpen_iff.1 hsession
    cases hcloses.symm.trans hcloses'
    omega
  have hplaces : Wp.wp ((buying job (onlyTurn k)).jobSwingAnalysis (List.replicate n "005930"))
      (fun _ s' => ∃ p ∈ s'.placed, p.1 = start + job.analysis + job.untilOrder k)
      (fun _ s' => ∃ p ∈ s'.placed, p.1 = start + job.analysis + job.untilOrder k) { world := {}, now := start } := by
    have hsome : (List.replicate n buyTen.tradeDecision).isEmpty = false := by
      rw [List.isEmpty_replicate]
      exact decide_eq_false (by omega)
    unfold jobSwingAnalysis analyse elapse executeBuyDecisions
    rw [Wp.wp_bind, Wp.wp_modify, result_buying]
    show Wp.wp (_ >>= _) _ _ _
    rw [Wp.wp_bind, hsome, if_neg (by decide), Wp.wp_bind, Wp.wp_get]
    dsimp only [buying]
    rw [hopen]
    exact Wp.wp_mono (executeEach_onlyTurn rfl (start + job.analysis) n 0 _ (by simp [untilTurn]) rfl (Nat.zero_le k)
      (by omega)) (fun _ _ h => h) fun _ _ h => h
  have hnever : Wp.wp ((buying job (onlyTurn k)).jobSwingAnalysis (List.replicate n "005930"))
      (fun _ _ => False) (fun _ _ => False) { world := {}, now := start } := by
    refine Wp.wp_mono (Wp.wp_and hin hplaces) (fun _ s' h => ?_) fun _ s' h => ?_
    · obtain ⟨hall, p, hp, hmoment⟩ := h
      exact hout (hmoment ▸ hall p hp)
    · obtain ⟨hall, p, hp, hmoment⟩ := h
      exact hout (hmoment ▸ hall p hp)
  unfold Wp.wp at hnever
  split at hnever
  · exact hnever
  · exact hnever

/-! ## Runs of the jobs -/

/-- If the check is timely, all orders of a run go out in session, whatever the pipeline decides, the approvals
take and the others do. Within the day of a check that is not timely, some run does not keep to the session. -/
theorem orders_inSession (job : AnalysisJob) (start : Moment) :
    (∀ symbols w,
      job.Timely (start + job.analysis) (buyDecisions (job.result symbols)).length →
      job.PlacesInSession (job.jobSwingAnalysis symbols) start w) ∧
    (∀ env w,
      (∀ positions w', PositionManager.getOpen env job.accountId w = .ok positions w' → job.Timely
        (start + job.query + job.analysis) (buyDecisions (job.result (job.heldSymbols positions))).length) →
      job.PlacesInSession (job.jobPositionAnalysis env) start w) ∧
    (∀ n,
      (∀ k < n, Kst.time (start + job.analysis) + job.untilOrder k < Kst.dayLength) →
      ¬ job.Timely (start + job.analysis) n →
      ∃ envs symbols, (buyDecisions ((buying job envs).result symbols)).length = n ∧
        ¬ job.PlacesInSession ((buying job envs).jobSwingAnalysis symbols) start {}) :=
  ⟨fun _ w h => jobSwingAnalysis_inSession w h, fun _ _ h => jobPositionAnalysis_inSession h,
    fun _ hsame hnot => exists_not_placesInSession hnot hsame⟩

/-- A job with an approval that takes two minutes. -/
def approvedJob : AnalysisJob where
  agents := PipelineOrchestrator.agentsOf buyAnswers {}
  orderExecutor := some fun _ => answeringEnv "approve"
  analysis := 60000000
  waits _ := { toPlace := 120000000, total := 121000000 }

/-- A world with one open position. -/
def holding : World := { positions := Table.empty.insert (fun id => StopLossJob.stopAt65000 id .position 5) }

/-- A moment of a day, by its time in Korea. -/
def moment (day : ℤ) (h m : ℤ) : Moment := day * Kst.dayLength + (h * 60 + m) * 60000000 - 9 * 3600 * 1000000

/-- The moments of the orders of a run. -/
def moments (run : TimedM PUnit) (s : TimedWorld) : List Moment :=
  match run s with
  | .ok _ s' => s'.placed.map Prod.fst
  | .error _ s' => s'.placed.map Prod.fst

theorem placesInSession_iff {run : TimedM PUnit} {start : Moment} {w : World} :
    job.PlacesInSession run start w ↔ ∀ t ∈ moments run { world := w, now := start }, job.InSession t := by
  unfold PlacesInSession Wp.wp moments
  cases run { world := w, now := start } <;> simp

/-- On a Wednesday morning the swing job starts at ten, and its order goes out three minutes later, in session. -/
theorem orders_inSession_wednesday :
    moments (approvedJob.jobSwingAnalysis ["005930"])
      { world := {}, now := moment (Calendar.ofDate 2024 3 6) 10 0 } = [moment (Calendar.ofDate 2024 3 6) 10 3] ∧
    approvedJob.PlacesInSession (approvedJob.jobSwingAnalysis ["005930"])
      (moment (Calendar.ofDate 2024 3 6) 10 0) {} := by
  have hone : (buyDecisions (approvedJob.result ["005930"])).length = 1 := by decide +kernel
  have hcloses : marketTime approvedJob.marketClose = .ok ((15 * 60 + 30) * 60000000) := by decide +kernel
  refine ⟨by decide +kernel, (orders_inSession approvedJob _).1 _ _ fun _ k hk => ⟨by decide +kernel, ?_⟩⟩
  intro closes hclose
  obtain rfl := Except.ok.inj (hcloses.symm.trans hclose)
  obtain rfl : k = 0 := by omega
  decide +kernel

/-- On a Saturday morning the position job places an order; and on a Wednesday the swing job checks the market at
15:29 and places its order at 15:31. -/
theorem approvedJob_orders_out :
    ¬ approvedJob.PlacesInSession (approvedJob.jobPositionAnalysis StopLossJob.fallEnv)
      (moment (Calendar.ofDate 2024 3 2) 10 30) holding ∧
    ¬ approvedJob.PlacesInSession (approvedJob.jobSwingAnalysis ["005930"])
      (moment (Calendar.ofDate 2024 3 6) 15 28) {} := by
  rw [placesInSession_iff, placesInSession_iff]
  refine ⟨fun h => ?_, fun h => ?_⟩
  · have hmoment : moment (Calendar.ofDate 2024 3 2) 10 33 ∈ moments
        (approvedJob.jobPositionAnalysis StopLossJob.fallEnv)
        { world := holding, now := moment (Calendar.ofDate 2024 3 2) 10 30 } := by decide +kernel
    exact absurd (h _ hmoment).1 (by decide +kernel)
  · have hmoment : moment (Calendar.ofDate 2024 3 6) 15 31 ∈ moments (approvedJob.jobSwingAnalysis ["005930"])
        { world := {}, now := moment (Calendar.ofDate 2024 3 6) 15 28 } := by decide +kernel
    exact absurd (h _ hmoment).2 (by decide +kernel)

end AnalysisJob

end TradingAgent
