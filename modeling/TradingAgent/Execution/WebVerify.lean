/-
The web search verifier. One handler spans the model call, the reading of its verdict and the row of the
decision log, and turns every exception into the verdict SAFE; so a verdict is kept exactly if recording
it succeeds.
-/
import TradingAgent.Execution.Gate
import TradingAgent.Backtest.LlmReplay
import TradingAgent.Llm.Router

namespace TradingAgent

open Wp

/-- Structured output of the verifier. -/
structure WebVerifyOutput where
  result : String
  summary : String
  issues : List String
  newsCount : ℤ
  reasoning : String

/-- What the verifier writes to its log. -/
inductive WebVerifyEvent
  | skipped (reason : String)
  | completed (result : WebVerifyResult)
  | failed
  deriving DecidableEq

/-- The decision log and the log of the verifier. -/
structure VerifyWorld where
  decisionLog : List DecisionLog := []
  events : List WebVerifyEvent := []

/-- The verifier, and what its collaborators answer during a call. -/
structure WebSearchVerifier where
  cfg : Settings := {}
  router : LLMRouter
  /-- the validation of the text of a completion -/
  readOutput : String → Except Exn WebVerifyOutput
  dumpOutput : WebVerifyOutput → String
  /-- the transaction that inserts a row of the decision log fails -/
  insertFault : DecisionLog → Option (Async.Fault Exn) := fun _ => none
  /-- `uuid4()` -/
  decisionId : ℕ := 0
  now : ℤ := 0
  str : Exn → String

namespace WebSearchVerifier

/-- Programs over the logs. -/
abbrev M := EStateM Exn VerifyWorld

variable (V : WebSearchVerifier) (symbol : String) (side : OrderSide)

def sideKr : OrderSide → String
  | .buy => "매수"
  | .sell => "매도"

def systemPrompt : String :=
  "당신은 한국 주식 투자 전문가입니다. 주문 실행 직전 최종 안전 검증 역할을 수행합니다.\n" ++
  "웹검색을 통해 해당 종목의 최신 뉴스와 이슈를 확인하고, 주문 진행 여부를 판단하세요."

def userPrompt : String :=
  "다음 종목의 최신 뉴스/이슈를 웹검색으로 확인해주세요.\n\n" ++
  "종목코드: " ++ symbol ++ "\n" ++
  "주문방향: " ++ sideKr side ++ "\n\n" ++
  "## 확인 항목\n" ++
  "1. 긴급 공시 (상장폐지, 관리종목 지정, 투자주의 환기종목 등)\n" ++
  "2. 돌발 악재/호재 (실적 쇼크, 대규모 소송, 대주주 변경 등)\n" ++
  "3. 블록딜/유상증자/전환사채 행사\n" ++
  "4. 거래정지/매매거래 제한\n" ++
  "5. 기타 주가에 큰 영향을 미칠 수 있는 사건\n\n" ++
  "## 판단 기준\n" ++
  "- safe: 특이사항 없음, 주문 진행 가능\n" ++
  "- warning: 주의 필요한 이슈 존재, 투자자 확인 필요\n" ++
  "- blocked: 위험 감지, 주문 차단 권고 (거래정지, 상장폐지 등)\n"

def buildMessages : List LLMMessage :=
  [⟨.system, systemPrompt⟩, ⟨.user, userPrompt symbol side⟩]

/-- The schema has no confidence field. -/
def schema : OutputSchema WebVerifyOutput :=
  { validate := V.readOutput, dump := V.dumpOutput, confidence := fun _ => none }

def safeDefault (summary : String) : WebVerification :=
  { symbol, result := .safe, summary, reasoning := summary }

def log (event : WebVerifyEvent) : M PUnit := modify fun s => { s with events := s.events ++ [event] }

/-- A pure computation that may raise. -/
def lift {α : Type} : Except Exn α → M α
  | .ok a => pure a
  | .error e => throw e

/-- Record a decision. -/
def record (row : DecisionLog) : M PUnit :=
  let insert := fun s : VerifyWorld => { s with decisionLog := s.decisionLog ++ [row] }
  match V.insertFault row with
  | none => modify insert
  | some f => do
    modify (if f.applied then insert else id)
    throw (.databaseError ("Decision record insert failed: " ++ V.str f.exn))

/-- The verification that an answer stands for. -/
def verification (parsed : WebVerifyOutput) (result : WebVerifyResult) (response : LLMResponse) :
    WebVerification :=
  { symbol, result, summary := parsed.summary, issuesFound := parsed.issues, newsChecked := parsed.newsCount
    llmCostUsd := response.costUsd, reasoning := parsed.reasoning }

/-- The row of the decision log for an answer. -/
def decisionRow (parsed : WebVerifyOutput) (result : WebVerifyResult) (response : LLMResponse) : DecisionLog :=
  { decisionId := V.decisionId, stage := "execution", symbol := some symbol, llmModel := some response.model
    decision := result.value, confidence := none, reasoning := parsed.reasoning, createdAt := V.now }

/-- `WebVerifyResult(parsed.result)` -/
def readResult (parsed : WebVerifyOutput) : Except Exn WebVerifyResult :=
  match WebVerifyResult.ofValue? parsed.result with
  | some result => pure result
  | none => throw (.valueError ("'" ++ parsed.result ++ "' is not a valid WebVerifyResult"))

/-- Ask the search model, read its verdict and record it. -/
def search : M WebVerification := do
  let (parsed, routing) ← lift (V.router.routeStructured "web_verifier" V.schema (buildMessages symbol side))
  let result ← lift (readResult parsed)
  V.record (V.decisionRow symbol parsed result routing.response)
  log (.completed result)
  pure (verification symbol parsed result routing.response)

/-- The last verification before an order goes out. -/
def verify (isStopLoss : Bool) : M WebVerification :=
  if V.cfg.webVerifyEnabled = false then do
    log (.skipped "disabled")
    pure (safeDefault symbol "웹 검증 비활성화")
  else if isStopLoss = true ∧ V.cfg.webVerifySkipOnStopLoss = true then do
    log (.skipped "stop_loss")
    pure (safeDefault symbol "손절 주문 — 웹 검증 생략")
  else
    tryCatch (V.search symbol side) fun _ => do
      log .failed
      pure (safeDefault symbol "웹 검증 실패 — fail-open 기본값 적용")

/-! ## Verdicts -/

/-- The verdict that the model call returned, if it returned one. -/
def verdict : Option WebVerifyResult :=
  match V.router.answer "web_verifier" V.schema (buildMessages symbol side) with
  | .ok parsed => WebVerifyResult.ofValue? parsed.result
  | .error _ => none

/-- The row for the verdict of the model call is inserted. -/
def Records : Prop :=
  ∀ parsed routing result, V.router.routeStructured "web_verifier" V.schema (buildMessages symbol side) =
    .ok (parsed, routing) → WebVerifyResult.ofValue? parsed.result = some result →
    V.insertFault (V.decisionRow symbol parsed result routing.response) = none

variable {V symbol side}

/-- A verdict was obtained exactly if the router returned an output that spells it. -/
theorem verdict_eq_some {result : WebVerifyResult} : V.verdict symbol side = some result ↔
    ∃ parsed routing, V.router.routeStructured "web_verifier" V.schema (buildMessages symbol side) =
      .ok (parsed, routing) ∧ WebVerifyResult.ofValue? parsed.result = some result := by
  have hreturns : ∀ parsed, (∃ routing, V.router.routeStructured "web_verifier" V.schema
      (buildMessages symbol side) = .ok (parsed, routing)) ↔
        V.router.answer "web_verifier" V.schema (buildMessages symbol side) = .ok parsed :=
    fun _ => LLMRouter.routeStructured_returns fun _ => rfl
  unfold verdict
  constructor
  · intro h
    split at h
    · rename_i parsed hanswer
      obtain ⟨routing, hroute⟩ := (hreturns parsed).2 hanswer
      exact ⟨parsed, routing, hroute, h⟩
    · cases h
  · rintro ⟨parsed, routing, hroute, hvalue⟩
    rw [(hreturns parsed).1 ⟨routing, hroute⟩]
    exact hvalue

theorem readResult_eq_ok {parsed : WebVerifyOutput} {result : WebVerifyResult} :
    readResult parsed = .ok result ↔ WebVerifyResult.ofValue? parsed.result = some result := by
  unfold readResult
  cases WebVerifyResult.ofValue? parsed.result with
  | none => simp [throw, throwThe, MonadExceptOf.throw]
  | some r => simp [pure, Except.pure]

/-- How an enabled verification of an order that is not a stop loss ends. -/
inductive Verified (V : WebSearchVerifier) (symbol : String) (side : OrderSide) (s : VerifyWorld) :
    WebVerification → VerifyWorld → Prop
  | completed {s'} (parsed : WebVerifyOutput) (routing : RoutingResult) (result : WebVerifyResult)
      (hroute : V.router.routeStructured "web_verifier" V.schema (buildMessages symbol side) =
        .ok (parsed, routing))
      (hvalue : WebVerifyResult.ofValue? parsed.result = some result)
      (hrow : V.insertFault (V.decisionRow symbol parsed result routing.response) = none)
      (hevents : s'.events = s.events ++ [.completed result]) :
    Verified V symbol side s (verification symbol parsed result routing.response) s'
  | failed {s'} (hcause : V.verdict symbol side = none ∨ ¬ V.Records symbol side)
      (hevents : s'.events = s.events ++ [.failed]) :
    Verified V symbol side s (safeDefault symbol "웹 검증 실패 — fail-open 기본값 적용") s'

/-- The search raises only without a verdict, or where its row is not inserted. -/
theorem search_spec (s : VerifyWorld) : wp (V.search symbol side) (Verified V symbol side s)
    (fun _ s' => (V.verdict symbol side = none ∨ ¬ V.Records symbol side) ∧ s'.events = s.events) s := by
  unfold search
  rw [wp_bind]
  cases hroute : V.router.routeStructured "web_verifier" V.schema (buildMessages symbol side) with
  | error e =>
    refine ⟨.inl ?_, rfl⟩
    rw [Option.eq_none_iff_forall_not_mem]
    intro result hverdict
    obtain ⟨parsed, routing, hroute', _⟩ := verdict_eq_some.1 hverdict
    rw [hroute] at hroute'; cases hroute'
  | ok out =>
    obtain ⟨parsed, routing⟩ := out
    show wp (_ : M WebVerification) _ _ s
    rw [wp_bind]
    cases hread : readResult parsed with
    | error e =>
      refine ⟨.inl ?_, rfl⟩
      rw [Option.eq_none_iff_forall_not_mem]
      intro result hverdict
      obtain ⟨parsed', routing', hroute', hvalue⟩ := verdict_eq_some.1 hverdict
      rw [hroute] at hroute'; cases hroute'
      rw [readResult_eq_ok.2 hvalue] at hread; cases hread
    | ok result =>
      have hvalue := readResult_eq_ok.1 hread
      show wp (_ : M WebVerification) _ _ s
      rw [wp_bind]
      unfold record
      cases hrow : V.insertFault (V.decisionRow symbol parsed result routing.response) with
      | none => exact .completed parsed routing result hroute hvalue hrow rfl
      | some f =>
        have hnot : ¬ V.Records symbol side := fun h => by
          rw [h parsed routing result hroute hvalue] at hrow; cases hrow
        show (_ ∨ _) ∧ VerifyWorld.events _ = s.events
        refine ⟨.inr hnot, ?_⟩
        cases f.applied <;> rfl

theorem verify_spec (henabled : V.cfg.webVerifyEnabled = true) (s : VerifyWorld) :
    wp (V.verify symbol side false) (Verified V symbol side s) (fun _ _ => False) s := by
  unfold verify
  rw [if_neg (by rw [henabled]; simp), if_neg (by simp), wp_tryCatch]
  refine wp_mono (search_spec s) (fun _ _ h => h) fun e s' h => ?_
  refine .failed h.1 ?_
  show s'.events ++ [_] = s.events ++ [_]
  rw [h.2]

end WebSearchVerifier

/-! ## A blocked order -/

open Execution OrderExecutor

/-- The environment in which the verifier returned a verification; the verifier itself does not raise. -/
def Env.verifiedAs (env : Env) (v : WebVerification) : Env :=
  { env with verification := v, fault := fun site => if site = .verify then none else env.fault site }

variable {env : Env}

/-- The writes of a blocked run succeed. -/
structure BlockWrites (env : Env) : Prop where
  create : env.fault .createOrder = none
  web : env.fault .updateWebVerify = none
  blocked : env.fault .updateBlocked = none

/-- The run failed and handed nothing to the broker, and its order is cancelled unless a write failed. -/
structure CancelsOrder (env : Env) (w : World) (res : ExecutionResult) (w' : World) : Prop where
  failed : res.success = false
  unplaced : placements (w.since w') = []
  cancelled : BlockWrites env → ∃ id, res.orderId = some id ∧
    (w'.orders.get? id).map (·.status) = some .cancelled

theorem status_step {id : ℕ} {status : OrderStatus} (w : World) (e : Step)
    (h : (w.orders.get? id).map (·.status) = some status) :
    ((w.step e).orders.get? id).map (·.status) = some status := ((step_frame w e).status id).trans h

variable {run : Run} {tradeDecision : TradeDecision} {label : String}
  {proceed : ℕ → WebVerification → ApprovalStatus → M ExecutionResult}

theorem block_cancels (id : ℕ) (hwrite : env.fault .updateBlocked = none) {w : World}
    (hw : (w.orders.get? id).map (·.status) = some .pending) :
    wp (block env run id env.verification) (fun res w' => res.orderId = some id ∧
      (w'.orders.get? id).map (·.status) = some .cancelled) (fun _ _ => False) w := by
  unfold block updateOrder
  rw [wp_bind]
  refine wp_await_ok hwrite status_step hw fun w₁ hw₁ => ?_
  rw [wp_modify, wp_bind]
  obtain ⟨row, hrow, _⟩ := Option.map_eq_some_iff.1 hw₁
  refine wp_mono (wp_notifySafe (I := fun w => (w.orders.get? id).map (·.status) = some .cancelled)
    status_step ?_) (fun _ w₂ hw₂ => ?_) fun _ _ h => h
  · simp only [Table.get?_update, if_pos, hrow, Option.map_some]
  · rw [wp_bind]
    exact wp_mono (wp_recordDecisionSafe status_step hw₂) (fun _ w₃ hw₃ => ⟨rfl, hw₃⟩) fun _ _ h => h

/-- A blocked order whose writes succeed is cancelled. -/
theorem submit_cancels (hblocked : env.verification.result = .blocked) (hverify : env.fault .verify = none)
    (hwrites : BlockWrites env) (w : World) :
    wp (submit env run tradeDecision label proceed) (fun res w' => ∃ id, res.orderId = some id ∧
      (w'.orders.get? id).map (·.status) = some .cancelled) (fun _ _ => False) w := by
  unfold submit createOrder
  rw [wp_tryCatch, wp_bind]
  refine wp_await_ok (I := fun _ => True) hwrites.create (fun _ _ h => h) trivial fun w₁ _ => ?_
  -- the row of the new order is there from here on, and pending
  have hpending : (({ w₁ with orders := w₁.orders.insert (fun _ => run.newOrder) } : World).orders.get?
      w₁.orders.nextId).map (·.status) = some .pending := by
    simp only [Table.get?_insert, if_pos, Option.map_some]; rfl
  show wp (tryCatch _ _) _ _ _
  rw [wp_tryCatch]
  unfold verifyAndApprove verify updateOrder
  rw [wp_bind]
  refine wp_await_ok hverify status_step hpending fun w₂ hw₂ => ?_
  rw [wp_pure, wp_bind]
  refine wp_await_ok hwrites.web status_step hw₂ fun w₃ hw₃ => ?_
  rw [wp_modify, if_pos hblocked]
  refine wp_mono (block_cancels _ hwrites.blocked ?_) (fun res w' h => ⟨_, h⟩) fun _ _ h => h.elim
  rw [← hw₃]
  exact map_status_update w₃.orders _ (fun o => { o with
    webVerifyResult := some env.verification.result, webVerifySummary := env.verification.summary })
    (fun _ => rfl) _

/-- A blocked order is cancelled, and never gets to the broker. -/
theorem submit_blocked (hblocked : env.verification.result = .blocked) (hverify : env.fault .verify = none)
    (w : World) : wp (submit env run tradeDecision label proceed) (CancelsOrder env w) (fun _ _ => False) w := by
  have hends : wp (submit env run tradeDecision label proceed)
      (fun res w' => res.success = false ∧ placements (w.since w') = []) (fun _ _ => False) w := by
    refine Goal.submit_nothing ⟨?_, fun _ _ _ hnot => absurd hblocked hnot⟩
    intro res l w' hres hquiet hun
    exact ⟨hres, hquiet.logs.placements.trans (placements_of_unapproved hun)⟩
  by_cases hwrites : BlockWrites env
  · exact wp_mono (wp_and hends (submit_cancels hblocked hverify hwrites w))
      (fun res w' h => ⟨h.1.1, h.1.2, fun _ => h.2⟩) fun _ _ h => h.1
  · exact wp_mono hends (fun res w' h => ⟨h.1, h.2, fun h => absurd h hwrites⟩) fun _ _ h => h

/-! ## The law -/

/-- A BLOCKED verdict is kept: it is returned, the entries and exits of the symbol and side that it is
for are cancelled, and the fail-open result stands for no verdict. -/
structure BlockedKept (V : WebSearchVerifier) (env : Env) (symbol : String) (side : OrderSide)
    (s s' : VerifyWorld) (v : WebVerification) : Prop where
  blocked : V.verdict symbol side = some .blocked → v.result = .blocked
  entry : V.verdict symbol side = some .blocked → ∀ args w, args.run.symbol = symbol → args.run.side = side →
    ∃ res w', executeEntry (env.verifiedAs v) args w = .ok res w' ∧ CancelsOrder (env.verifiedAs v) w res w'
  exit : V.verdict symbol side = some .blocked → side = .sell → ∀ exit w, exit.exitSignal.symbol = symbol →
    exit.exitSignal.reason ≠ .stopLoss → ∃ res w', executeExit (env.verifiedAs v) exit w = .ok res w' ∧
      CancelsOrder (env.verifiedAs v) w res w'
  failOpen : .failed ∈ s'.events.drop s.events.length → V.verdict symbol side = none

theorem blockedKept_of_completed {V : WebSearchVerifier} {symbol : String} {side : OrderSide}
    {s s' : VerifyWorld} {v : WebVerification} {result : WebVerifyResult}
    (hverdict : V.verdict symbol side = some result) (hv : v.result = result)
    (hevents : s'.events = s.events ++ [.completed result]) : BlockedKept V env symbol side s s' v := by
  have hblocked : V.verdict symbol side = some .blocked → v.result = .blocked := fun h => by
    rw [hverdict, Option.some.injEq] at h
    exact hv.trans h
  refine ⟨hblocked, fun h args w _ _ => ?_, fun h _ exit w _ _ => ?_, fun h => ?_⟩
  · exact ok_of_wp (submit_blocked (hblocked h) rfl w)
  · exact ok_of_wp (submit_blocked (hblocked h) rfl w)
  · rw [hevents, List.drop_left] at h
    simp at h

/-- For every symbol and side, every answer of the search model and every failure around it: a BLOCKED
verdict is kept if and only if the row for the verdict is inserted. -/
theorem blockedKept_iff (V : WebSearchVerifier) (env : Env) (symbol : String) (side : OrderSide)
    (s : VerifyWorld) (henabled : V.cfg.webVerifyEnabled = true) :
    ∃ v s', V.verify symbol side false s = .ok v s' ∧
      (BlockedKept V env symbol side s s' v ↔ (V.verdict symbol side ≠ none → V.Records symbol side)) := by
  have hspec : wp (V.verify symbol side false) (WebSearchVerifier.Verified V symbol side s)
    (fun _ _ => False) s := WebSearchVerifier.verify_spec henabled s
  unfold wp at hspec
  cases hrun : V.verify symbol side false s with
  | error e s' => rw [hrun] at hspec; exact hspec.elim
  | ok v s' =>
    rw [hrun] at hspec
    refine ⟨v, s', rfl, ?_⟩
    cases hspec with
    | completed parsed routing result hroute hvalue hrow hevents =>
      have hverdict := WebSearchVerifier.verdict_eq_some.2 ⟨parsed, routing, hroute, hvalue⟩
      refine iff_of_true (blockedKept_of_completed hverdict rfl hevents) fun _ => ?_
      intro parsed' routing' result' hroute' hvalue'
      rw [hroute] at hroute'
      cases hroute'
      rw [hvalue] at hvalue'
      cases hvalue'
      exact hrow
    | failed hcause hevents =>
      have hfailed : .failed ∈ s'.events.drop s.events.length := by
        rw [hevents, List.drop_left]
        exact List.mem_singleton_self _
      constructor
      · exact fun h hverdict => absurd (h.failOpen hfailed) hverdict
      · intro h
        have hnone : V.verdict symbol side = none := by
          by_contra hverdict
          rcases hcause with hcause | hcause
          · exact hverdict hcause
          · exact hcause (h hverdict)
        have hno : V.verdict symbol side = some .blocked → False := by rw [hnone]; simp
        exact ⟨fun h => (hno h).elim, fun h => (hno h).elim, fun h => (hno h).elim, fun _ => hnone⟩

/-- A search model that blocks every order, with the decision log of the parameter. -/
def blockingVerifier (insertFault : DecisionLog → Option (Async.Fault Exn)) : WebSearchVerifier where
  router := {
    row := fun _ => .ok none
    defaults := fun _ => .ok (some {
      agentType := .webVerifier, routingMode := .fixed, primaryModel := "openai/gpt-4o" })
    complete := fun _ _ => .ok ⟨"blocked", 100, 50, 1 / 200⟩
    str := fun _ => ""
    providers_parse := parses_nil }
  readOutput text := .ok ⟨text, "거래정지", ["거래정지"], 3, "거래정지"⟩
  dumpOutput output := output.result
  insertFault
  str _ := ""

/-- With a decision log that works, the verdict is kept. -/
theorem blockedKept_recorded : ∃ v s',
    (blockingVerifier fun _ => none).verify "005930" .buy false {} = .ok v s' ∧
      BlockedKept (blockingVerifier fun _ => none) plainEnv "005930" .buy {} s' v := by
  obtain ⟨v, s', hrun, hiff⟩ := blockedKept_iff (blockingVerifier fun _ => none) plainEnv "005930" .buy {} rfl
  exact ⟨v, s', hrun, hiff.2 fun _ _ _ _ _ _ => rfl⟩

/-- The database fails while the verdict is recorded, and the order is as good as verified. -/
theorem blockedVerdict_lost : ¬ ∃ v s',
    (blockingVerifier fun _ => some ⟨.databaseError "connection lost", false⟩).verify "005930" .buy false {} =
      .ok v s' ∧
    BlockedKept (blockingVerifier fun _ => some ⟨.databaseError "connection lost", false⟩) plainEnv
      "005930" .buy {} s' v := by
  rintro ⟨v, s', hrun, hkept⟩
  have hverdict : (blockingVerifier fun _ => some ⟨.databaseError "connection lost", false⟩).verdict
      "005930" .buy = some .blocked := by decide +kernel
  have hsafe : v.result = .safe := by
    cases hrun; rfl
  rw [hkept.blocked hverdict] at hsafe
  cases hsafe

end TradingAgent
