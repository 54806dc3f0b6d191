/-
The risk rules at placement. The executor checks a quantity again only if it was modified, for the empty
sector, and in the portfolio of that moment. So a run meets the rules if the quantity of the decision passed
them when the run began and the portfolio has lost no room since, or if a modified quantity leaves room in the
real sector and the portfolio has lost none since it was checked.
-/
import TradingAgent.Execution.Gate
import TradingAgent.Strategy.BatchLimits

namespace TradingAgent

open Wp Execution OrderExecutor AlgoRiskManager

variable {env : Env}

/-- Every BUY handed to the broker passes the risk check with the sector of its symbol, in the portfolio
at placement. -/
def MeetsRiskRules (env : Env) (args : EntryArgs) (src : ReturnsSource) (sectorOf : String → String)
    (t : List Event) : Prop :=
  ∀ r ∈ placements t, r.side = .buy →
    (AlgoRiskManager.check env.cfg src (env.portfolio .placeOrder) r.symbol .buy r.quantity args.run.price
      args.tradeDecision.stopLossPrice (sectorOf r.symbol)).passed = true

/-- The rows that the executor read back in a trace. -/
def rereads (t : List Event) : List (Option Order) :=
  t.filterMap fun e => match e with
    | .reread row => some row
    | _ => none

theorem rereads_append (t t' : List Event) : rereads (t ++ t') = rereads t ++ rereads t' :=
  List.filterMap_append

theorem rereads_own (t : List Event) : rereads (t.filter Event.isOwn) = rereads t := by
  induction t with
  | nil => rfl
  | cons e t ih =>
    rw [List.filter_cons]
    cases e <;> simp [rereads, Event.isOwn] at ih ⊢ <;> exact ih

theorem Logs.rereads {l : List Event} {w w' : World} (h : Logs l w w') : rereads (w.since w') = rereads l := by
  have hown := own_eq_append h.extends_
  rw [h.own] at hown
  rw [List.append_cancel_left hown, rereads_own]

/-- What a run handed over is for the symbol of the decision, in the quantity that goes out for the one row that
was read back. -/
def SentAsRead (env : Env) (args : EntryArgs) (t : List Event) : Prop :=
  ∀ r ∈ placements t, r.symbol = args.run.symbol ∧ r.side = args.run.side ∧
    ∃ row, rereads t = [row] ∧ Sends env args row r.quantity

theorem sent_of_unplaced {args : EntryArgs} {t : List Event} (h : placements t = []) : SentAsRead env args t := by
  intro r hr
  rw [h] at hr
  cases hr

theorem OrderExecutor.Placement.placed {run : Run} {id : ℕ} {q : ℤ} {w w' : World} {res : ExecutionResult}
    (h : Placement env run id q w res w') {r : OrderRequest} (hr : r ∈ placements (w.since w')) :
    run.request q = some r := by
  cases h with
  | refused _ hlogs => rw [hlogs.placements] at hr; cases hr
  | raised r' hreq hlogs =>
    rw [hlogs.placements, show placements [.placed r'] = [r'] from rfl, List.mem_singleton] at hr
    rw [hr, hreq]
  | failed r' hreq hlogs =>
    rw [hlogs.placements, show placements [.placed r', .answered r' (env.placeOrder r')] = [r'] from rfl,
      List.mem_singleton] at hr
    rw [hr, hreq]
  | filled r' hreq hlogs =>
    rw [hlogs.placements, show placements [.placed r', .answered r' (env.placeOrder r')] = [r'] from rfl,
      List.mem_singleton] at hr
    rw [hr, hreq]

/-- A quantity that passed the check again goes out as it is. -/
theorem intOr_recheck {args : EntryArgs} {m : ℤ} (h : (recheck env args m).passed = true) :
    intOr (recheck env args m).adjustedQuantity m = m := by
  have hadj : (recheck env args m).adjustedQuantity = 0 ∨ (recheck env args m).adjustedQuantity = m :=
    AlgoRiskManager.adjusted_of_passed _ _ _ _ _ _ _ h
  unfold intOr
  rcases hadj with hadj | hadj
  · rw [if_pos hadj]
  · rw [hadj]
    split
    · rename_i hm
      exact hm.symm ▸ rfl
    · rfl

/-- The quantity that goes out is that of the decision, or a modified one that passed the check again. -/
theorem OrderExecutor.Sends.cases_modified {args : EntryArgs} {row : Option Order} {q : ℤ}
    (h : Sends env args row q) :
    (row.bind (·.modifiedQuantity) = none ∧ q = args.run.quantity) ∨
      (row.bind (·.modifiedQuantity) = some q ∧ (recheck env args q).passed = true) := by
  cases h with
  | original hnone => exact .inl ⟨hnone, rfl⟩
  | modified m hmod _ hpassed =>
    rw [intOr_recheck hpassed]
    exact .inr ⟨hmod, hpassed⟩

theorem recheck_buy {args : EntryArgs} {m : ℤ} (hside : args.run.side = .buy) :
    recheck env args m = AlgoRiskManager.check env.cfg env.returns (env.portfolio .riskCheck) args.run.symbol .buy
      m args.run.price args.tradeDecision.stopLossPrice "" := by
  unfold recheck
  rw [if_pos hside]

theorem sent_of_placement {args : EntryArgs} {J : ℕ → World → Prop} {id : ℕ} {l : List Event} {q : ℤ}
    {row : Option Order} {w w₁ w₂ w' : World} {res : ExecutionResult} (hlogs : Logs l w w₁)
    (hl : placements l = [] ∧ rereads l = []) (hread : Reread J id [] w₁ w₂ row) (hsends : Sends env args row q)
    (h : Placement env args.run id q w₂ res w') : SentAsRead env args (w.since w') := by
  obtain ⟨l', hlogs', hnone⟩ : ∃ l', Logs l' w₂ w' ∧ rereads l' = [] := by
    cases h with
    | refused _ hlogs => exact ⟨_, hlogs, rfl⟩
    | raised r _ hlogs => exact ⟨_, hlogs, rfl⟩
    | failed r _ hlogs => exact ⟨_, hlogs, rfl⟩
    | filled r _ hlogs => exact ⟨_, hlogs, rfl⟩
  have hto : Logs (l ++ [.reread row]) w w₂ := hlogs.trans hread.quiet.logs
  intro r hr
  have hmem : r ∈ placements (w₂.since w') := by
    rw [(hto.trans hlogs').placements, placements_append, placements_append, hl.1] at hr
    rw [hlogs'.placements]
    exact hr
  obtain ⟨hsymbol, hside, hquantity, _, _⟩ := Run.request_eq_some (h.placed hmem)
  refine ⟨hsymbol, hside, row, ?_, hquantity ▸ hsends⟩
  rw [(hto.trans hlogs').rereads, rereads_append, rereads_append, hl.2, hnone]
  rfl

theorem executeEntry_sent (args : EntryArgs) (w : World) :
    wp (executeEntry env args) (fun _ w' => SentAsRead env args (w.since w')) (fun _ _ => False) w := by
  refine Goal.submit_nothing ⟨?_, ?_⟩
  · intro _ l w' _ hquiet hun
    exact sent_of_unplaced (hquiet.logs.placements.trans (placements_of_unapproved hun))
  · intro id status w₁ _ happ _
    obtain ⟨l, hlogs, hl⟩ : ∃ l, Logs l w w₁ ∧ placements l = [] ∧ rereads l = [] := by
      rcases happ with ⟨_, _, hquiet⟩ | ⟨_, hquiet, _⟩ <;> exact ⟨_, hquiet.logs, rfl, rfl⟩
    have hends : ∀ res w', EntryEnd env args (fun _ _ => True) id [] w₁
        (fun q w₁ => Placement env args.run id q w₁) res w' → SentAsRead env args (w.since w') := by
      intro res w' h
      cases h with
      | unread l' _ _ hquiet hl' =>
        refine sent_of_unplaced ?_
        rw [(hlogs.trans hquiet.logs).placements, placements_append, hl.1]
        rcases hl' with rfl | ⟨row, rfl⟩ <;> rfl
      | stopped row m hread =>
        refine sent_of_unplaced ?_
        rw [(hlogs.trans hread.quiet.logs).placements, placements_append, hl.1]
        rfl
      | sent row q w₂ hread _ hsends hX => exact sent_of_placement hlogs hl hread hsends hX
    exact wp_mono (confirmEntry_spec (fun _ _ _ _ => trivial)
      (fun q w₁ => execute_placement (trackEntry_tracks args) w₁) (.refl w₁) trivial)
      hends fun e w' h => wp_mono h hends fun _ _ h => h

/-! ## What keeps the rules -/

/-- A later portfolio leaves a BUY of a symbol at least the room that an earlier one left. -/
structure RoomKept (cfg : Settings) (symbol sector : String) (earlier later : PortfolioState) : Prop where
  value : earlier.totalValue ≤ later.totalValue
  risk : earlier.totalValue * cfg.riskPerTradePct ≤ later.totalValue * cfg.riskPerTradePct
  cap : earlier.totalValue * cfg.maxPositionPct ≤ later.totalValue * cfg.maxPositionPct
  existing : existingValue later symbol ≤ existingValue earlier symbol
  held : symbol ∈ heldSymbols earlier → symbol ∈ heldSymbols later
  holdings : (heldSymbols later).length ≤ (heldSymbols earlier).length
  allocation : (later.sectorAllocations.get? sector).getD 0 ≤ (earlier.sectorAllocations.get? sector).getD 0
  drawdown : later.drawdownPct ≤ earlier.drawdownPct
  pnl : earlier.dailyPnl ≤ later.dailyPnl
  pnlPct : earlier.dailyPnlPct ≤ later.dailyPnlPct
  trades : later.dailyTradeCount ≤ earlier.dailyTradeCount

theorem RoomKept.refl (cfg : Settings) (symbol sector : String) (state : PortfolioState) :
    RoomKept cfg symbol sector state state :=
  ⟨le_rfl, le_rfl, le_rfl, le_rfl, id, le_rfl, le_rfl, le_rfl, le_rfl, le_rfl, le_rfl⟩

/-- What passed in the earlier portfolio passes in the later one. -/
theorem RoomKept.passed {cfg : Settings} {symbol sector : String} {earlier later : PortfolioState}
    (h : RoomKept cfg symbol sector earlier later) {src src' : ReturnsSource} {q : ℤ} (hq : 0 ≤ q) {price : Decimal}
    {stop : Option Decimal} (hpassed : (check cfg src earlier symbol .buy q price stop sector).passed = true) :
    (check cfg src' later symbol .buy q price stop sector).passed = true := by
  rw [passed_buy_iff] at hpassed ⊢
  obtain ⟨⟨hprice, hvalue⟩, hsizing, hposition, hholdings, hsector, hdrawdown, hloss, htrades⟩ := hpassed
  refine ⟨⟨hprice, hvalue.trans_le h.value⟩, ?_, ?_, ?_, ?_, ?_, ?_, ?_⟩
  · exact checkPositionSizing_mono h.risk hsizing
  · rw [checkMaxPosition_ok_iff] at hposition ⊢
    calc existingValue later symbol + q * price
        ≤ existingValue earlier symbol + q * price := add_le_add_left h.existing _
      _ ≤ min (earlier.totalValue * cfg.maxPositionPct / 100) (cfg.maxPositionSizeKrw : Decimal) := hposition
      _ ≤ _ := min_le_min_right _ (div_le_div_of_nonneg_right h.cap (by norm_num))
  · rw [checkMaxHoldings_ok_iff] at hholdings ⊢
    rcases hholdings with hheld | hfew
    · exact .inl (h.held hheld)
    · exact .inr ((Int.ofNat_le.2 h.holdings).trans_lt hfew)
  · rw [checkSectorConcentration_ok_iff] at hsector ⊢
    have hworth : 0 ≤ (q : Decimal) * price := mul_nonneg (Int.cast_nonneg hq) hprice.le
    have hshare : q * price / later.totalValue * 100 ≤ q * price / earlier.totalValue * 100 :=
      mul_le_mul_of_nonneg_right (div_le_div_of_nonneg_left hworth hvalue h.value) (by norm_num)
    exact (add_le_add h.allocation hshare).trans hsector
  · unfold checkMaxDrawdown at hdrawdown ⊢
    split at hdrawdown
    · cases hdrawdown
    · rename_i hless
      rw [if_neg fun hge => hless (hge.trans h.drawdown)]
  · rw [checkDailyLossLimit_ok_iff] at hloss ⊢
    exact ⟨hloss.1.trans h.pnlPct, hloss.2.trans h.pnl⟩
  · rw [checkDailyTrades_ok_iff] at htrades ⊢
    exact h.trades.trans_lt htrades

/-- A BUY in the quantity of the decision is guarded if that passed the rules in the portfolio read before the
approval, and the portfolio has lost no room since. A BUY in a modified quantity is guarded if its amount fits
what the sector of the symbol has left, and the portfolio has lost no room since the quantity was checked. -/
def Guarded (env : Env) (args : EntryArgs) (src : ReturnsSource) (sectorOf : String → String) :
    Option ℤ → Prop
  | none =>
    (check env.cfg src (env.portfolio .getCurrentState) args.run.symbol .buy args.run.quantity args.run.price
      args.tradeDecision.stopLossPrice (sectorOf args.run.symbol)).passed = true ∧
    RoomKept env.cfg args.run.symbol (sectorOf args.run.symbol) (env.portfolio .getCurrentState)
      (env.portfolio .placeOrder)
  | some m =>
    ((env.portfolio .riskCheck).sectorAllocations.get? (sectorOf args.run.symbol)).getD 0 +
        m * args.run.price / (env.portfolio .riskCheck).totalValue * 100 ≤ env.cfg.sectorConcentrationPct ∧
    RoomKept env.cfg args.run.symbol (sectorOf args.run.symbol) (env.portfolio .riskCheck)
      (env.portfolio .placeOrder)

/-- Every BUY that a trace hands over is guarded, in the modified quantity of the row that was read back or
without one. -/
def AllGuarded (env : Env) (args : EntryArgs) (src : ReturnsSource) (sectorOf : String → String)
    (t : List Event) : Prop :=
  ∀ r ∈ placements t, r.side = .buy → ∀ row ∈ rereads t,
    Guarded env args src sectorOf (row.bind (·.modifiedQuantity))

/-- The portfolio is the same when the run reads it, at the check and at placement. -/
def Unmoved (env : Env) : Prop :=
  env.portfolio .getCurrentState = env.portfolio .placeOrder ∧ env.portfolio .riskCheck = env.portfolio .placeOrder

/-- A modified quantity that passed the check passes for the real sector if it leaves room there. -/
theorem passed_modified_iff {args : EntryArgs} {m : ℤ} (hbuy : args.run.side = .buy)
    (hpassed : (recheck env args m).passed = true) (src : ReturnsSource) {sector : String} :
    (check env.cfg src (env.portfolio .riskCheck) args.run.symbol .buy m args.run.price
        args.tradeDecision.stopLossPrice sector).passed = true ↔
      ((env.portfolio .riskCheck).sectorAllocations.get? sector).getD 0 +
        m * args.run.price / (env.portfolio .riskCheck).totalValue * 100 ≤ env.cfg.sectorConcentrationPct := by
  rw [recheck_buy hbuy] at hpassed
  rw [passed_other_sector _ _ _ _ _ _ _ hpassed, checkSectorConcentration_ok_iff]

/-- In a run whose BUY placements are all guarded the risk rules hold at placement; and if the portfolio does
not move during the run, in no other. -/
theorem meetsRiskRules_of_guarded (env : Env) (args : EntryArgs) (src : ReturnsSource)
    (sectorOf : String → String) (w : World) {res : ExecutionResult} {w' : World}
    (hrun : executeEntry env args w = .ok res w') :
    (AllGuarded env args src sectorOf (w.since w') → MeetsRiskRules env args src sectorOf (w.since w')) ∧
      (Unmoved env → MeetsRiskRules env args src sectorOf (w.since w') →
        AllGuarded env args src sectorOf (w.since w')) := by
  have hsent := wp_of_ok (executeEntry_sent args w) hrun
  refine ⟨fun hguarded r hr hbuy => ?_, fun hunmoved hmeets r hr hbuy row hrow => ?_⟩
  · obtain ⟨hsymbol, hside, row, hrows, hsends⟩ := hsent r hr
    have hg := hguarded r hr hbuy row (hrows ▸ List.mem_singleton_self row)
    rw [hsymbol]
    rcases hsends.cases_modified with ⟨hnone, hquantity⟩ | ⟨hmod, hpassed⟩
    · rw [hnone] at hg
      rw [hquantity]
      exact hg.2.passed (hquantity ▸ r.quantity_pos.le) hg.1
    · rw [hmod] at hg
      exact hg.2.passed r.quantity_pos.le ((passed_modified_iff (hside.symm.trans hbuy) hpassed src).2 hg.1)
  · obtain ⟨hsymbol, hside, row', hrows, hsends⟩ := hsent r hr
    rw [hrows, List.mem_singleton] at hrow
    subst hrow
    have hmeet := hmeets r hr hbuy
    rw [hsymbol] at hmeet
    rcases hsends.cases_modified with ⟨hnone, hquantity⟩ | ⟨hmod, hpassed⟩
    · rw [hnone, Guarded, hunmoved.1, ← hquantity]
      exact ⟨hmeet, RoomKept.refl _ _ _ _⟩
    · rw [← hunmoved.2] at hmeet
      rw [hmod, Guarded, ← passed_modified_iff (hside.symm.trans hbuy) hpassed src, ← hunmoved.2]
      exact ⟨hmeet, RoomKept.refl _ _ _ _⟩

/-- The plain environment with one callback, whose action is handled while the run waits; its transaction
may fail. -/
def answeringEnv (action : String) (fails : Bool := false) : Env :=
  { plainEnv with
    steps := fun site => match site with
      | .waitForResponse =>
        [.tap 1 action, .callbackCommit 0 fails, .callbackRedis 0, .callbackTelegram 0, .callbackSignal 0]
      | _ => [] }

/-- The quantities that a run hands over, and the modified quantities of the rows that it reads back. -/
def gateOutcome (env : Env) (args : EntryArgs) : Option (List ℤ × List (Option ℤ)) :=
  match executeEntry env args {} with
  | .ok _ w' => some ((placements (World.since {} w')).map (·.quantity),
      (rereads (World.since {} w')).map (fun row => row.bind (·.modifiedQuantity)))
  | .error _ _ => none

theorem gateOutcome_eq_some {env : Env} {args : EntryArgs} {quantities : List ℤ} {m : Option ℤ}
    (h : gateOutcome env args = some (quantities, [m])) : ∃ res w', executeEntry env args {} = .ok res w' ∧
      (placements (World.since {} w')).map (·.quantity) = quantities ∧
      ∀ row ∈ rereads (World.since {} w'), row.bind (·.modifiedQuantity) = m := by
  unfold gateOutcome at h
  cases hrun : executeEntry env args {} with
  | error e w' => rw [hrun] at h; cases h
  | ok res w' =>
    rw [hrun, Option.some.injEq, Prod.mk.injEq] at h
    refine ⟨res, w', rfl, h.1, fun row hrow => ?_⟩
    have hmem := List.mem_map_of_mem (f := fun row : Option Order => row.bind (·.modifiedQuantity)) hrow
    rw [h.2, List.mem_singleton] at hmem
    exact hmem

/-- Ten shares meet the rules, approved as they are or cut down to five on Telegram. -/
theorem meetsRiskRules_tenOrFive :
    (∃ res w', executeEntry (answeringEnv "approve") buyTen {} = .ok res w' ∧
      (placements (World.since {} w')).map (·.quantity) = [10] ∧
      MeetsRiskRules (answeringEnv "approve") buyTen noReturns (fun _ => "반도체") (World.since {} w')) ∧
    ∃ res w', executeEntry (answeringEnv "modify:5") buyTen {} = .ok res w' ∧
      (placements (World.since {} w')).map (·.quantity) = [5] ∧
      MeetsRiskRules (answeringEnv "modify:5") buyTen noReturns (fun _ => "반도체") (World.since {} w') := by
  constructor
  · obtain ⟨res, w', hrun, hten, hrows⟩ := gateOutcome_eq_some
      (show gateOutcome (answeringEnv "approve") buyTen = some ([10], [none]) by decide +kernel)
    refine ⟨res, w', hrun, hten, (meetsRiskRules_of_guarded _ _ _ _ _ hrun).1 fun r hr hbuy row hrow => ?_⟩
    rw [hrows row hrow]
    exact ⟨by decide +kernel, RoomKept.refl _ _ _ _⟩
  · obtain ⟨res, w', hrun, hfive, hrows⟩ := gateOutcome_eq_some
      (show gateOutcome (answeringEnv "modify:5") buyTen = some ([5], [some 5]) by decide +kernel)
    refine ⟨res, w', hrun, hfive, (meetsRiskRules_of_guarded _ _ _ _ _ hrun).1 fun r hr hbuy row hrow => ?_⟩
    rw [hrows row hrow]
    exact ⟨by decide +kernel, RoomKept.refl _ _ _ _⟩

/-- A hundred shares, at seven tenths of the portfolio. -/
def buyHundred : EntryArgs := { buyTen with tradeDecision := { buyTen.tradeDecision with quantity := 100 } }

/-- Approved as they are, a hundred shares go out against the rules. -/
theorem approved_against_rules : ∃ res w', executeEntry (answeringEnv "approve") buyHundred {} = .ok res w' ∧
    ¬ MeetsRiskRules (answeringEnv "approve") buyHundred AlgoRiskManager.noReturns (fun _ => "반도체")
      (World.since {} w') := by
  have hval : (match executeEntry (answeringEnv "approve") buyHundred {} with
      | .ok _ w' => (placements (World.since {} w')).any (fun r => decide (r.side = .buy ∧
          (AlgoRiskManager.check {} AlgoRiskManager.noReturns (plainEnv.portfolio .placeOrder) r.symbol .buy
            r.quantity 70000 none "반도체").passed = false))
      | .error _ _ => false) = true := by decide +kernel
  cases hrun : executeEntry (answeringEnv "approve") buyHundred {} with
  | error e w' => rw [hrun] at hval; cases hval
  | ok res w' =>
    rw [hrun, List.any_eq_true] at hval
    obtain ⟨r, hr, hbad⟩ := hval
    obtain ⟨hbuy, hfalse⟩ := of_decide_eq_true hbad
    refine ⟨res, w', rfl, fun hmeets => ?_⟩
    exact Bool.false_ne_true (hfalse.symm.trans (hmeets r hr hbuy))

end TradingAgent
