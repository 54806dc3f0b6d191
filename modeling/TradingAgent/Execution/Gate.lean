/-
The approval gate. Whatever the callbacks, the API and the failures do, a run hands at most one order to
the broker, and only past the web verification and with an automatic approval or with the consent of a
callback that carried the id of its request.
-/
import TradingAgent.Execution.Placement

namespace TradingAgent

open Wp Execution ApprovalManager OrderExecutor

variable {env : Env}

/-- The orders handed to the broker in a trace. -/
def placements (t : List Event) : List OrderRequest :=
  t.filterMap fun e => match e with
    | .placed r => some r
    | _ => none

/-- The answers of the broker in a trace. -/
def answers (t : List Event) : List (OrderRequest × OrderResult) :=
  t.filterMap fun e => match e with
    | .answered request result => some (request, result)
    | _ => none

theorem mem_answers {t : List Event} {request : OrderRequest} {result : OrderResult} :
    (request, result) ∈ answers t ↔ .answered request result ∈ t := by
  unfold answers
  rw [List.mem_filterMap]
  constructor
  · rintro ⟨e, he, hs⟩
    cases e with
    | answered request' result' =>
      cases hs
      exact he
    | _ => cases hs
  · exact fun he => ⟨_, he, rfl⟩

theorem placements_append (t t' : List Event) : placements (t ++ t') = placements t ++ placements t' :=
  List.filterMap_append

theorem placements_own (t : List Event) : placements (t.filter Event.isOwn) = placements t := by
  induction t with
  | nil => rfl
  | cons e t ih =>
    rw [List.filter_cons]
    cases e <;> simp [placements, Event.isOwn] at ih ⊢ <;> exact ih

theorem Logs.placements {l : List Event} {w w' : World} (h : Logs l w w') :
    placements (w.since w') = placements l := by
  have hown := own_eq_append h.extends_
  rw [h.own] at hown
  rw [List.append_cancel_left hown, placements_own]

/-! ## The law -/

/-- When an order may go out: approval is switched off, or the action needs none, or the order is a
small sale, or a callback consented. -/
def MayTrade (env : Env) (tradeDecision : TradeDecision) (t : List Event) : Prop :=
  env.cfg.humanApprovalRequired = false ∨
  (tradeDecision.action = .stopLoss ∨ tradeDecision.action = .takeProfit) ∨
  (tradeDecision.action = .sell ∧ ∃ price, tradeDecision.price = some price ∧
    (0 < (env.portfolio .getCurrentState).totalValue → tradeDecision.quantity * price ≤
      env.cfg.autoExecuteMaxPortfolioPct / 100 * (env.portfolio .getCurrentState).totalValue)) ∨
  Consented env.requestId t

/-- What a run from `w` to `w'` may have done at the broker. -/
structure Gated (env : Env) (tradeDecision : TradeDecision) (w w' : World) : Prop where
  once : (placements (w.since w')).length ≤ 1
  verified : placements (w.since w') ≠ [] → env.verification.result ≠ .blocked
  consent : placements (w.since w') ≠ [] → MayTrade env tradeDecision (w.since w')
  refused : ∀ status, .waitEnded env.requestId status ∈ w.since w' → status ≠ .approved →
    placements (w.since w') = []

theorem mayTrade_of_auto {tradeDecision : TradeDecision} (t : List Event)
    (h : checkAutoApprove env tradeDecision (portfolioPct tradeDecision (env.portfolio .getCurrentState)) ≠ none) :
    MayTrade env tradeDecision t := by
  unfold checkAutoApprove at h
  split at h
  · rename_i hoff
    exact .inl hoff
  split at h
  · rename_i hexit
    exact .inr (.inl hexit)
  split at h
  · rename_i hsell
    obtain ⟨hsell, hprice, hpct⟩ := hsell
    obtain ⟨price, hprice⟩ := Option.isSome_iff_exists.1 hprice
    refine .inr (.inr (.inl ⟨hsell, price, hprice, fun hpos => ?_⟩))
    unfold portfolioPct positionValue at hpct
    rw [if_pos hpos, hprice, Option.getD_some] at hpct
    -- the percentage test, cleared of the division by the total value
    have hscaled := mul_le_mul_of_nonneg_right hpct (le_of_lt (div_pos hpos (by norm_num : (0 : ℚ) < 100)))
    calc (tradeDecision.quantity : ℚ) * price
        = tradeDecision.quantity * price / (env.portfolio .getCurrentState).totalValue * 100 *
            ((env.portfolio .getCurrentState).totalValue / 100) := by field_simp
      _ ≤ env.cfg.autoExecuteMaxPortfolioPct * ((env.portfolio .getCurrentState).totalValue / 100) := hscaled
      _ = env.cfg.autoExecuteMaxPortfolioPct / 100 * (env.portfolio .getCurrentState).totalValue := by ring
  · exact absurd rfl h

theorem gated_of_unplaced {tradeDecision : TradeDecision} {l : List Event} {w w' : World} (h : Logs l w w')
    (hl : placements l = []) : Gated env tradeDecision w w' := by
  have hnone : placements (w.since w') = [] := h.placements.trans hl
  exact ⟨by rw [hnone]; simp, fun hne => absurd hnone hne, fun hne => absurd hnone hne, fun _ _ _ => hnone⟩

theorem placements_of_unapproved {l : List Event} (h : Unapproved env l) : placements l = [] := by
  rcases h with rfl | ⟨status, _, rfl⟩ <;> rfl

/-- A run that came past its approval in `w₁` and from there logged `l`. -/
theorem gated_of_approved {tradeDecision : TradeDecision} {status : ApprovalStatus} {l : List Event}
    {w w₁ w' : World} (hnot : env.verification.result ≠ .blocked)
    (happ : Approved env tradeDecision w status w₁) (hlogs : Logs l w₁ w')
    (honce : (placements l).length ≤ 1) (hwait : ∀ status, .waitEnded env.requestId status ∉ l) :
    Gated env tradeDecision w w' := by
  rcases happ with ⟨hauto, _, hquiet⟩ | ⟨_, hquiet, hcons⟩
  · have hall : Logs l w w' := hquiet.logs.trans hlogs
    refine ⟨hall.placements ▸ honce, fun _ => hnot, fun _ => mayTrade_of_auto _ hauto, fun s hs _ => ?_⟩
    exact absurd ((hall.mem_since rfl).1 hs) (hwait s)
  · have hall : Logs (.waitEnded env.requestId .approved :: l) w w' := hquiet.logs.trans hlogs
    refine ⟨hall.placements ▸ honce, fun _ => hnot, fun _ => ?_, fun s hs hne => ?_⟩
    · exact .inr (.inr (.inr (hcons.mono hquiet.extends_ hlogs.extends_)))
    · rcases List.mem_cons.1 ((hall.mem_since rfl).1 hs) with hmem | hmem
      · rw [Event.waitEnded.injEq] at hmem
        exact absurd hmem.2 hne
      · exact absurd hmem (hwait s)

/-- What a placement logged. -/
theorem OrderExecutor.Placement.logged {run : Run} {id : ℕ} {q : ℤ} {w w' : World} {res : ExecutionResult}
    (h : Placement env run id q w res w') :
    ∃ l, Logs l w w' ∧ (placements l).length ≤ 1 ∧ ∀ status, .waitEnded env.requestId status ∉ l := by
  cases h with
  | refused _ hlogs => exact ⟨_, hlogs, by simp [placements], by simp⟩
  | raised r _ hlogs => exact ⟨_, hlogs, by simp [placements], by simp⟩
  | failed r _ hlogs => exact ⟨_, hlogs, by simp [placements], by simp⟩
  | filled r _ hlogs => exact ⟨_, hlogs, by simp [placements], by simp⟩

/-- What an approved entry logged. -/
theorem OrderExecutor.EntryEnd.logged {args : EntryArgs} {J : ℕ → World → Prop} {id : ℕ} {w w' : World}
    {res : ExecutionResult}
    (h : EntryEnd env args J id [] w (fun q w₁ => Placement env args.run id q w₁) res w') :
    ∃ l, Logs l w w' ∧ (placements l).length ≤ 1 ∧ ∀ status, .waitEnded env.requestId status ∉ l := by
  cases h with
  | unread l' _ _ hquiet hl' =>
    refine ⟨l', hquiet.logs, ?_⟩
    rcases hl' with rfl | ⟨row, rfl⟩ <;> simp [placements]
  | stopped row m hread => exact ⟨_, hread.quiet.logs, by simp [placements], by simp⟩
  | sent row q w₁ hread _ _ hX =>
    obtain ⟨l, hlogs, honce, hwait⟩ := hX.logged
    exact ⟨_, hread.quiet.logs.trans hlogs, honce, by simpa using hwait⟩

/-! ## Runs -/

theorem ok_of_wp {x : M ExecutionResult} {Q : ExecutionResult → World → Prop} {w : World}
    (h : wp x Q (fun _ _ => False) w) : ∃ res w', x w = .ok res w' ∧ Q res w' := by
  unfold wp at h
  cases hx : x w with
  | ok res w' => rw [hx] at h; exact ⟨res, w', rfl, h⟩
  | error e w' => rw [hx] at h; exact h.elim

theorem executeEntry_gated (args : EntryArgs) (w : World) :
    wp (executeEntry env args) (fun _ w' => Gated env args.tradeDecision w w') (fun _ _ => False) w := by
  refine Goal.submit_nothing ⟨?_, ?_⟩
  · intro _ l w' _ hquiet hun
    exact gated_of_unplaced hquiet.logs (placements_of_unapproved hun)
  · intro id status w₁ hnot happ _
    have hends : ∀ res w', EntryEnd env args (fun _ _ => True) id [] w₁
        (fun q w₁ => Placement env args.run id q w₁) res w' → Gated env args.tradeDecision w w' := by
      intro res w' h
      obtain ⟨l, hlogs, honce, hwait⟩ := h.logged
      exact gated_of_approved hnot happ hlogs honce hwait
    exact wp_mono (confirmEntry_spec (fun _ _ _ _ => trivial)
      (fun q w₁ => execute_placement (trackEntry_tracks args) w₁) (.refl w₁) trivial)
      hends fun e w' h => wp_mono h hends fun _ _ h => h

theorem executeExit_gated (exit : ExitArgs) (w : World) :
    wp (executeExit env exit) (fun _ w' => Gated env (buildExitTradeDecision exit) w w') (fun _ _ => False) w := by
  refine Goal.submit_nothing ⟨?_, ?_⟩
  · intro _ l w' _ hquiet hun
    exact gated_of_unplaced hquiet.logs (placements_of_unapproved hun)
  · intro id status w₁ hnot happ _
    have hends : ∀ res w', Placement env exit.run id exit.run.quantity w₁ res w' →
        Gated env (buildExitTradeDecision exit) w w' := by
      intro res w' h
      obtain ⟨l, hlogs, honce, hwait⟩ := h.logged
      exact gated_of_approved hnot happ hlogs honce hwait
    exact wp_mono (execute_placement (trackExit_tracks exit) w₁) hends
      fun e w' h => wp_mono h hends fun _ _ h => h

end TradingAgent
