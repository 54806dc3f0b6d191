/-
The order row and the result of a run against what the broker answered. They agree exactly where an
accepted order was filled at once and its execution and its row could be written: an order that the
broker only took in, and any failure of these two writes, is reported as a failed order.
-/
import TradingAgent.Execution.Gate
import TradingAgent.Broker.KisClient

namespace TradingAgent

open Wp Execution OrderExecutor

variable {env : Env}

/-- The broker took the order. -/
def OrderResult.Accepted (result : OrderResult) : Prop :=
  result.status = .submitted ∨ result.status = .partiallyFilled ∨ result.status = .filled

/-- The result, or the row of its order, says that the order failed. -/
def ReportsFailure (res : ExecutionResult) (w : World) : Prop :=
  res.success = false ∨ ∃ id row, res.orderId = some id ∧ w.orders.get? id = some row ∧
    (row.status = .failed ∨ row.status = .cancelled)

/-- No order that the broker took between the worlds is reported as failed. -/
def AgreesWithBroker (w w' : World) (res : ExecutionResult) : Prop :=
  ∀ request result, .answered request result ∈ w.since w' → result.Accepted → ¬ ReportsFailure res w'

/-- Every order that the broker took was filled at once, and recording the execution and updating the
order succeed. -/
def FilledAndRecorded (env : Env) (w w' : World) : Prop :=
  ∀ request result, .answered request result ∈ w.since w' → result.Accepted →
    result.status ≠ .submitted ∧ env.fault .recordExecution = none ∧ env.fault .updateFilled = none

theorem agrees_of_unanswered {l : List Event} {w w' : World} {res : ExecutionResult} (hlogs : Logs l w w')
    (hl : ∀ request result, .answered request result ∉ l) :
    AgreesWithBroker w w' res ↔ FilledAndRecorded env w w' := by
  have hnone : ∀ request result, .answered request result ∉ w.since w' := fun request result hmem =>
    hl request result ((hlogs.mem_since rfl).1 hmem)
  exact iff_of_true (fun request result hmem => absurd hmem (hnone request result))
    (fun request result hmem => absurd hmem (hnone request result))

/-- Past the broker call the row and the result agree with the broker exactly if an accepted order was
filled and recorded. -/
theorem agrees_of_placement {run : Run} {id : ℕ} {q : ℤ} {l : List Event} {w w₁ w' : World}
    {res : ExecutionResult} (hlogs : Logs l w w₁) (hl : ∀ request result, .answered request result ∉ l)
    (h : Placement env run id q w₁ res w') : AgreesWithBroker w w' res ↔ FilledAndRecorded env w w' := by
  cases h with
  | refused hreq hlogs' =>
    exact agrees_of_unanswered (hlogs.trans hlogs') fun request result => by simpa using hl request result
  | raised r hreq hlogs' =>
    exact agrees_of_unanswered (hlogs.trans hlogs') fun request result => by simpa using hl request result
  | failed r hreq hlogs' hres hcause =>
    have hmem : ∀ request result, .answered request result ∈ w.since w' ↔
        request = r ∧ result = env.placeOrder r := fun request result => by
      rw [(hlogs.trans hlogs').mem_since rfl]
      simp [hl request result]
    by_cases hacc : (env.placeOrder r).Accepted
    · refine iff_of_false (fun hagree => ?_) fun hrec => ?_
      · exact hagree r _ ((hmem _ _).2 ⟨rfl, rfl⟩) hacc (.inl hres)
      · obtain ⟨hsub, hrec, hupd⟩ := hrec r _ ((hmem _ _).2 ⟨rfl, rfl⟩) hacc
        rcases hcause with hunfilled | hfail | hfail
        · rcases hacc with h | h | h
          · exact hsub h
          · exact hunfilled.2 h
          · exact hunfilled.1 h
        · exact hfail hrec
        · exact hfail hupd
    · refine iff_of_true (fun request result hm ha => ?_) fun request result hm ha => ?_
      all_goals
        obtain ⟨rfl, rfl⟩ := (hmem request result).1 hm
        exact absurd ha hacc
  | filled r hreq hlogs' hres hid hfilled hok hstatus =>
    have hmem : ∀ request result, .answered request result ∈ w.since w' → result = env.placeOrder r :=
      fun request result hm => by
        rw [(hlogs.trans hlogs').mem_since rfl] at hm
        simp [hl request result] at hm
        exact hm.2
    refine iff_of_true (fun request result hm _ hreports => ?_) fun request result hm _ => ?_
    · rcases hreports with hfalse | ⟨id', row, hid', hrow, hbad⟩
      · rw [hres] at hfalse; cases hfalse
      · rw [hid, Option.some.injEq] at hid'
        subst hid'
        rw [hstatus row hrow] at hbad
        rcases hbad with hbad | hbad <;> cases hbad
    · rw [hmem request result hm]
      simp only [ReportFails, not_or, not_not] at hok
      refine ⟨fun hsub => hfilled ?_, hok⟩
      unfold Unfilled
      rw [hsub]
      simp

/-! ## Runs -/

theorem executeEntry_agrees (args : EntryArgs) (w : World) : wp (executeEntry env args)
    (fun res w' => AgreesWithBroker w w' res ↔ FilledAndRecorded env w w') (fun _ _ => False) w := by
  refine Goal.submit_nothing ⟨?_, ?_⟩
  · intro _ l w' _ hquiet hun
    exact agrees_of_unanswered hquiet.logs hun.unanswered
  · intro id status w₁ _ happ _
    obtain ⟨l, hquiet, hl⟩ := happ.unanswered
    have hlogs : Logs l w w₁ := hquiet.logs
    have hends : ∀ res w', EntryEnd env args (fun _ _ => True) id [] w₁
        (fun q w₁ => Placement env args.run id q w₁) res w' →
        (AgreesWithBroker w w' res ↔ FilledAndRecorded env w w') := by
      intro res w' h
      cases h with
      | unread l' _ _ hquiet' hl' =>
        refine agrees_of_unanswered (hlogs.trans hquiet'.logs) fun request result => ?_
        rcases hl' with rfl | ⟨row, rfl⟩ <;> simpa using hl request result
      | stopped row m hread =>
        exact agrees_of_unanswered (hlogs.trans hread.quiet.logs) fun request result => by
          simpa using hl request result
      | sent row q w₂ hread _ _ hX =>
        exact agrees_of_placement (hlogs.trans hread.quiet.logs)
          (fun request result => by simpa using hl request result) hX
    exact wp_mono (confirmEntry_spec (fun _ _ _ _ => trivial)
      (fun q w₁ => execute_placement (trackEntry_tracks args) w₁) (.refl w₁) trivial)
      hends fun e w' h => wp_mono h hends fun _ _ h => h

theorem executeExit_agrees (exit : ExitArgs) (w : World) : wp (executeExit env exit)
    (fun res w' => AgreesWithBroker w w' res ↔ FilledAndRecorded env w w') (fun _ _ => False) w := by
  refine Goal.submit_nothing ⟨?_, ?_⟩
  · intro _ l w' _ hquiet hun
    exact agrees_of_unanswered hquiet.logs hun.unanswered
  · intro id status w₁ _ happ _
    obtain ⟨l, hquiet, hl⟩ := happ.unanswered
    have hlogs : Logs l w w₁ := hquiet.logs
    have hends : ∀ res w', Placement env exit.run id exit.run.quantity w₁ res w' →
        (AgreesWithBroker w w' res ↔ FilledAndRecorded env w w') :=
      fun res w' h => agrees_of_placement hlogs hl h
    exact wp_mono (execute_placement (trackExit_tracks exit) w₁) hends
      fun e w' h => wp_mono h hends fun _ _ h => h

/-- For every order run through the executor, the row and the result agree with the broker if and only
if an order it took was filled at once and recording the execution and updating the order succeed. -/
theorem agreesWithBroker_iff (env : Env) (w : World) :
    (∀ args, ∃ res w', executeEntry env args w = .ok res w' ∧
      (AgreesWithBroker w w' res ↔ FilledAndRecorded env w w')) ∧
    (∀ exit, ∃ res w', executeExit env exit w = .ok res w' ∧
      (AgreesWithBroker w w' res ↔ FilledAndRecorded env w w')) :=
  ⟨fun args => ok_of_wp (executeEntry_agrees args w), fun exit => ok_of_wp (executeExit_agrees exit w)⟩

/-- The plain environment without human approval and with the KIS client as the broker. -/
def kisEnv : Env :=
  { plainEnv with
    cfg := { humanApprovalRequired := false }
    placeOrder := KISClient.placeOrder ⟨"50000000", "01", fun _ _ => "0000117057", 0⟩ }

/-- The KIS client reports the order as submitted, and the run reports it as failed. -/
theorem kisOrder_reported_failed : ¬ ∃ res w', executeEntry kisEnv buyTen {} = .ok res w' ∧
    AgreesWithBroker {} w' res := by
  rintro ⟨res, w', hrun, hagree⟩
  have hval : (match executeEntry kisEnv buyTen {} with
      | .ok res w' => !res.success && (answers (World.since {} w')).any (fun a => decide (a.2.status = .submitted))
      | .error _ _ => false) = true := by decide +kernel
  rw [hrun, Bool.and_eq_true, Bool.not_eq_true', List.any_eq_true] at hval
  obtain ⟨hres, ⟨request, result⟩, hmem, hsubmitted⟩ := hval
  exact hagree request result (mem_answers.1 hmem) (.inl (of_decide_eq_true hsubmitted)) (.inl hres)

end TradingAgent
