/-
Where the presses go. A press that answers a request ends its wait exactly as the user meant, as long as
it is handed over while the bot holds the handler of the request's manager and the request is
registered, and nothing else (the timer, a callback with another answer, an exception) ends the wait first.
-/
import TradingAgent.Notification.TelegramBot

namespace TradingAgent

open Async

/-! ## Callbacks under way -/

/-- The callbacks under way, with what they answer. -/
def World.underway (w : World) : List (RequestId × Answer) := w.callbacks.map fun cb => (cb.requestId, cb.answer)

theorem underway_setPhase {w : World} {i : ℕ} {cb : Callback} (hcb : w.callbacks[i]? = some cb)
    (phase : CallbackPhase) : (w.setPhase i cb phase).underway = w.underway := by
  unfold World.underway World.setPhase
  rw [List.map_set]
  have hget : (w.callbacks.map fun cb => (cb.requestId, cb.answer))[i]? = some (cb.requestId, cb.answer) := by
    rw [List.getElem?_map, hcb, Option.map_some]
  obtain ⟨hi, hget⟩ := List.getElem?_eq_some_iff.1 hget
  rw [← hget]
  exact List.set_getElem_self hi

/-- A step of a callback leaves the dictionaries of the manager alone, or it is the last one. -/
inductive CallbackMove (w : World) (e : CallbackStep) : World → Prop
  | keep {w'} (hevents : w'.pendingEvents = w.pendingEvents) (hresults : w'.pendingResults = w.pendingResults)
      (hmodified : w'.modifiedQuantities = w.modifiedQuantities) (hunderway : w'.underway = w.underway) :
    CallbackMove w e w'
  | signal (i : ℕ) (cb : Callback) (he : e = .signal i) (hcb : w.callbacks[i]? = some cb) :
    CallbackMove w e (w.callbackSignal i cb)

theorem callback_move (w : World) (e : CallbackStep) : CallbackMove w e (w.step e.toStep) := by
  have hidle : CallbackMove w e w := .keep rfl rfl rfl rfl
  have hphase : ∀ i cb phase, w.callbacks[i]? = some cb → CallbackMove w e (w.setPhase i cb phase) :=
    fun i cb phase hcb => .keep rfl rfl rfl (underway_setPhase hcb phase)
  cases e with
  | commit i fails =>
    simp only [CallbackStep.toStep, World.step]
    split
    · exact hidle
    · rename_i cb hcb
      split
      · unfold World.callbackCommit
        dsimp only
        split
        · exact hphase i cb .redis hcb
        · split
          · exact hphase i cb .redis hcb
          · exact .keep rfl rfl rfl (underway_setPhase hcb .redis)
      · exact hidle
  | redis i =>
    simp only [CallbackStep.toStep, World.step]
    split
    · exact hidle
    · rename_i cb hcb
      split
      · exact hphase i cb .telegram hcb
      · exact hidle
  | telegram i =>
    simp only [CallbackStep.toStep, World.step]
    split
    · exact hidle
    · rename_i cb hcb
      split
      · exact hphase i cb .signal hcb
      · exact hidle
  | signal i =>
    simp only [CallbackStep.toStep, World.step]
    split
    · exact hidle
    · rename_i cb hcb
      split
      · exact .signal i cb rfl hcb
      · exact hidle

/-- The last step of a callback takes it from the callbacks under way. -/
theorem underway_signal {w : World} {i : ℕ} {cb : Callback} (hcb : w.callbacks[i]? = some cb) :
    (∀ p ∈ (w.callbackSignal i cb).underway, p ∈ w.underway) ∧
      ∀ p ∈ w.underway, p ∈ (w.callbackSignal i cb).underway ∨ p = (cb.requestId, cb.answer) := by
  have heq : (w.callbackSignal i cb).underway = w.underway.eraseIdx i := (List.eraseIdx_map ..).symm
  rw [heq]
  refine ⟨fun p hp => List.mem_of_mem_eraseIdx hp, fun p hp => ?_⟩
  obtain ⟨j, hj⟩ := List.mem_iff_getElem?.1 hp
  by_cases hij : j = i
  · subst hij
    unfold World.underway at hj
    rw [List.getElem?_map, hcb, Option.map_some, Option.some.injEq] at hj
    exact .inr hj.symm
  · exact .inl (List.mem_eraseIdx_iff_getElem?.2 ⟨j, hij, hj⟩)

namespace Chat

variable {U : UuidText} {s s' : Chat}

/-! ## Handing over a press -/

theorem parseAction_button (button : Button) :
    (parseAction button.action).map (·.status) = button.status ∧
      ∀ a, parseAction button.action = some a → a.modifiedQuantity = none := by
  cases button with
  | approve => exact ⟨by decide +kernel, fun a h => by unfold parseAction Button.action at h; simp at h; rw [← h]⟩
  | reject => exact ⟨by decide +kernel, fun a h => by unfold parseAction Button.action at h; simp at h; rw [← h]⟩
  | modify =>
    -- the manager only knows modify with a quantity behind it
    have hnone : parseAction Button.modify.action = none := by decide +kernel
    exact ⟨by rw [hnone]; rfl, fun a h => by rw [hnone] at h; cases h⟩

/-- What becomes of a press at its handing over. -/
inductive Dispatched (s : Chat) (q : CallbackQuery) (i : ℕ) (fails : Bool) : Chat → Prop
  | dropped (hwhy : fails = false → ∀ m, s.handler = some m →
      (s.managers m).pendingEvents.contains q.requestId = true → q.button.status = none) :
    Dispatched s q i fails { s with queries := s.queries.eraseIdx i }
  | accepted (m : ℕ) (a : Answer) (w : World)
      (hpending : (s.managers m).pendingEvents.contains q.requestId = true)
      (hstatus : q.button.status = some a.status) (hmodified : a.modifiedQuantity = none)
      (hevents : w.pendingEvents = (s.managers m).pendingEvents)
      (hresults : w.pendingResults = (s.managers m).pendingResults)
      (hmodifieds : w.modifiedQuantities = (s.managers m).modifiedQuantities)
      (hunderway : w.underway = (s.managers m).underway ++ [(q.requestId, a)]) :
    Dispatched s q i fails
      { s with queries := s.queries.eraseIdx i, managers := Function.update s.managers m w }

theorem dispatch_spec {q : CallbackQuery} {i : ℕ} (hq : s.queries[i]? = some q) (fails : Bool) :
    Dispatched s q i fails (s.dispatch U i fails) := by
  unfold dispatch
  rw [hq]
  dsimp only
  cases fails with
  | true => exact .dropped fun h => by cases h
  | false =>
    rw [if_neg (by simp)]
    unfold onCallbackQuery
    rw [parseCallbackData_callbackData]
    dsimp only
    obtain ⟨hstatus, hmodified⟩ := parseAction_button q.button
    unfold callHandler
    split
    · rename_i hm
      exact .dropped fun _ m h => by rw [show s.handler = none from hm] at h; cases h
    · rename_i m hm
      have hself : Function.update s.managers m (s.managers m) = s.managers := Function.update_eq_self ..
      unfold updateManager World.handleCallback
      dsimp only
      split
      · rename_i hpending
        split
        · rename_i hparse
          rw [hparse] at hstatus
          rw [hself]
          -- the manager ignores an action that it does not know
          exact .dropped fun _ m' h hc => hstatus.symm
        · rename_i a hparse
          rw [hparse] at hstatus
          refine .accepted m a _ hpending hstatus.symm (hmodified a hparse) rfl rfl rfl ?_
          unfold World.underway
          rw [List.map_append]; rfl
      · rename_i hpending
        rw [hself]
        -- the manager that holds the handler does not wait for the request
        exact .dropped fun _ m' h hc => by
          rw [show s.handler = some m from hm, Option.some.injEq] at h
          subst h
          exact absurd hc hpending

/-! ## The invariant -/

/-- How far the press that a request remembers has come. -/
inductive OnTheWay (s : Chat) (r : RequestId) (req : RequestTask) (status : ApprovalStatus) : Prop
  | pressed (q : CallbackQuery) (hq : q ∈ s.queries) (hr : q.requestId = r) (hdecides : q.decides = true)
      (hstatus : q.button.status = some status) (hawaited : req.Awaited)
  | underway (a : Answer) (ha : (r, a) ∈ (s.managers req.manager).underway) (hstatus : a.status = status)
      (hphase : req.phase = .waiting)
  | set (hphase : req.phase = .waiting) (hset : (s.managers req.manager).pendingEvents.get? r = some true)
  | ended (hphase : req.phase = .ended status)

/-- What holds of a request. -/
structure Sound (s : Chat) (r : RequestId) (req : RequestTask) : Prop where
  registered : (s.managers req.manager).pendingEvents.contains r = true ↔
    req.phase = .waiting ∨ req.phase = .closing
  message : req.phase = .preparing → req.messageId = none
  queries : ∀ q ∈ s.queries, q.requestId = r →
    req.phase ≠ .preparing ∧ (q.button.status ≠ none → req.Awaited → req.answer ≠ none)
  underway : ∀ a, (r, a) ∈ (s.managers req.manager).underway →
    req.phase ≠ .preparing ∧ req.phase ≠ .sent ∧ (req.phase = .waiting → req.answer ≠ none)
  set : req.phase = .waiting → (s.managers req.manager).pendingEvents.get? r = some true →
    req.answer ≠ none ∧ (s.managers req.manager).pendingResults.get? r = req.answer
  button : req.answer ≠ some .timeout
  press : ∀ status, req.answer = some status → OnTheWay s r req status

structure Inv (s : Chat) : Prop where
  noPrompt : s.pendingModify = Dict.empty
  queried : ∀ q ∈ s.queries, ∃ req, s.requests.get? q.requestId = some req
  owner : ∀ m r, (s.managers m).pendingEvents.contains r = true →
    ∃ req, s.requests.get? r = some req ∧ req.manager = m
  underway : ∀ m r a, (r, a) ∈ (s.managers m).underway → ∃ req, s.requests.get? r = some req ∧ req.manager = m
  sound : ∀ r req, s.requests.get? r = some req → Sound s r req

theorem inv_empty : Inv {} where
  noPrompt := rfl
  queried q hq := by cases hq
  owner m r h := by cases h
  underway m r a h := by cases h
  sound r req h := by cases h

/-- A request is as sound as before when nothing that concerns it changed. -/
theorem Sound.congr {r : RequestId} {req : RequestTask} (h : Sound s r req)
    (hevents : (s'.managers req.manager).pendingEvents.get? r = (s.managers req.manager).pendingEvents.get? r)
    (hresults : (s'.managers req.manager).pendingResults.get? r = (s.managers req.manager).pendingResults.get? r)
    (hunderway : ∀ a, (r, a) ∈ (s'.managers req.manager).underway ↔ (r, a) ∈ (s.managers req.manager).underway)
    (hqueries : ∀ q, q.requestId = r → (q ∈ s'.queries ↔ q ∈ s.queries)) : Sound s' r req where
  registered := by
    unfold Dict.contains
    rw [hevents]
    exact h.registered
  message := h.message
  queries q hq hr := h.queries q ((hqueries q hr).1 hq) hr
  underway a ha := h.underway a ((hunderway a).1 ha)
  set hphase hset := by
    rw [hresults]
    exact h.set hphase (hevents ▸ hset)
  button := h.button
  press status hstatus := by
    cases h.press status hstatus with
    | pressed q hq hr hdecides hs hawaited => exact .pressed q ((hqueries q hr).2 hq) hr hdecides hs hawaited
    | underway a ha hs hphase => exact .underway a ((hunderway a).2 ha) hs hphase
    | set hphase hset => exact .set hphase (hevents.trans hset)
    | ended hphase => exact .ended hphase

/-- A step that concerns one request and the entries of its manager for it. -/
structure Touches (s s' : Chat) (r : RequestId) (req : RequestTask) : Prop where
  requests : s'.requests = s.requests.set r req
  queries : s'.queries = s.queries
  pendingModify : s'.pendingModify = s.pendingModify
  events : ∀ m r', (r' ≠ r ∨ m ≠ req.manager) →
    (s'.managers m).pendingEvents.get? r' = (s.managers m).pendingEvents.get? r'
  results : ∀ m r', r' ≠ r → (s'.managers m).pendingResults.get? r' = (s.managers m).pendingResults.get? r'
  underway : ∀ m, (s'.managers m).underway = (s.managers m).underway

theorem touches_setRequest (s : Chat) (r : RequestId) (req : RequestTask) :
    Touches s (s.setRequest r req) r req :=
  ⟨rfl, rfl, rfl, fun _ _ _ => rfl, fun _ _ _ => rfl, fun _ => rfl⟩

/-- Together with a write of the manager that concerns the request alone. -/
theorem touches_updateManager (s : Chat) (r : RequestId) (req : RequestTask) (f : World → World)
    (hevents : ∀ w r', r' ≠ r → (f w).pendingEvents.get? r' = w.pendingEvents.get? r')
    (hresults : ∀ w r', r' ≠ r → (f w).pendingResults.get? r' = w.pendingResults.get? r')
    (hunderway : ∀ w, (f w).underway = w.underway) :
    Touches s ((s.setRequest r req).updateManager req.manager f) r req := by
  refine ⟨rfl, rfl, rfl, fun m r' h => ?_, fun m r' h => ?_, fun m => ?_⟩
  all_goals
    simp only [updateManager, setRequest, Function.update_apply]
    split
  · rename_i hm
    subst hm
    exact hevents _ _ (h.resolve_right fun h => h rfl)
  · rfl
  · rename_i hm
    subst hm
    exact hresults _ _ h
  · rfl
  · rename_i hm
    subst hm
    exact hunderway _
  · rfl

/-- The manager forgets the request. -/
theorem touches_unregistered (s : Chat) (r : RequestId) (req : RequestTask) :
    Touches s ((s.setRequest r req).updateManager req.manager (unregistered r)) r req :=
  touches_updateManager s r req (unregistered r) (fun _ _ hr => Dict.get?_erase_ne _ hr)
    (fun _ _ hr => Dict.get?_erase_ne _ hr) fun _ => rfl

theorem Inv.touch {r : RequestId} {req : RequestTask} (h : Inv s) (ht : Touches s s' r req)
    (hmanager : ∀ old, s.requests.get? r = some old → old.manager = req.manager) (hsound : Sound s' r req) :
    Inv s' := by
  have hget : ∀ r', s'.requests.get? r' = if r' = r then some req else s.requests.get? r' := fun r' => by
    rw [ht.requests, Dict.get?_set]
  have hkeep : ∀ m r', (∃ old, s.requests.get? r' = some old ∧ old.manager = m) →
      ∃ new, s'.requests.get? r' = some new ∧ new.manager = m := by
    rintro m r' ⟨old, hold, hm⟩
    rw [hget]
    by_cases hr : r' = r
    · subst hr
      exact ⟨req, if_pos rfl, (hmanager old hold).symm.trans hm⟩
    · exact ⟨old, by rw [if_neg hr]; exact hold, hm⟩
  refine ⟨ht.pendingModify.trans h.noPrompt, fun q hq => ?_, fun m r' hc => ?_, fun m r' a ha => ?_,
    fun r' req' hreq' => ?_⟩
  · obtain ⟨old, hold⟩ := h.queried q (ht.queries ▸ hq)
    obtain ⟨new, hnew, _⟩ := hkeep _ _ ⟨old, hold, rfl⟩
    exact ⟨new, hnew⟩
  · by_cases hr : r' = r ∧ m = req.manager
    · exact ⟨req, by rw [hget, if_pos hr.1], hr.2.symm⟩
    · refine hkeep m r' (h.owner m r' ?_)
      unfold Dict.contains at hc ⊢
      rwa [ht.events m r' (not_and_or.1 hr)] at hc
  · exact hkeep m r' (h.underway m r' a (ht.underway m ▸ ha))
  · rw [hget] at hreq'
    by_cases hr : r' = r
    · rw [if_pos hr, Option.some.injEq] at hreq'
      subst hr; subst hreq'
      exact hsound
    · rw [if_neg hr] at hreq'
      exact (h.sound r' req' hreq').congr (ht.events _ _ (.inl hr)) (ht.results _ _ hr)
        (fun a => by rw [ht.underway]) fun q _ => by rw [ht.queries]

/-- A request moves on with the same manager. -/
theorem Inv.move {r : RequestId} {old req : RequestTask} (h : Inv s) (hold : s.requests.get? r = some old)
    (ht : Touches s s' r req) (hm : old.manager = req.manager) (hsound : Sound s' r req) : Inv s' := by
  refine h.touch ht (fun old' hold' => ?_) hsound
  rw [hold, Option.some.injEq] at hold'
  rw [← hold', hm]

/-- Once a request is no longer waited for, only its registration and its answer matter. -/
theorem Sound.of_over {r : RequestId} {req : RequestTask} (hpreparing : req.phase ≠ .preparing)
    (hawaited : ¬ req.Awaited)
    (hregistered : (s.managers req.manager).pendingEvents.contains r = true ↔ req.phase = .closing)
    (hbutton : req.answer ≠ some .timeout)
    (hpress : ∀ status, req.answer = some status → req.phase = .ended status) : Sound s r req := by
  have hwaiting : req.phase ≠ .waiting := fun hp => hawaited (.inr hp)
  constructor
  · rw [hregistered, or_iff_right hwaiting]
  · exact fun hp => absurd hp hpreparing
  · exact fun q _ _ => ⟨hpreparing, fun _ h => absurd h hawaited⟩
  · exact fun a _ => ⟨hpreparing, fun hp => hawaited (.inl hp), fun hp => absurd hp hwaiting⟩
  · exact fun hp => absurd hp hwaiting
  · exact hbutton
  · exact fun status hstatus => .ended (hpress status hstatus)

/-- A request that is neither awaited nor over with its answer has none. -/
theorem Sound.unanswered {r : RequestId} {req : RequestTask} (hs : Sound s r req) (hawaited : ¬ req.Awaited)
    (hended : ∀ status, req.phase ≠ .ended status) : req.answer = none := by
  rw [Option.eq_none_iff_forall_not_mem]
  intro status hstatus
  cases hs.press status hstatus with
  | pressed q hq hr hdecides hbutton hw => exact hawaited hw
  | underway a ha ha' hw => exact hawaited (.inr hw)
  | set hw => exact hawaited (.inr hw)
  | ended hw => exact hended status hw

/-! ## The steps of a request -/

@[simp] theorem managers_updateManager_self (s : Chat) (m : ℕ) (f : World → World) :
    (s.updateManager m f).managers m = f (s.managers m) := Function.update_self ..

@[simp] theorem managers_setRequest (s : Chat) (r : RequestId) (req : RequestTask) :
    (s.setRequest r req).managers = s.managers := rfl

/-- Taking a request further keeps the invariant if the next step does. -/
theorem Inv.advance {r : RequestId} {phase : RequestPhase} {next : RequestTask → Chat} (h : Inv s)
    (hnext : ∀ req, s.requests.get? r = some req → req.phase = phase → Inv (next req)) :
    Inv (s.advance r phase next) := by
  unfold Chat.advance
  split
  · exact h
  · rename_i req hreq
    split
    · rename_i hphase
      exact hnext req hreq hphase
    · exact h

theorem Inv.insert (h : Inv s) (m : ℕ) (r : RequestId) (row : ApprovalRequestDB) : Inv (s.insert m r row) := by
  unfold Chat.insert
  split
  · exact h
  · rename_i hnew
    have hnone : ∀ old, s.requests.get? r ≠ some old := fun old hold => by
      unfold Dict.contains at hnew
      rw [hold] at hnew
      exact hnew rfl
    refine h.touch (touches_updateManager s r { manager := m, accountId := row.accountId } _ (fun _ _ _ => rfl)
      (fun _ _ _ => rfl) fun _ => rfl) (fun old hold => absurd hold (hnone old)) ?_
    constructor
    · rw [managers_updateManager_self]
      refine iff_of_false (fun hc => ?_) (by simp)
      obtain ⟨req, hreq, _⟩ := h.owner m r hc
      exact hnone req hreq
    · exact fun _ => rfl
    · intro q hq hr
      obtain ⟨req, hreq⟩ := h.queried q hq
      exact absurd (hr ▸ hreq) (hnone req)
    · intro a ha
      rw [managers_updateManager_self] at ha
      obtain ⟨req, hreq, _⟩ := h.underway m r a ha
      exact absurd hreq (hnone req)
    · intro hphase; cases hphase
    · simp
    · intro status hstatus; cases hstatus

theorem Inv.send (h : Inv s) (r : RequestId) (messageId : Option ℤ) : Inv (s.send r messageId) := by
  refine h.advance fun req hreq hphase => ?_
  have hs := h.sound r req hreq
  have hanswer : req.answer = none :=
    hs.unanswered (by simp [RequestTask.Awaited, hphase]) (by simp [hphase])
  refine h.move hreq (touches_setRequest s r _) rfl ?_
  constructor
  · have hreg := hs.registered
    rw [hphase] at hreg
    simpa using hreg
  · intro hw; cases hw
  · intro q hq hr
    exact absurd hphase (hs.queries q hq hr).1
  · intro a ha
    exact absurd hphase (hs.underway a ha).1
  · intro hw; cases hw
  · exact hs.button
  · intro status hstatus
    rw [show req.answer = some status from hstatus] at hanswer
    cases hanswer

theorem Inv.register (h : Inv s) (r : RequestId) : Inv (s.register r) := by
  refine h.advance fun req hreq hphase => ?_
  have hs := h.sound r req hreq
  have hpress : ∀ status, req.answer = some status → ∃ q ∈ s.queries, q.requestId = r ∧ q.decides = true ∧
      q.button.status = some status := by
    intro status hstatus
    cases hs.press status hstatus with
    | pressed q hq hr hdecides hbutton hawaited => exact ⟨q, hq, hr, hdecides, hbutton⟩
    | underway a ha ha' hw => rw [hphase] at hw; cases hw
    | set hw => rw [hphase] at hw; cases hw
    | ended hw => rw [hphase] at hw; cases hw
  -- the new event is not set, and a press that came before it is still with the bot
  refine h.move hreq (touches_updateManager s r { req with phase := .waiting } (registered r req)
    (fun w r' hr => Dict.get?_set_ne _ _ hr) (fun _ _ _ => rfl) fun _ => rfl) rfl ?_
  constructor
  · simp [registered, Dict.contains]
  · intro hw; cases hw
  · intro q hq hr
    refine ⟨by simp, fun hbutton _ => ?_⟩
    exact (hs.queries q hq hr).2 hbutton (.inl hphase)
  · intro a ha
    rw [managers_updateManager_self] at ha
    exact absurd hphase (hs.underway a ha).2.1
  · intro _ hset
    rw [managers_updateManager_self] at hset
    simp [registered] at hset
  · exact hs.button
  · intro status hstatus
    obtain ⟨q, hq, hr, hdecides, hbutton⟩ := hpress status hstatus
    exact .pressed q hq hr hdecides hbutton (.inr rfl)

/-- No exception before the wait of a request that was answered. -/
theorem Inv.fail (h : Inv s) {r : RequestId}
    (hnot : ∀ req, s.requests.get? r = some req → req.answer = none) : Inv (s.fail r) := by
  unfold Chat.fail
  split
  · exact h
  · rename_i req hreq
    split
    · rename_i hphase
      have hs := h.sound r req hreq
      refine h.move hreq (touches_setRequest s r _) rfl
        (.of_over (by simp) (by simp [RequestTask.Awaited]) ?_ hs.button ?_)
      · refine iff_of_false (fun hc => ?_) (by simp)
        rcases hs.registered.1 hc with hw | hw <;> rcases hphase with hp | hp <;> rw [hp] at hw <;> cases hw
      · intro status hstatus
        rw [show req.answer = none from hnot req hreq] at hstatus
        cases hstatus
    · exact h

theorem Inv.wake (h : Inv s) (r : RequestId) : Inv (s.wake r) := by
  refine h.advance fun req hreq hphase => ?_
  have hs := h.sound r req hreq
  dsimp only
  split
  · rename_i hset
    obtain ⟨hanswer, hresult⟩ := hs.set hphase hset
    obtain ⟨status, hstatus⟩ := Option.ne_none_iff_exists'.1 hanswer
    have hne : status ≠ .timeout := fun heq => hs.button (by rw [hstatus, heq])
    have hvalue : ((s.managers req.manager).pendingResults.get? r).getD .timeout = status := by
      rw [hresult, hstatus, Option.getD_some]
    -- the wait ends with the result that was stored when the event was set
    rw [hvalue, if_neg hne]
    refine h.move hreq (touches_unregistered s r { req with phase := .ended status }) rfl
      (.of_over (by simp) (by simp [RequestTask.Awaited]) ?_ hs.button ?_)
    · simp [unregistered, Dict.contains]
    · intro status' hstatus'
      rw [show req.answer = some status from hstatus, Option.some.injEq] at hstatus'
      rw [← hstatus']
  · exact h

/-- The timer does not fire for a request that was answered. -/
theorem Inv.timer (h : Inv s) {r : RequestId}
    (hnot : ∀ req, s.requests.get? r = some req → req.phase = .waiting → req.answer = none) :
    Inv (s.timer r) := by
  refine h.advance fun req hreq hphase => ?_
  have hs := h.sound r req hreq
  refine h.move hreq (touches_setRequest s r _) rfl (.of_over (by simp) (by simp [RequestTask.Awaited]) ?_ hs.button ?_)
  · have hreg := hs.registered
    rw [hphase] at hreg
    simpa using hreg
  · intro status hstatus
    rw [show req.answer = none from hnot req hreq hphase] at hstatus
    cases hstatus

theorem Inv.close (h : Inv s) (r : RequestId) : Inv (s.close r) := by
  refine h.advance fun req hreq hphase => ?_
  have hs := h.sound r req hreq
  refine h.move hreq (touches_unregistered s r { req with phase := .ended .timeout }) rfl
    (.of_over (by simp) (by simp [RequestTask.Awaited]) ?_ hs.button ?_)
  · simp [unregistered, Dict.contains]
  · intro status hstatus
    have hanswer : req.answer = none :=
      hs.unanswered (by simp [RequestTask.Awaited, hphase]) (by simp [hphase])
    rw [show req.answer = some status from hstatus] at hanswer
    cases hanswer

/-! ## The steps of the users and the bot -/

/-- The first press of approve or reject becomes the answer, and is on its way. -/
theorem Sound.firstPress {q : CallbackQuery} {req : RequestTask} {requests : Dict RequestId RequestTask}
    (hs : Sound s q.requestId req) (hpreparing : req.phase ≠ .preparing) (hdecides : q.decides = true)
    (hbutton : q.button.status ≠ none) (hawaited : req.Awaited) (hnone : req.answer = none) :
    Sound { s with queries := s.queries ++ [q], requests } q.requestId { req with answer := q.button.status } := by
  constructor
  · exact hs.registered
  · exact hs.message
  · exact fun _ _ _ => ⟨hpreparing, fun _ _ => hbutton⟩
  · exact fun a ha => ⟨(hs.underway a ha).1, (hs.underway a ha).2.1, fun _ => hbutton⟩
  · exact fun hwaiting hset => absurd hnone (hs.set hwaiting hset).1
  · show q.button.status ≠ some .timeout
    cases q.button <;> simp [Button.status]
  · intro status hstatus
    have hmem : q ∈ s.queries ++ [q] := List.mem_append_right _ (List.mem_singleton_self _)
    exact .pressed q hmem rfl hdecides hstatus hawaited

/-- Any other press changes nothing of what is on its way. -/
theorem Sound.laterPress {q : CallbackQuery} {req : RequestTask} {requests : Dict RequestId RequestTask}
    (hs : Sound s q.requestId req) (hpreparing : req.phase ≠ .preparing)
    (hlater : q.button.status ≠ none → req.Awaited → req.answer ≠ none) :
    Sound { s with queries := s.queries ++ [q], requests } q.requestId req := by
  constructor
  · exact hs.registered
  · exact hs.message
  · intro q' hq' hr
    rcases List.mem_append.1 hq' with hq' | hq'
    · exact hs.queries q' hq' hr
    · rw [List.mem_singleton.1 hq']
      exact ⟨hpreparing, hlater⟩
  · exact hs.underway
  · exact hs.set
  · exact hs.button
  · intro status hstatus
    cases hs.press status hstatus with
    | pressed q' hq' hr hdecides hbutton hawaited =>
      exact .pressed q' (List.mem_append_left _ hq') hr hdecides hbutton hawaited
    | underway a ha hs hphase => exact .underway a ha hs hphase
    | set hphase hset => exact .set hphase hset
    | ended hphase => exact .ended hphase

/-- A press joins the queries, and concerns the request below whose message it was made. -/
theorem Inv.pressed {q : CallbackQuery} {req : RequestTask} {requests : Dict RequestId RequestTask} (h : Inv s)
    (hself : requests.get? q.requestId = some req)
    (hmanager : ∀ old, s.requests.get? q.requestId = some old → req.manager = old.manager)
    (hother : ∀ r, r ≠ q.requestId → requests.get? r = s.requests.get? r)
    (hsound : Sound { s with queries := s.queries ++ [q], requests } q.requestId req) :
    Inv { s with queries := s.queries ++ [q], requests } := by
  have hkeep : ∀ m r, (∃ old, s.requests.get? r = some old ∧ old.manager = m) →
      ∃ new, requests.get? r = some new ∧ new.manager = m := by
    rintro m r ⟨old, hold, hm⟩
    by_cases hr : r = q.requestId
    · subst hr
      exact ⟨req, hself, (hmanager old hold).trans hm⟩
    · exact ⟨old, (hother r hr).trans hold, hm⟩
  refine ⟨h.noPrompt, fun q' hq' => ?_, fun m r hc => hkeep m r (h.owner m r hc),
    fun m r a ha => hkeep m r (h.underway m r a ha), fun r req' hreq' => ?_⟩
  · rcases List.mem_append.1 hq' with hq' | hq'
    · obtain ⟨old, hold⟩ := h.queried q' hq'
      obtain ⟨new, hnew, _⟩ := hkeep _ _ ⟨old, hold, rfl⟩
      exact ⟨new, hnew⟩
    · rw [List.mem_singleton.1 hq']
      exact ⟨req, hself⟩
  · by_cases hr : r = q.requestId
    · subst hr
      rw [hself, Option.some.injEq] at hreq'
      exact hreq' ▸ hsound
    · rw [hother r hr] at hreq'
      refine (h.sound r req' hreq').congr rfl rfl (fun _ => Iff.rfl) fun q' hq' => ?_
      rw [List.mem_append, List.mem_singleton]
      refine or_iff_left fun hnew => hr ?_
      rw [← hq', hnew]

theorem Inv.press (h : Inv s) (button : Button) (r : RequestId) : Inv (s.press button r) := by
  unfold Chat.press
  split
  · exact h
  rename_i req hreq
  split
  · exact h
  rename_i hmessage
  have hs := h.sound r req hreq
  have hpreparing : req.phase ≠ .preparing := fun hp => hmessage (hs.message hp)
  have hmanager : ∀ old, s.requests.get? r = some old → req.manager = old.manager := by
    intro old hold
    rw [hreq, Option.some.injEq] at hold
    rw [hold]
  dsimp only
  split
  · rename_i hdecides
    have hparts := hdecides
    simp only [Bool.and_eq_true, decide_eq_true_eq, Option.isSome_iff_ne_none, Option.isNone_iff_eq_none] at hparts
    obtain ⟨⟨hbutton, hawaited⟩, hnone⟩ := hparts
    have hself : (s.requests.set r { req with answer := button.status }).get? r =
        some { req with answer := button.status } := by rw [Dict.get?_set, if_pos rfl]
    have hother : ∀ r', r' ≠ r → (s.requests.set r { req with answer := button.status }).get? r' =
        s.requests.get? r' := fun r' hr => by rw [Dict.get?_set, if_neg hr]
    exact h.pressed hself hmanager hother (hs.firstPress hpreparing hdecides hbutton hawaited hnone)
  · rename_i hdecides
    refine h.pressed hreq hmanager (fun _ _ => rfl) (hs.laterPress hpreparing fun hbutton hawaited hnone => ?_)
    have hsome : button.status.isSome = true := Option.isSome_iff_ne_none.2 hbutton
    exact hdecides (by simp [hsome, hawaited, hnone])

/-- The press that a request remembers is handed over while the bot holds the handler of its manager and
its event is there. -/
def HandsOver (s : Chat) (i : ℕ) (fails : Bool) : Prop :=
  ∀ q ∈ s.queries[i]?, q.decides = true → ∀ req ∈ s.requests.get? q.requestId, req.Awaited →
    fails = false ∧ s.handler = some req.manager ∧ req.phase = .waiting

/-- Nothing that concerns the request differs. -/
structure SameFor (r : RequestId) (w w' : World) : Prop where
  events : w'.pendingEvents.get? r = w.pendingEvents.get? r
  results : w'.pendingResults.get? r = w.pendingResults.get? r
  underway : ∀ a, (r, a) ∈ w'.underway ↔ (r, a) ∈ w.underway

theorem SameFor.update {m : ℕ} {w : World} {r : RequestId} (h : SameFor r (s.managers m) w) (m' : ℕ) :
    SameFor r (s.managers m') (Function.update s.managers m w m') := by
  by_cases hm : m' = m
  · subst hm
    rw [Function.update_self]
    exact h
  · rw [Function.update_of_ne hm]
    exact ⟨rfl, rfl, fun _ => Iff.rfl⟩

/-- The bot and a manager take a step that concerns requests of this manager only. -/
theorem Inv.manager {m : ℕ} {w : World} {queries : List CallbackQuery} (h : Inv s) (touched : RequestId → Prop)
    (howner : ∀ r, touched r → ∃ req, s.requests.get? r = some req ∧ req.manager = m)
    (hothers : ∀ r, ¬ touched r → SameFor r (s.managers m) w) (hsub : ∀ q ∈ queries, q ∈ s.queries)
    (hqueries : ∀ q ∈ s.queries, ¬ touched q.requestId → q ∈ queries)
    (hsound : ∀ r req, touched r → s.requests.get? r = some req → req.manager = m →
      Sound { s with queries, managers := Function.update s.managers m w } r req) :
    Inv { s with queries, managers := Function.update s.managers m w } := by
  have hother : ∀ m', m' ≠ m → Function.update s.managers m w m' = s.managers m' := fun _ hm =>
    Function.update_of_ne hm ..
  refine ⟨h.noPrompt, fun q hq => h.queried q (hsub q hq), fun m' r hc => ?_, fun m' r a ha => ?_,
    fun r req hreq => ?_⟩
  · by_cases hr : touched r
    · by_cases hm : m' = m
      · exact hm ▸ howner r hr
      · exact h.owner m' r (by rw [← hother m' hm]; exact hc)
    · refine h.owner m' r ?_
      unfold Dict.contains at hc ⊢
      rwa [((hothers r hr).update m').events] at hc
  · by_cases hr : touched r
    · by_cases hm : m' = m
      · exact hm ▸ howner r hr
      · exact h.underway m' r a (by rw [← hother m' hm]; exact ha)
    · exact h.underway m' r a ((((hothers r hr).update m').underway a).1 ha)
  · by_cases hr : touched r
    · obtain ⟨req', hreq', hm⟩ := howner r hr
      rw [show s.requests.get? r = some req from hreq, Option.some.injEq] at hreq'
      exact hsound r req hr hreq (hreq' ▸ hm)
    · have hsame := (hothers r hr).update req.manager
      refine (h.sound r req hreq).congr hsame.events hsame.results hsame.underway fun q hq => ?_
      exact ⟨hsub q, fun hmem => hqueries q hmem (hq ▸ hr)⟩

/-- A press that was taken from the queue is the one at its place. -/
theorem mem_eraseIdx_or_eq {q q' : CallbackQuery} {i : ℕ} (hq : s.queries[i]? = some q) (hq' : q' ∈ s.queries) :
    q' ∈ s.queries.eraseIdx i ∨ q' = q := by
  obtain ⟨j, hj⟩ := List.mem_iff_getElem?.1 hq'
  by_cases hij : j = i
  · subst hij
    rw [hq, Option.some.injEq] at hj
    exact .inr hj.symm
  · exact .inl (List.mem_eraseIdx_iff_getElem?.2 ⟨j, hij, hj⟩)

/-- A press that is dropped is not the one that its request remembers. -/
theorem Sound.dropped {q : CallbackQuery} {i : ℕ} {fails : Bool} {req : RequestTask}
    (hs : Sound s q.requestId req) (hreq : s.requests.get? q.requestId = some req) (hq : s.queries[i]? = some q)
    (hover : HandsOver s i fails) (hwhy : fails = false → ∀ m, s.handler = some m →
      (s.managers m).pendingEvents.contains q.requestId = true → q.button.status = none) :
    Sound { s with queries := s.queries.eraseIdx i } q.requestId req where
  registered := hs.registered
  message := hs.message
  queries q' hq' := hs.queries q' (List.mem_of_mem_eraseIdx hq')
  underway := hs.underway
  set := hs.set
  button := hs.button
  press status hstatus := by
    cases hs.press status hstatus with
    | pressed q' hq' hr hdecides hbutton hawaited =>
      rcases mem_eraseIdx_or_eq hq hq' with hin | rfl
      · exact .pressed q' hin hr hdecides hbutton hawaited
      · obtain ⟨hfails, hhandler, hphase⟩ := hover q' hq hdecides req hreq hawaited
        -- the condition hands a remembered press to its manager, which does not drop it
        have hnone := hwhy hfails req.manager hhandler (hs.registered.2 (.inl hphase))
        rw [hnone] at hbutton
        cases hbutton
    | underway a ha hs hphase => exact .underway a ha hs hphase
    | set hphase hset => exact .set hphase hset
    | ended hphase => exact .ended hphase

/-- A press that the manager accepts is under way from there on. -/
theorem Sound.accepted {q : CallbackQuery} {i : ℕ} {a : Answer} {w : World} {req : RequestTask}
    (hs : Sound s q.requestId req) (hq : s.queries[i]? = some q)
    (hpending : (s.managers req.manager).pendingEvents.contains q.requestId = true)
    (hbutton : q.button.status = some a.status) (hevents : w.pendingEvents = (s.managers req.manager).pendingEvents)
    (hresults : w.pendingResults = (s.managers req.manager).pendingResults)
    (hunderway : w.underway = (s.managers req.manager).underway ++ [(q.requestId, a)]) :
    Sound { s with queries := s.queries.eraseIdx i, managers := Function.update s.managers req.manager w }
      q.requestId req := by
  have hself : Function.update s.managers req.manager w req.manager = w := Function.update_self ..
  -- a manager takes presses on as long as the event is registered, after a timeout too
  have hphase : req.phase = .waiting ∨ req.phase = .closing := hs.registered.1 hpending
  have hanswer := (hs.queries q (List.mem_of_getElem? hq) rfl).2 (by rw [hbutton]; simp)
  refine ⟨?_, hs.message, fun q' hq' => hs.queries q' (List.mem_of_mem_eraseIdx hq'), fun a' _ => ?_, ?_,
    hs.button, fun status hstatus => ?_⟩
  · simp only [hself, hevents]
    exact hs.registered
  · refine ⟨fun hp => ?_, fun hp => ?_, fun hp => hanswer (.inr hp)⟩
    all_goals
      rw [hp] at hphase
      simp at hphase
  · simp only [hself, hevents, hresults]
    exact hs.set
  · cases hs.press status hstatus with
    | pressed q' hq' hr hdecides hbutton' hawaited =>
      rcases mem_eraseIdx_or_eq hq hq' with hin | rfl
      · exact .pressed q' hin hr hdecides hbutton' hawaited
      · rw [hbutton, Option.some.injEq] at hbutton'
        refine .underway a ?_ hbutton' (hphase.resolve_right fun hp => ?_)
        · simp only [hself, hunderway]
          exact List.mem_append_right _ (List.mem_singleton_self _)
        · rcases hawaited with hw | hw <;> rw [hp] at hw <;> cases hw
    | underway a' ha' hs' hphase' =>
      refine .underway a' ?_ hs' hphase'
      simp only [hself, hunderway]
      exact List.mem_append_left _ ha'
    | set hphase' hset => exact .set hphase' (by simp only [hself, hevents]; exact hset)
    | ended hphase' => exact .ended hphase'

theorem Inv.dispatch (h : Inv s) {i : ℕ} {fails : Bool} (hover : HandsOver s i fails) :
    Inv (s.dispatch U i fails) := by
  cases hq : s.queries[i]? with
  | none =>
    unfold Chat.dispatch
    rw [hq]
    exact h
  | some q =>
    obtain ⟨req₀, hreq₀⟩ := h.queried q (List.mem_of_getElem? hq)
    have hs₀ := h.sound _ req₀ hreq₀
    have hothers : ∀ q' ∈ s.queries, ¬ q'.requestId = q.requestId → q' ∈ s.queries.eraseIdx i :=
      fun q' hq' hne => (mem_eraseIdx_or_eq hq hq').resolve_right fun heq => hne (by rw [heq])
    have hsub : ∀ q' ∈ s.queries.eraseIdx i, q' ∈ s.queries := fun q' => List.mem_of_mem_eraseIdx
    have hd := dispatch_spec (U := U) hq fails
    generalize s.dispatch U i fails = s' at hd
    cases hd with
    | dropped hwhy =>
      have hself : Function.update s.managers req₀.manager (s.managers req₀.manager) = s.managers :=
        Function.update_eq_self ..
      have hinv : Inv { s with
          queries := s.queries.eraseIdx i
          managers := Function.update s.managers req₀.manager (s.managers req₀.manager) } := by
        refine h.manager (· = q.requestId) (fun r hr => ⟨req₀, hr ▸ hreq₀, rfl⟩)
          (fun _ _ => ⟨rfl, rfl, fun _ => Iff.rfl⟩) hsub hothers fun r req hr hreq _ => ?_
        subst hr
        rw [hself]
        exact (h.sound _ req hreq).dropped hreq hq hover hwhy
      rwa [hself] at hinv
    | accepted m a w hpending hbutton _ hevents hresults _ hunderway =>
      obtain ⟨req₁, hreq₁, hm⟩ := h.owner m q.requestId hpending
      refine h.manager (· = q.requestId) (fun r hr => ⟨req₁, hr ▸ hreq₁, hm⟩) (fun r hr => ?_) hsub hothers
        fun r req hr hreq hm => ?_
      · refine ⟨by rw [hevents], by rw [hresults], fun a' => ?_⟩
        rw [hunderway, List.mem_append, List.mem_singleton, Prod.mk.injEq]
        exact or_iff_left fun h => hr h.1
      · subst hr; subst hm
        exact (h.sound _ req hreq).accepted hq hpending hbutton hevents hresults hunderway

/-- A callback that ends while its request waits has the answer that the request remembers. -/
def Agrees (s : Chat) (m : ℕ) (e : CallbackStep) : Prop :=
  match e with
  | .signal i => ∀ cb ∈ (s.managers m).callbacks[i]?, ∀ req ∈ s.requests.get? cb.requestId,
      req.phase = .waiting → req.answer = some cb.answer.status
  | _ => True

/-- The last step of a callback sets the event of its request. -/
theorem Sound.signalled {i : ℕ} {cb : Callback} {req : RequestTask} (hs : Sound s cb.requestId req)
    (hcb : (s.managers req.manager).callbacks[i]? = some cb)
    (hanswer : req.phase = .waiting → req.answer = some cb.answer.status) :
    Sound { s with
      managers := Function.update s.managers req.manager ((s.managers req.manager).callbackSignal i cb) }
      cb.requestId req := by
  have hself : Function.update s.managers req.manager ((s.managers req.manager).callbackSignal i cb) req.manager =
      (s.managers req.manager).callbackSignal i cb := Function.update_self ..
  have hget : ((s.managers req.manager).callbackSignal i cb).pendingEvents.get? cb.requestId =
      ((s.managers req.manager).pendingEvents.get? cb.requestId).map fun _ => true := by
    simp only [World.callbackSignal]
    rw [Dict.get?_modify, if_pos rfl]
  have hset : req.phase = .waiting →
      ((s.managers req.manager).callbackSignal i cb).pendingEvents.get? cb.requestId = some true := fun hphase => by
    obtain ⟨b, hb⟩ := (Dict.contains_iff _ _).1 (hs.registered.2 (.inl hphase))
    rw [hget, hb, Option.map_some]
  refine ⟨?_, hs.message, hs.queries, fun a ha => ?_, fun hphase _ => ?_, hs.button, fun status hstatus => ?_⟩
  · simp only [hself]
    unfold Dict.contains
    rw [hget, Option.isSome_map]
    exact hs.registered
  · simp only [hself] at ha
    exact hs.underway a ((underway_signal hcb).1 _ ha)
  · simp only [hself]
    rw [hanswer hphase]
    refine ⟨by simp, ?_⟩
    simp only [World.callbackSignal, Dict.get?_set_self]
  · cases hs.press status hstatus with
    | pressed q hq hr hdecides hbutton hawaited => exact .pressed q hq hr hdecides hbutton hawaited
    | underway a _ _ hphase => exact .set hphase (by simp only [hself]; exact hset hphase)
    | set hphase _ => exact .set hphase (by simp only [hself]; exact hset hphase)
    | ended hphase => exact .ended hphase

theorem Inv.callback (h : Inv s) {m : ℕ} {e : CallbackStep} (hagrees : Agrees s m e) :
    Inv (s.updateManager m (·.step e.toStep)) := by
  have hmove := callback_move (s.managers m) e
  show Inv { s with queries := s.queries, managers := Function.update s.managers m ((s.managers m).step e.toStep) }
  generalize (s.managers m).step e.toStep = w at hmove
  cases hmove with
  | keep hevents hresults _ hunderway =>
    -- only the last step of a callback concerns a request
    exact h.manager (fun _ => False) (fun _ hr => hr.elim)
      (fun r _ => ⟨by rw [hevents], by rw [hresults], fun a => by rw [hunderway]⟩) (fun _ hq => hq)
      (fun _ hq _ => hq) fun _ _ hr => hr.elim
  | signal i cb he hcb =>
    have hin : (cb.requestId, cb.answer) ∈ (s.managers m).underway :=
      List.mem_map.2 ⟨cb, List.mem_of_getElem? hcb, rfl⟩
    obtain ⟨req₀, hreq₀, hm⟩ := h.underway m _ _ hin
    obtain ⟨hsub, hstay⟩ := underway_signal hcb
    refine h.manager (· = cb.requestId) (fun r hr => ⟨req₀, hr ▸ hreq₀, hm⟩) (fun r hr => ?_) (fun _ hq => hq)
      (fun _ hq _ => hq) fun r req hr hreq hm => ?_
    · refine ⟨?_, Dict.get?_set_ne _ _ hr, fun a => ⟨hsub _, fun ha => (hstay _ ha).resolve_right fun heq => ?_⟩⟩
      · simp only [World.callbackSignal]
        rw [Dict.get?_modify, if_neg hr]
      · rw [Prod.mk.injEq] at heq
        exact hr heq.1
    · subst hr; subst hm; subst he
      exact (h.sound _ req hreq).signalled hcb (hagrees cb hcb req hreq)

/-- Nothing asks for a quantity, so no text is handled. -/
theorem Inv.text (h : Inv s) (chatId text : String) : s.onTextMessage chatId text = s := by
  unfold onTextMessage
  rw [h.noPrompt]
  rfl

theorem Inv.setUp (h : Inv s) (m : ℕ) : Inv (s.registerCallbackHandler m) :=
  ⟨h.noPrompt, h.queried, h.owner, h.underway, fun r req hreq =>
    (h.sound r req hreq).congr rfl rfl (fun _ => Iff.rfl) fun _ _ => Iff.rfl⟩

/-! ## Runs -/

/-- When a step loses no press: the press that a request remembers is handed over to the manager that
waits for it, and no timer, no exception and no callback with another answer ends the wait before. -/
def LosesNone (s : Chat) : ChatStep → Prop
  | .dispatch i fails => HandsOver s i fails
  | .callback m e => Agrees s m e
  | .timer r => ∀ req ∈ s.requests.get? r, req.phase = .waiting → req.answer = none
  | .fail r => ∀ req ∈ s.requests.get? r, req.answer = none
  | _ => True

theorem Inv.step (h : Inv s) {e : ChatStep} (hloses : LosesNone s e) : Inv (s.step U e) := by
  cases e with
  | setUp m => exact h.setUp m
  | insert m r row => exact h.insert m r row
  | send r messageId => exact h.send r messageId
  | register r => exact h.register r
  | fail r => exact h.fail hloses
  | press button r => exact h.press button r
  | dispatch i fails => exact h.dispatch hloses
  | text chatId text =>
    show Inv (s.onTextMessage chatId text)
    rw [h.text chatId text]
    exact h
  | callback m e => exact h.callback hloses
  | wake r => exact h.wake r
  | timer r => exact h.timer hloses
  | close r => exact h.close r

/-- What the answer pressed first on the message of a request does: the wait ends with no other status,
and once neither the bot nor the manager has a press of the request under way, the event is set with that
status or the wait has ended with it. -/
structure Answers (s : Chat) (r : RequestId) (req : RequestTask) (status : ApprovalStatus) : Prop where
  ends : ∀ status', req.phase = .ended status' → status' = status
  noTimeout : req.phase ≠ .closing
  arrives : (∀ q ∈ s.queries, q.requestId ≠ r) →
    (∀ cb ∈ (s.managers req.manager).callbacks, cb.requestId ≠ r) →
    req.phase = .ended status ∨ req.phase = .waiting ∧
      (s.managers req.manager).pendingEvents.get? r = some true ∧
      (s.managers req.manager).pendingResults.get? r = some status

/-- No press is lost. -/
def NoLostResponse (s : Chat) : Prop :=
  ∀ r req status, s.requests.get? r = some req → req.answer = some status → Answers s r req status

theorem Inv.noLostResponse (h : Inv s) : NoLostResponse s := by
  intro r req status hreq hstatus
  have hs := h.sound r req hreq
  have hway := hs.press status hstatus
  refine ⟨fun status' hphase => ?_, fun hphase => ?_, fun hqueries hcallbacks => ?_⟩
  · cases hway with
    | pressed q hq hr hdecides hbutton hawaited => rcases hawaited with hw | hw <;> rw [hphase] at hw <;> cases hw
    | underway a ha ha' hw => rw [hphase] at hw; cases hw
    | set hw => rw [hphase] at hw; cases hw
    | ended hw => rw [hphase] at hw; cases hw; rfl
  · have hnone := hs.unanswered (by simp [RequestTask.Awaited, hphase]) (by simp [hphase])
    rw [hstatus] at hnone
    cases hnone
  · cases hway with
    | pressed q hq hr => exact absurd hr (hqueries q hq)
    | underway a ha =>
      -- what is still on its way would be with the bot or in a callback
      obtain ⟨cb, hcb, heq⟩ := List.mem_map.1 ha
      rw [Prod.mk.injEq] at heq
      exact absurd heq.1 (hcallbacks cb hcb)
    | set hphase hset => exact .inr ⟨hphase, hset, hstatus ▸ (hs.set hphase hset).2⟩
    | ended hphase => exact .inl hphase

/-- Along every interleaving whose steps lose no press, no response is lost in any state. -/
theorem noLostResponse_of_run (U : UuidText) (steps : List ChatStep)
    (h : Along (Chat.step U) LosesNone steps {}) (k : ℕ) :
    NoLostResponse (runSteps (Chat.step U) (steps.take k) {}) :=
  (along_keeps (fun _ _ hI he => Inv.step hI he) h inv_empty k).noLostResponse

instance (s : Chat) (e : ChatStep) : Decidable (LosesNone s e) :=
  match e with
  | .dispatch i fails => by unfold LosesNone HandsOver; infer_instance
  | .callback m (.signal i) => by unfold LosesNone Agrees; infer_instance
  | .timer r => by unfold LosesNone; infer_instance
  | .fail r => by unfold LosesNone; infer_instance
  | .setUp _ | .insert .. | .send .. | .register _ | .press .. | .text .. | .wake _ | .close _
  | .callback _ (.commit ..) | .callback _ (.redis _) | .callback _ (.telegram _) => .isTrue trivial

/-- Request ids written as rows of zeros. -/
def zeroIds : UuidText where
  str r := String.ofList (List.replicate r '0')
  parse? text := some text.toList.length
  parse_str r := by simp

/-- Manager 0 asks for approval of request 1. -/
def askedOne : List ChatStep :=
  [.setUp 0, .insert 0 1 { orderId := 0, requestedAt := 0, expiresAt := 300 }, .send 1 (some 7), .register 1]

/-- The user approves, and the manager takes it. -/
def approvedOne : List ChatStep :=
  askedOne ++ [.press .approve 1, .dispatch 0 false, .callback 0 (.commit 0 false), .callback 0 (.redis 0),
    .callback 0 (.telegram 0), .callback 0 (.signal 0), .wake 1]

/-- An approval that is handled in time is not lost. -/
theorem noLostResponse_approvedOne : NoLostResponse (runSteps (Chat.step zeroIds) (approvedOne.take 11) {}) ∧
    ((runSteps (Chat.step zeroIds) (approvedOne.take 11) {}).requests.get? 1).map (·.phase) =
      some (.ended .approved) :=
  ⟨noLostResponse_of_run zeroIds approvedOne (by decide +kernel) 11, by decide +kernel⟩

/-- Before the user approves, another manager is set up on the same bot. -/
def takenOver : List ChatStep :=
  askedOne ++ [.setUp 1, .press .approve 1, .dispatch 0 false, .timer 1, .close 1]

/-- The approval went to the other manager, which does not know the request, and the wait times out. -/
theorem takenOver_loses_approval :
    ¬ ∀ steps : List ChatStep, NoLostResponse (runSteps (Chat.step zeroIds) steps {}) := by
  intro h
  have hreq : ∃ req, (runSteps (Chat.step zeroIds) takenOver {}).requests.get? 1 = some req ∧
      req.answer = some .approved ∧ req.phase = .ended .timeout := by
    refine ⟨{ manager := 0, accountId := "default", phase := .ended .timeout, messageId := some 7
              answer := some .approved }, ?_, rfl, rfl⟩
    rfl
  obtain ⟨req, hget, hanswer, hphase⟩ := hreq
  have hstatus := (h takenOver 1 req .approved hget hanswer).ends .timeout hphase
  cases hstatus

end Chat

end TradingAgent
