/-
The dialogue for another quantity. The keyboard sends the action `modify`, the approval manager only knows
`modify:` with a number, and nothing asks the bot for a quantity; so no text is ever taken for one, and no
request is approved with a modified quantity.
-/
import TradingAgent.Notification.Delivery

namespace TradingAgent

open Async

namespace Chat

variable {U : UuidText} {s : Chat}

/-! ## No quantity arrives -/

/-- No quantity was modified, and none is about to be. -/
structure Unmodified (s : Chat) : Prop where
  noPrompt : s.pendingModify = Dict.empty
  quantities : ∀ m, (s.managers m).modifiedQuantities = Dict.empty
  underway : ∀ m p, p ∈ (s.managers m).underway → p.2.modifiedQuantity = none

theorem unmodified_empty : Unmodified {} := ⟨rfl, fun _ => rfl, fun _ _ h => by cases h⟩

/-- One manager changes, and its quantities stay as they are. -/
theorem Unmodified.manager {m : ℕ} {w : World} (h : Unmodified s)
    (hquantities : w.modifiedQuantities = (s.managers m).modifiedQuantities)
    (hunderway : ∀ p ∈ w.underway, p ∈ (s.managers m).underway ∨ p.2.modifiedQuantity = none) :
    Unmodified { s with managers := Function.update s.managers m w } := by
  refine ⟨h.noPrompt, fun m' => ?_, fun m' p hp => ?_⟩
  · by_cases hm : m' = m
    · subst hm
      simp only [Function.update_self]
      exact hquantities.trans (h.quantities m')
    · simp only [Function.update_of_ne hm]
      exact h.quantities m'
  · by_cases hm : m' = m
    · subst hm
      simp only [Function.update_self] at hp
      exact (hunderway p hp).elim (h.underway m' p) id
    · simp only [Function.update_of_ne hm] at hp
      exact h.underway m' p hp

theorem Unmodified.updateManager (h : Unmodified s) (m : ℕ) (f : World → World)
    (hquantities : ∀ w, (f w).modifiedQuantities = w.modifiedQuantities)
    (hunderway : ∀ w, (f w).underway = w.underway) : Unmodified (s.updateManager m f) :=
  h.manager (hquantities _) fun _ hp => .inl (hunderway _ ▸ hp)

theorem Unmodified.setRequest (h : Unmodified s) (r : RequestId) (req : RequestTask) :
    Unmodified (s.setRequest r req) := ⟨h.noPrompt, h.quantities, h.underway⟩

theorem Unmodified.advance {r : RequestId} {phase : RequestPhase} {next : RequestTask → Chat} (h : Unmodified s)
    (hnext : ∀ req, Unmodified (next req)) : Unmodified (s.advance r phase next) := by
  unfold Chat.advance
  split
  · exact h
  · split
    · exact hnext _
    · exact h

theorem Unmodified.dispatch (h : Unmodified s) (i : ℕ) (fails : Bool) : Unmodified (s.dispatch U i fails) := by
  cases hq : s.queries[i]? with
  | none =>
    unfold Chat.dispatch
    rw [hq]
    exact h
  | some q =>
    have hd := dispatch_spec (U := U) hq fails
    generalize s.dispatch U i fails = s' at hd
    cases hd with
    | dropped => exact ⟨h.noPrompt, h.quantities, h.underway⟩
    | accepted m a w _ _ hmodified _ _ hquantities hunderway =>
      have herased : Unmodified { s with queries := s.queries.eraseIdx i } := ⟨h.noPrompt, h.quantities, h.underway⟩
      refine herased.manager hquantities fun p hp => ?_
      rw [hunderway, List.mem_append, List.mem_singleton] at hp
      rcases hp with hp | rfl
      · exact .inl hp
      · exact .inr hmodified

theorem Unmodified.callback (h : Unmodified s) (m : ℕ) (e : CallbackStep) :
    Unmodified (s.updateManager m (·.step e.toStep)) := by
  have hmove := callback_move (s.managers m) e
  show Unmodified { s with managers := Function.update s.managers m ((s.managers m).step e.toStep) }
  generalize (s.managers m).step e.toStep = w at hmove
  cases hmove with
  | keep _ _ hquantities hunderway => exact h.manager hquantities fun p hp => .inl (hunderway ▸ hp)
  | signal i cb _ hcb =>
    have hnone : cb.answer.modifiedQuantity = none :=
      h.underway m (cb.requestId, cb.answer) (List.mem_map.2 ⟨cb, List.mem_of_getElem? hcb, rfl⟩)
    refine h.manager ?_ fun p hp => .inl ((underway_signal hcb).1 p hp)
    simp only [World.callbackSignal, hnone]

theorem Unmodified.step (h : Unmodified s) (e : ChatStep) : Unmodified (s.step U e) := by
  cases e with
  | setUp m => exact ⟨h.noPrompt, h.quantities, h.underway⟩
  | insert m r row =>
    show Unmodified (s.insert m r row)
    unfold Chat.insert
    split
    · exact h
    · exact (h.setRequest r _).updateManager _ _ (fun _ => rfl) fun _ => rfl
  | send r messageId => exact h.advance fun req => h.setRequest r _
  | register r => exact h.advance fun req => (h.setRequest r _).updateManager _ _ (fun _ => rfl) fun _ => rfl
  | fail r =>
    show Unmodified (s.fail r)
    unfold Chat.fail
    split
    · exact h
    · split
      · exact h.setRequest r _
      · exact h
  | press button r =>
    show Unmodified (s.press button r)
    unfold Chat.press
    split
    · exact h
    · split
      · exact h
      · exact ⟨h.noPrompt, h.quantities, h.underway⟩
  | dispatch i fails => exact h.dispatch i fails
  | text chatId text =>
    show Unmodified (s.onTextMessage chatId text)
    unfold onTextMessage
    rw [h.noPrompt]
    exact h
  | callback m e => exact h.callback m e
  | wake r =>
    refine h.advance fun req => ?_
    dsimp only
    split
    · split
      · exact h.setRequest r _
      · exact (h.setRequest r _).updateManager _ _ (fun _ => rfl) fun _ => rfl
    · exact h
  | timer r => exact h.advance fun req => h.setRequest r _
  | close r => exact h.advance fun req => (h.setRequest r _).updateManager _ _ (fun _ => rfl) fun _ => rfl

theorem unmodified_of_run (U : UuidText) (steps : List ChatStep) : Unmodified (runSteps (Chat.step U) steps {}) :=
  runSteps_keeps (fun e _ _ h => h.step e) unmodified_empty

/-! ## The dialogue -/

/-- The modified quantity of a request, as its manager remembers it. -/
def modifiedQuantity (s : Chat) (r : RequestId) : Option ℤ :=
  (s.requests.get? r).bind fun req => ApprovalManager.getModifiedQuantity (s.managers req.manager) r

/-- The step starts another dialogue, or types a quantity. -/
def EntersOther (chatId : String) : ChatStep → Prop
  | .press .modify _ => True
  | .text chatId' text => chatId' = chatId ∧ parseQuantity text.toList ≠ none
  | _ => False

/-- After the steps `before` a user presses the modify button of a request that waits, and after the steps
`between` the first quantity typed in the chat is `n`. -/
structure Dialogue (U : UuidText) (before between : List ChatStep) (chatId text : String) (r : RequestId)
    (n : ℤ) : Prop where
  pending : ((runSteps (Chat.step U) before {}).requests.get? r).map (·.phase) = some .waiting
  between : ∀ e ∈ between, ¬ EntersOther chatId e
  typed : parseQuantity text.toList = some n

/-- The request, and no other, is approved with the quantity. -/
structure AppliedTo (s s' : Chat) (r : RequestId) (n : ℤ) : Prop where
  approved : (s'.requests.get? r).map (·.phase) = some (.ended .approved)
  quantity : s'.modifiedQuantity r = some n
  only : ∀ r', r' ≠ r → s'.modifiedQuantity r' = s.modifiedQuantity r'

/-- Every dialogue in the run can still lead to the approval of its request with the typed quantity. -/
def DialogueWorks (U : UuidText) (steps : List ChatStep) : Prop :=
  ∀ before between after chatId text r n,
    steps = before ++ .press .modify r :: between ++ .text chatId text :: after →
    Dialogue U before between chatId text r n →
    ∃ later, AppliedTo (runSteps (Chat.step U) (before ++ .press .modify r :: between) {})
      (runSteps (Chat.step U) (steps ++ later) {}) r n

/-- No run applies a typed quantity to a request. -/
theorem not_appliedTo (U : UuidText) (steps : List ChatStep) (s : Chat) (r : RequestId) (n : ℤ) :
    ¬ AppliedTo s (runSteps (Chat.step U) steps {}) r n := by
  intro h
  obtain ⟨req, _, hget⟩ := Option.bind_eq_some_iff.1 h.quantity
  unfold ApprovalManager.getModifiedQuantity at hget
  rw [(unmodified_of_run U steps).quantities] at hget
  cases hget

/-- The dialogue never works: it does so in a run if and only if the run has none. -/
theorem dialogueWorks_iff (U : UuidText) (steps : List ChatStep) : DialogueWorks U steps ↔
    ∀ before between after chatId text r n,
      steps = before ++ .press .modify r :: between ++ .text chatId text :: after →
      ¬ Dialogue U before between chatId text r n := by
  constructor
  · intro h before between after chatId text r n hsteps hdialogue
    obtain ⟨later, happlied⟩ := h before between after chatId text r n hsteps hdialogue
    exact not_appliedTo U (steps ++ later) _ r n happlied
  · intro h before between after chatId text r n hsteps hdialogue
    exact absurd hdialogue (h before between after chatId text r n hsteps)

/-- The user presses modify below request 1, and types 5. -/
def modifyOne : List ChatStep := askedOne ++ .press .modify 1 :: [.dispatch 0 false] ++ .text "1" "5" :: []

/-- The keyboard's action and the text come to nothing. -/
theorem modifyOne_unmodified : ¬ ∀ steps : List ChatStep, DialogueWorks zeroIds steps := by
  intro h
  have hdialogue : Dialogue zeroIds askedOne [.dispatch 0 false] "1" "5" 1 5 := by
    refine ⟨by decide +kernel, fun e he => ?_, by decide +kernel⟩
    rw [List.mem_singleton.1 he]
    exact fun h => h
  obtain ⟨later, happlied⟩ := h modifyOne askedOne [.dispatch 0 false] [] "1" "5" 1 5 rfl hdialogue
  exact not_appliedTo zeroIds (modifyOne ++ later) _ 1 5 happlied

end Chat

end TradingAgent
