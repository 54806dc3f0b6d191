/-
The decision log between the trader that writes it and the replay that reads it. They share a text column:
the trader writes the action with the symbol of its answer behind it, the replay selects bare actions. A
confident decision comes back exactly if the answer leaves its symbol empty.
-/
import TradingAgent.Agent.Agents

namespace TradingAgent

namespace LLMReplayProvider

/-! ## What is loaded -/

/-- The entry of a row that has a symbol and a confidence. -/
def entryOf (r : DecisionLog) : Option LLMReplayDecision :=
  match r.symbol, r.confidence with
  | some symbol, some confidence =>
    some { decisionId := r.decisionId, symbol, stage := r.stage, decision := r.decision, confidence
           reasoning := r.reasoning, createdAt := r.createdAt }
  | _, _ => none

/-- The entry of a row if it belongs to a day and symbol. -/
def entryAt (day : ℤ) (symbol : String) (r : DecisionLog) : Option LLMReplayDecision :=
  if kstDate r.createdAt = day ∧ r.symbol = some symbol then entryOf r else none

/-- The entries of a day and symbol are those of its selected rows, in their order. -/
theorem getDecisions_load (rows : List DecisionLog) (startDate endDate : ℤ) (symbols stageFilter : List String)
    (llmModelFilter : Option String) (day : ℤ) (symbol : String) :
    getDecisions (load rows startDate endDate symbols llmModelFilter stageFilter) day symbol =
      (select rows startDate endDate symbols stageFilter llmModelFilter).filterMap (entryAt day symbol) := by
  unfold load
  generalize select rows startDate endDate symbols stageFilter llmModelFilter = l
  have hfold : ∀ (l : List DecisionLog) (cache : Cache),
      getDecisions (l.foldl (fun cache r =>
        match r.symbol, r.confidence with
        | some symbol, some confidence =>
          let decision : LLMReplayDecision :=
            { decisionId := r.decisionId, symbol, stage := r.stage, decision := r.decision, confidence
              reasoning := r.reasoning, createdAt := r.createdAt }
          let key := (kstDate r.createdAt, symbol)
          cache.set key ((cache.get? key).getD [] ++ [decision])
        | _, _ => cache) cache) day symbol =
      getDecisions cache day symbol ++ l.filterMap (entryAt day symbol) := by
    intro l
    induction l with
    | nil => exact fun cache => (List.append_nil _).symm
    | cons r l ih =>
      intro cache
      rw [List.foldl_cons, ih, List.filterMap_cons]
      unfold entryAt entryOf
      cases hs : r.symbol with
      | none => simp
      | some s =>
        cases hc : r.confidence with
        | none => simp
        | some c =>
          unfold getDecisions
          rw [Dict.get?_set]
          by_cases hkey : kstDate r.createdAt = day ∧ s = symbol
          · obtain ⟨rfl, rfl⟩ := hkey
            simp
          · have hne : ¬ (day, symbol) = (kstDate r.createdAt, s) := fun h =>
              hkey ⟨(Prod.mk.inj h).1.symm, (Prod.mk.inj h).2.symm⟩
            simp only [hne, if_false, Option.some.injEq, hkey]
  exact (hfold l Dict.empty).trans (List.nil_append _)

theorem entryOf_decisionId {r : DecisionLog} {e : LLMReplayDecision} (h : entryOf r = some e) :
    e.decisionId = r.decisionId := by
  unfold entryOf at h
  split at h
  · cases h; rfl
  · cases h

theorem entryAt_eq_some {day : ℤ} {symbol : String} {r : DecisionLog} {e : LLMReplayDecision}
    (h : entryAt day symbol r = some e) : entryOf r = some e := by
  unfold entryAt at h
  split at h
  · exact h
  · cases h

/-- The entries with the id of a row are the entry of that row, if it is selected. -/
theorem filter_getDecisions_load {rows : List DecisionLog} {startDate endDate : ℤ}
    {symbols stageFilter : List String} {llmModelFilter : Option String} {row : DecisionLog}
    (hids : (rows.map (·.decisionId)).Nodup) (hmem : row ∈ rows) (day : ℤ) (symbol : String) :
    (getDecisions (load rows startDate endDate symbols llmModelFilter stageFilter) day symbol).filter
        (fun e => e.decisionId = row.decisionId) =
      if row ∈ select rows startDate endDate symbols stageFilter llmModelFilter then
        (entryAt day symbol row).toList else [] := by
  have hsub : ∀ r ∈ select rows startDate endDate symbols stageFilter llmModelFilter, r ∈ rows := by
    intro r hr
    unfold select at hr
    exact (List.mem_filter.1 ((List.mem_insertionSort _).1 hr)).1
  have hnodup : ((select rows startDate endDate symbols stageFilter llmModelFilter).map
      (·.decisionId)).Nodup := by
    have hperm := (List.perm_insertionSort (fun a b : DecisionLog => a.createdAt ≤ b.createdAt)
      (rows.filter (fun r =>
        kstMidnight startDate ≤ r.createdAt ∧ r.createdAt < kstMidnight endDate + 86400 ∧
        r.symbol.any (· ∈ symbols) ∧ r.confidence.isSome ∧ r.stage ∈ stageFilter ∧
        r.decision ∈ actionableDecisions ∧ (llmModelFilter.isSome → r.llmModel = llmModelFilter)))).map
      (·.decisionId)
    exact hperm.nodup_iff.2 (hids.sublist (List.filter_sublist.map _))
  rw [getDecisions_load]
  generalize select rows startDate endDate symbols stageFilter llmModelFilter = l at hsub hnodup
  have hfilter : (l.filterMap (entryAt day symbol)).filter (fun e => e.decisionId = row.decisionId) =
      (l.filter (fun r => r.decisionId = row.decisionId)).filterMap (entryAt day symbol) := by
    rw [List.filter_filterMap, List.filterMap_filter]
    refine List.filterMap_congr fun r _ => ?_
    cases he : entryAt day symbol r with
    | none => simp
    | some e =>
      have hid := entryOf_decisionId (entryAt_eq_some he)
      by_cases h : r.decisionId = row.decisionId
      · simp [h, hid]
      · simp [h, hid]
  rw [hfilter]
  by_cases hrow : row ∈ l
  · rw [if_pos hrow, Dict.filter_key_eq_singleton (fun r : DecisionLog => r.decisionId) hnodup hrow,
      List.filterMap_cons, List.filterMap_nil]
    cases entryAt day symbol row with
    | none => rfl
    | some e => rfl
  · have hnil : l.filter (fun r => r.decisionId = row.decisionId) = [] := by
      rw [List.filter_eq_nil_iff]
      intro r hr hid
      rw [decide_eq_true_eq] at hid
      have heq := List.inj_on_of_nodup_map hids (hsub r hr) hmem hid
      exact hrow (heq ▸ hr)
    rw [if_neg hrow, hnil]
    rfl

/-! ## The encoding of decisions -/

/-- An action with a symbol behind it is no action the replay knows. -/
theorem extractDecision_mem_actionable (td : TradeDecision) :
    Trader.extractDecision td ∈ actionableDecisions ↔
      td.symbol = "" ∧ (td.action = .buy ∨ td.action = .sell ∨ td.action = .hold) := by
  unfold Trader.extractDecision
  by_cases hsym : td.symbol = ""
  · rw [if_neg (not_not.2 hsym)]
    cases haction : td.action <;> simp [hsym, actionableDecisions, DecisionAction.value]
  · rw [if_pos hsym]
    refine iff_of_false (fun h => ?_) (fun h => hsym h.1)
    have hcolon : ':' ∈ (td.action.value ++ ":" ++ td.symbol).toList := by simp
    unfold actionableDecisions at h
    simp only [List.mem_cons, List.not_mem_nil, or_false] at h
    rcases h with h | h | h
    · rw [h] at hcolon
      exact absurd hcolon (by decide)
    · rw [h] at hcolon
      exact absurd hcolon (by decide)
    · rw [h] at hcolon
      exact absurd hcolon (by decide)

theorem quantize4_lt_half_iff (x : Decimal) : quantize4 x < minConfidence ↔ x < 49995 / 100000 := by
  unfold quantize4 minConfidence
  have hround := Rounding.halfUp_lt_iff (x := x * 10000) (n := 5000) (by norm_num)
  rw [div_lt_iff₀ (by norm_num), show (1 / 2 : Decimal) * 10000 = ((5000 : ℤ) : Decimal) by norm_num,
    Int.cast_lt, hround]
  constructor
  · intro h
    push_cast at h
    linarith
  · intro h
    push_cast
    linarith

/-- A day of a period lies between its midnights. -/
theorem kstMidnight_le_iff (startDate endDate t : ℤ) :
    (kstMidnight startDate ≤ t ∧ t < kstMidnight endDate + 86400) ↔
      startDate ≤ kstDate t ∧ kstDate t ≤ endDate := by
  unfold kstMidnight kstDate
  omega

/-! ## The round trip -/

/-- What a replay owes to a recorded trade decision: a confident BUY or SELL is found once under its day and
symbol and gives the signal of its action; a HOLD or an unsure decision gives none. -/
structure Replayed (td : TradeDecision) (symbol : String) (row : DecisionLog) (cache : Cache) : Prop where
  kept : td.action = .buy ∨ td.action = .sell → 1 / 2 ≤ td.confidence →
    ∃ entry signal,
      (getDecisions cache (kstDate row.createdAt) symbol).filter (fun e => e.decisionId = row.decisionId) =
        [entry] ∧
      toSignal entry = some signal ∧ signal.symbol = symbol ∧
      signal.action = (if td.action = .buy then .buy else .sell)
  dropped : td.action = .hold ∨ td.confidence < 1 / 2 →
    ∀ day s, ∀ entry ∈ getDecisions cache day s, entry.decisionId = row.decisionId → toSignal entry = none

/-- The answers whose row decodes to what they say: a confident BUY or SELL without a symbol, and an unsure one
that has a symbol or stays unsure at the four decimals of the column. -/
def Decodes (td : TradeDecision) : Prop :=
  td.action = .buy ∨ td.action = .sell →
    (1 / 2 ≤ td.confidence → td.symbol = "") ∧
    (td.confidence < 1 / 2 → td.symbol ≠ "" ∨ td.confidence < 49995 / 100000)

section RoundTrip

variable {td : TradeDecision} {row : DecisionLog} {symbol : String}

/-- The signal of the entry of a row, by the action of the decision. -/
theorem toSignal_entryOf {entry : LLMReplayDecision} (hentry : entryOf row = some entry)
    (hsym : row.symbol = some symbol) (hconf : row.confidence = some (quantize4 td.confidence))
    (hdecision : row.decision = td.action.value) :
    (td.action = .buy ∨ td.action = .sell → minConfidence ≤ quantize4 td.confidence →
      ∃ signal, toSignal entry = some signal ∧ signal.symbol = symbol ∧
        signal.action = (if td.action = .buy then .buy else .sell)) ∧
    (td.action = .hold ∨ quantize4 td.confidence < minConfidence → toSignal entry = none) := by
  unfold entryOf at hentry
  rw [hsym, hconf] at hentry
  cases hentry
  unfold toSignal
  dsimp only
  rw [hdecision]
  constructor
  · intro haction hle
    rw [if_neg (not_lt.2 hle)]
    rcases haction with haction | haction
    · rw [haction]
      exact ⟨_, rfl, rfl, rfl⟩
    · rw [haction]
      exact ⟨_, rfl, rfl, rfl⟩
  · rintro (haction | hlt)
    · rw [haction]
      split
      · rfl
      · rfl
    · rw [if_pos hlt]

theorem extractDecision_of_no_symbol (h : td.symbol = "") : Trader.extractDecision td = td.action.value := by
  unfold Trader.extractDecision
  rw [if_neg (not_not.2 h)]

/-- A recorded decision comes back from a load over its day and symbol as it was meant exactly if it decodes. -/
theorem replayed_iff_decodes {δ : Type} (validate : String → Except Exn TradeDecision)
    (dump : TradeDecision → String) (prepareData : δ → δ) (systemPrompt : String) (buildUserPrompt : δ → String)
    (router : LLMRouter) (recorder : DecisionRecorder) (data : δ) (investmentPrompt : Option String)
    (rows : List DecisionLog) (startDate endDate : ℤ) (symbols : List String)
    (hrecorded : (Trader.agent validate dump prepareData systemPrompt buildUserPrompt).analyze router recorder
      data (some symbol) investmentPrompt = .ok (td, row))
    (hmem : row ∈ rows) (hids : (rows.map (·.decisionId)).Nodup)
    (hstart : startDate ≤ kstDate row.createdAt) (hend : kstDate row.createdAt ≤ endDate)
    (hsymbol : symbol ∈ symbols) :
    Replayed td symbol row (load rows startDate endDate symbols none) ↔ Decodes td := by
  obtain ⟨hstage, hsym, hdecision, hconf, -⟩ := BaseAgent.analyze_row hrecorded
  change row.stage = "trade_decision" at hstage
  change row.decision = Trader.extractDecision td at hdecision
  change row.confidence = some (quantize4 td.confidence) at hconf
  have hselect : row ∈ select rows startDate endDate symbols defaultStageFilter none ↔
      td.symbol = "" ∧ (td.action = .buy ∨ td.action = .sell ∨ td.action = .hold) := by
    unfold select
    rw [List.mem_insertionSort, List.mem_filter, decide_eq_true_eq, ← extractDecision_mem_actionable, ← hdecision]
    have hperiod := (kstMidnight_le_iff startDate endDate row.createdAt).2 ⟨hstart, hend⟩
    simp [hmem, hperiod.1, hperiod.2, hsym, hsymbol, hconf, hstage, defaultStageFilter]
  obtain ⟨entry, hentry⟩ : ∃ entry, entryOf row = some entry := by
    unfold entryOf
    rw [hsym, hconf]
    exact ⟨_, rfl⟩
  have hat : entryAt (kstDate row.createdAt) symbol row = some entry := by
    unfold entryAt
    rw [if_pos ⟨rfl, hsym⟩, hentry]
  have hfound := @filter_getDecisions_load rows startDate endDate symbols defaultStageFilter none row hids hmem
  have hhalf : (1 / 2 : Decimal) ≤ td.confidence → minConfidence ≤ quantize4 td.confidence := by
    intro h
    rw [← not_lt, quantize4_lt_half_iff, not_lt]
    linarith
  constructor
  · intro hreplayed haction
    constructor
    · intro hle
      obtain ⟨e, signal, hone, -⟩ := hreplayed.kept haction hle
      by_contra hne
      rw [hfound, if_neg fun h => hne (hselect.1 h).1] at hone
      cases hone
    · intro hlt
      by_contra hcon
      rw [not_or, not_not, not_lt] at hcon
      have hrow := hselect.2 ⟨hcon.1, haction.imp_right .inl⟩
      have hmementry : entry ∈ getDecisions (load rows startDate endDate symbols none)
          (kstDate row.createdAt) symbol := by
        have hone := hfound (kstDate row.createdAt) symbol
        rw [if_pos hrow, hat] at hone
        apply List.mem_of_mem_filter
        rw [hone]
        exact List.mem_singleton_self entry
      have hnone := hreplayed.dropped (.inr hlt) _ _ entry hmementry (entryOf_decisionId hentry)
      rw [extractDecision_of_no_symbol hcon.1] at hdecision
      obtain ⟨signal, hsignal, -⟩ := (toSignal_entryOf hentry hsym hconf hdecision).1 haction
        (by rw [← not_lt, quantize4_lt_half_iff, not_lt]; exact hcon.2)
      rw [hnone] at hsignal
      cases hsignal
  · intro hdecodes
    constructor
    · intro haction hle
      have hempty := (hdecodes haction).1 hle
      rw [extractDecision_of_no_symbol hempty] at hdecision
      obtain ⟨signal, hsignal, hsame⟩ := (toSignal_entryOf hentry hsym hconf hdecision).1 haction (hhalf hle)
      refine ⟨entry, signal, ?_, hsignal, hsame⟩
      rw [hfound, if_pos (hselect.2 ⟨hempty, haction.imp_right .inl⟩), hat]
      rfl
    · intro hweak day s e he hid
      have hmemfilter : e ∈ (getDecisions (load rows startDate endDate symbols none) day s).filter
          (fun e => e.decisionId = row.decisionId) := List.mem_filter.2 ⟨he, decide_eq_true hid⟩
      rw [hfound] at hmemfilter
      split at hmemfilter
      · rename_i hrow
        obtain ⟨hempty, haction⟩ := hselect.1 hrow
        have heq : entryOf row = some e := entryAt_eq_some (Option.mem_toList.1 hmemfilter)
        rw [extractDecision_of_no_symbol hempty] at hdecision
        apply (toSignal_entryOf heq hsym hconf hdecision).2
        rcases hweak with hhold | hlt
        · exact .inl hhold
        · rcases haction with haction | haction | haction
          · exact .inr ((quantize4_lt_half_iff _).2
              (((hdecodes (.inl haction)).2 hlt).resolve_left (not_not.2 hempty)))
          · exact .inr ((quantize4_lt_half_iff _).2
              (((hdecodes (.inr haction)).2 hlt).resolve_left (not_not.2 hempty)))
          · exact .inl haction
      · cases hmemfilter

/-- A model that decides to buy at a confidence of 80 percent, and names a symbol. -/
def buyingRouter : LLMRouter where
  row := fun _ => .ok none
  defaults := fun _ => .ok (some { agentType := .trader, routingMode := .fixed, primaryModel := "openai/gpt-4o" })
  complete := fun _ _ => .ok ⟨"005930", 100, 50, 1 / 200⟩
  str := fun _ => ""

def buyingTrader : BaseAgent String TradeDecision :=
  Trader.agent (fun text => .ok { symbol := text, action := .buy, confidence := 8 / 10 })
    (fun decision => decision.symbol) id "" id

/-- Its decision for the symbol, and the row it leaves. -/
def namedBuy : TradeDecision := { symbol := "005930", action := .buy, confidence := 8 / 10 }

def namedRow : DecisionLog :=
  { decisionId := 0, stage := "trade_decision", symbol := some "005930", llmModel := some "gpt-4o"
    decision := "buy:005930", confidence := some (8 / 10), createdAt := 0 }

theorem namedBuy_recorded :
    buyingTrader.analyze buyingRouter {} "" (some "005930") none = .ok (namedBuy, namedRow) := by
  have hconf : quantize4 (8 / 10) = 8 / 10 := by decide +kernel
  show Except.ok (namedBuy, { namedRow with confidence := some (quantize4 (8 / 10)) }) = _
  rw [hconf]
  rfl

theorem namedBuy_iff :
    Replayed namedBuy "005930" namedRow (load [namedRow] 0 0 ["005930"] none) ↔ Decodes namedBuy :=
  replayed_iff_decodes _ _ id "" id buyingRouter {} "" none [namedRow] 0 0 ["005930"] namedBuy_recorded
    (List.mem_singleton_self _) (List.nodup_singleton _) (by decide +kernel) (by decide +kernel)
    (List.mem_singleton_self _)

/-- The confident purchase is recorded and not found again. -/
theorem namedBuy_lost :
    buyingTrader.analyze buyingRouter {} "" (some "005930") none = .ok (namedBuy, namedRow) ∧
      ¬ Replayed namedBuy "005930" namedRow (load [namedRow] 0 0 ["005930"] none) := by
  refine ⟨namedBuy_recorded, fun h => ?_⟩
  obtain ⟨entry, signal, hone, -⟩ := h.kept (.inl rfl) (by decide +kernel)
  have hnone : getDecisions (load [namedRow] 0 0 ["005930"] none) (kstDate namedRow.createdAt) "005930" = [] := by
    decide +kernel
  rw [hnone] at hone
  cases hone

end RoundTrip

end LLMReplayProvider

end TradingAgent
