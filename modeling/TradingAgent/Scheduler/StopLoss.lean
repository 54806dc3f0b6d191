/-
The stop-loss job. It reads the open positions of an account, looks up the price of each, collects the
exit signals, and hands them to the exit service with the positions as they were read. A signal names
its symbol only, so it finds its own position exactly if no other open position of that symbol was read
before it.
-/
import TradingAgent.Execution.ExitExecutor

namespace TradingAgent

open Execution (M)
open OrderExecutor (ExitArgs)
open ExitExecutionService

/-! ## The job -/

namespace PositionManager

/-- The open positions of an account, by their entry date. -/
def openRows (rowOrder : RowOrder) (accountId : String) (positions : Table PositionRecord) :
    List PositionRecord :=
  (rowOrder.order (positions.rows.values.filter (fun r => r.status = "open" ∧ r.accountId = accountId))).insertionSort
    (fun a b => a.entryDate ≤ b.entryDate)

def getOpen (env : JobEnv) (accountId : String) : M (List PositionRecord) :=
  tryCatch (env.await .getOpen (do pure (openRows env.rowOrder accountId (← get).positions)))
    (fun e => throw (.databaseError ("Open positions query failed: " ++ env.str e)))

end PositionManager

namespace StopLossJob

/-- The unrealized result in percent of the entry price. -/
def unrealizedPnlPct (position : PositionRecord) (currentPrice : Decimal) : Decimal :=
  if position.entryPrice > 0 then quantize2 ((currentPrice - position.entryPrice) / position.entryPrice * 100)
  else 0

/-- The first of the four exit conditions that is met. The trailing stop starts from the entry price. -/
def checkConditions (today : ℤ) (position : PositionRecord) (currentPrice : Decimal) : Option ExitSignal :=
  ExitConditionChecker.checkStopLoss position currentPrice (unrealizedPnlPct position currentPrice) <|>
  ExitConditionChecker.checkTakeProfit position currentPrice (unrealizedPnlPct position currentPrice) <|>
  position.trailingStopPct.bind (fun pct => ExitConditionChecker.checkTrailingStop position currentPrice
    (unrealizedPnlPct position currentPrice) (position.entryPrice * (1 - pct / 100))) <|>
  ExitConditionChecker.checkTimeBased position currentPrice (unrealizedPnlPct position currentPrice) today

variable (env : JobEnv)

/-- Check the `i`-th position. Any exception is logged, and the position raises no signal. -/
def checkPosition (i : ℕ) (position : PositionRecord) : M (Option ExitSignal) :=
  tryCatch (do
    let currentPrice ← env.await (.getPrice i) (pure (env.price i))
    pure (checkConditions env.today position currentPrice))
  (fun _ => pure none)

/-- The exit signals of the positions from the `i`-th on. -/
def collectSignals : ℕ → List PositionRecord → M (List ExitSignal)
  | _, [] => pure []
  | i, position :: positions => do
    let signal ← checkPosition env i position
    let signals ← collectSignals (i + 1) positions
    pure (signal.toList ++ signals)

/-- Check the positions that were read, and work off their signals. -/
def checkPositions (accountId : String) (positions : List PositionRecord) : JobM PUnit := do
  let exitSignals ← collectSignals env 0 positions
  if exitSignals.isEmpty then pure ⟨⟩
  else do
    let _ ← processExitSignals env exitSignals positions accountId
    pure ⟨⟩

/-- `job_stop_loss_check`, up to the alerts of the monitor. -/
def jobStopLossCheck (accountId : String) : JobM PUnit := do
  let positions ← PositionManager.getOpen env accountId
  if positions.isEmpty then pure ⟨⟩ else checkPositions env accountId positions

/-! ## The signals of a run -/

/-- The signal that the `i`-th position raises; none if its price could not be read. -/
def signalOf (i : ℕ) (position : PositionRecord) : Option ExitSignal :=
  if (env.fault (.getPrice i)).isNone then checkConditions env.today position (env.price i) else none

/-- The positions that raise a signal, with it. -/
def raised : ℕ → List PositionRecord → List (PositionRecord × ExitSignal)
  | _, [] => []
  | i, position :: positions =>
    ((signalOf env i position).map (position, ·)).toList ++ raised (i + 1) positions

variable {env}

theorem raised_cons (i : ℕ) (position : PositionRecord) (positions : List PositionRecord) :
    raised env i (position :: positions) =
      ((signalOf env i position).map (position, ·)).toList ++ raised env (i + 1) positions := rfl

/-- A signal carries the symbol of its position, and is due today. -/
theorem checkConditions_due {today : ℤ} {position : PositionRecord} {currentPrice : Decimal} {signal : ExitSignal}
    (h : checkConditions today position currentPrice = some signal) :
    signal.symbol = position.symbol ∧ DueToday signal := by
  unfold checkConditions at h
  simp only [Option.orElse_eq_orElse, Option.orElse_eq_or, Option.or_eq_some_iff] at h
  rcases h with h | ⟨_, h | ⟨_, h | ⟨_, h⟩⟩⟩
  · unfold ExitConditionChecker.checkStopLoss at h
    split at h
    · cases h; exact ⟨rfl, .inl rfl⟩
    · cases h
  · unfold ExitConditionChecker.checkTakeProfit at h
    split at h
    · cases h
    · split at h
      · cases h; exact ⟨rfl, .inr rfl⟩
      · cases h
  · obtain ⟨pct, _, h⟩ := Option.bind_eq_some_iff.1 h
    unfold ExitConditionChecker.checkTrailingStop at h
    split at h
    · cases h; exact ⟨rfl, .inl rfl⟩
    · cases h
  · unfold ExitConditionChecker.checkTimeBased at h
    split at h
    · cases h
    · split at h
      · cases h; exact ⟨rfl, .inr rfl⟩
      · cases h

theorem raised_due {i : ℕ} {positions : List PositionRecord} {position : PositionRecord} {signal : ExitSignal}
    (h : (position, signal) ∈ raised env i positions) : signal.symbol = position.symbol ∧ DueToday signal := by
  induction positions generalizing i with
  | nil => cases h
  | cons p ps ih =>
    rcases List.mem_append.1 h with h | h
    · obtain ⟨s, hs, heq⟩ := Option.map_eq_some_iff.1 (Option.mem_toList.1 h)
      cases heq
      unfold signalOf at hs
      split at hs
      · exact checkConditions_due hs
      · cases hs
    · exact ih h

/-- The raising positions stand in the order in which they were read. -/
theorem raised_sublist (i : ℕ) (positions : List PositionRecord) :
    ((raised env i positions).map Prod.fst).Sublist positions := by
  induction positions generalizing i with
  | nil => exact List.Sublist.slnil
  | cons p ps ih =>
    rw [raised_cons]
    cases signalOf env i p with
    | none => exact (ih (i + 1)).cons p
    | some signal => exact (ih (i + 1)).cons_cons p

theorem wp_checkPosition (i : ℕ) (position : PositionRecord) (w : World) :
    Wp.wp (checkPosition env i position) (fun signal _ => signal = signalOf env i position) (fun _ _ => False) w := by
  unfold checkPosition signalOf JobEnv.await
  rw [Wp.wp_tryCatch, Wp.wp_bind, Async.wp_await]
  constructor
  · intro hok
    rw [hok]
    exact rfl
  · intro f hf
    rw [hf]
    split <;> exact rfl

/-- The collected signals are those that the positions raise. -/
theorem wp_collectSignals (i : ℕ) (positions : List PositionRecord) (w : World) :
    Wp.wp (collectSignals env i positions) (fun signals _ => signals = (raised env i positions).map Prod.snd)
      (fun _ _ => False) w := by
  induction positions generalizing i w with
  | nil => exact rfl
  | cons p ps ih =>
    unfold collectSignals
    rw [Wp.wp_bind]
    refine Wp.wp_mono (wp_checkPosition i p w) (fun signal w₁ hsignal => ?_) fun _ _ h => h
    rw [Wp.wp_bind]
    refine Wp.wp_mono (ih (i + 1) w₁) (fun signals _ hsignals => ?_) fun _ _ h => h
    show _ = _
    rw [hsignal, hsignals, raised_cons, List.map_append]
    cases signalOf env i p <;> rfl

/-- The calls of a run: those of its signals, in the order of their urgency. -/
theorem checkPositions_calls (accountId : String) (positions : List PositionRecord) :
    Calls (checkPositions env accountId positions)
      ((sortSignals ((raised env 0 positions).map Prod.snd)).filterMap (callFor positions accountId))
      (fun _ => True) := by
  unfold checkPositions
  refine calls_bind (l := []) (calls_lift (wp_collectSignals 0 positions)) fun signals hsignals => ?_
  subst hsignals
  split
  · rename_i h
    rw [List.isEmpty_iff.1 h]
    exact calls_pure trivial
  · have hbatch : Calls (processExitSignals env ((raised env 0 positions).map Prod.snd) positions accountId) _ _ :=
      processExitSignals_calls _ _ _
    have := calls_bind hbatch fun _ _ => calls_pure (a := PUnit.unit) (P := fun _ => True) trivial
    rwa [List.append_nil] at this

end StopLossJob

/-! ## Matching -/

/-- Open rows as a query returns them: each under its own number. -/
structure OpenPositions where
  rows : List PositionRecord
  isOpen : ∀ position ∈ rows, position.status = "open"
  distinct : (rows.map (·.id)).Nodup

theorem PositionManager.mem_openRows {rowOrder : RowOrder} {accountId : String} {t : Table PositionRecord}
    {position : PositionRecord} : position ∈ openRows rowOrder accountId t ↔
      (∃ id, t.get? id = some position) ∧ position.status = "open" ∧ position.accountId = accountId := by
  unfold openRows
  rw [(List.perm_insertionSort _ _).mem_iff, (rowOrder.perm _).mem_iff, List.mem_filter, Table.mem_values_iff]
  simp

/-- A table whose rows hold their own number answers with open positions. -/
def OpenPositions.ofTable (rowOrder : RowOrder) (accountId : String) (t : Table PositionRecord)
    (h : t.Numbered (·.id)) : OpenPositions where
  rows := PositionManager.openRows rowOrder accountId t
  isOpen _ hmem := (PositionManager.mem_openRows.1 hmem).2.1
  distinct := by
    have hperm := (List.perm_insertionSort (fun a b : PositionRecord => a.entryDate ≤ b.entryDate) _).trans
      (rowOrder.perm (t.rows.values.filter (fun r => r.status = "open" ∧ r.accountId = accountId)))
    exact (hperm.map (·.id)).nodup_iff.2 (h.nodup.sublist (List.filter_sublist.map _))

theorem PositionManager.getOpen_openPositions (env : JobEnv) (accountId : String) {w : World}
    (h : w.positions.Numbered (·.id)) :
    Wp.wp (getOpen env accountId) (fun rows _ => ∃ positions : OpenPositions, positions.rows = rows)
      (fun _ _ => True) w := by
  unfold getOpen JobEnv.await
  rw [Wp.wp_tryCatch]
  refine Async.wp_await_of (I := fun w => w.positions.Numbered (·.id)) (fun e _ w h => ?_) h
    (fun w₁ hw₁ _ => ⟨.ofTable env.rowOrder accountId w₁.positions hw₁, rfl⟩) fun _ _ _ _ => ⟨trivial, trivial⟩
  rw [(step_frame w e).positions]
  exact h

/-- The calls of a batch belong to the positions that raised its signals, and only to them: one call for
each, with its own quantity and the reason of its signal, and no position is sold twice. -/
structure BatchMatches (raised : List (PositionRecord × ExitSignal)) (calls : List ExitArgs) : Prop where
  once : ∀ position signal, (position, signal) ∈ raised → ∃ call,
    calls.filter (fun c => c.position.id = position.id) = [call] ∧ call.run.quantity = position.quantity ∧
      call.exitSignal.reason = signal.reason
  never : ∀ call ∈ calls, ∃ signal, (call.position, signal) ∈ raised
  noneTwice : (calls.map (·.position.id)).Nodup

/-- No other position of its symbol was read before the position. -/
def FirstOfSymbol (positions : List PositionRecord) (position : PositionRecord) : Prop :=
  ∃ before after, positions = before ++ position :: after ∧ ∀ other ∈ before, other.symbol ≠ position.symbol

/-- Matching is a matter of which calls are made, not of their order. -/
theorem BatchMatches.perm {raised : List (PositionRecord × ExitSignal)} {calls calls' : List ExitArgs}
    (h : BatchMatches raised calls) (hperm : calls.Perm calls') : BatchMatches raised calls' := by
  refine ⟨fun position signal hmem => ?_, fun call hcall => h.never call (hperm.mem_iff.2 hcall),
    (hperm.map _).nodup_iff.1 h.noneTwice⟩
  obtain ⟨call, hfilter, hown⟩ := h.once position signal hmem
  have := hperm.filter (fun c => c.position.id = position.id)
  rw [hfilter] at this
  exact ⟨call, (List.singleton_perm.1 this).symm, hown⟩

namespace OpenPositions

variable (positions : OpenPositions)

/-- A signal finds a position exactly if that is the first open one of its symbol. -/
theorem match_iff {signal : ExitSignal} {position : PositionRecord} :
    matchSignalToPosition signal positions.rows = some position ↔
      position.symbol = signal.symbol ∧ FirstOfSymbol positions.rows position := by
  unfold matchSignalToPosition FirstOfSymbol
  rw [List.find?_eq_some_iff_append]
  constructor
  · rintro ⟨hfound, before, after, heq, hbefore⟩
    have hsymbol : position.symbol = signal.symbol := (of_decide_eq_true hfound).1
    refine ⟨hsymbol, before, after, heq, fun other hother hsame => ?_⟩
    have hopen := positions.isOpen other (by rw [heq]; exact List.mem_append_left _ hother)
    have := hbefore other hother
    simp [hsame, hsymbol, hopen] at this
  · rintro ⟨hsymbol, before, after, heq, hbefore⟩
    have hopen := positions.isOpen position (by rw [heq]; simp)
    refine ⟨by simp [hsymbol, hopen], before, after, heq, fun other hother => ?_⟩
    have := hbefore other hother
    rw [hsymbol] at this
    simp [this]

theorem eq_of_id {position other : PositionRecord} (h : position ∈ positions.rows) (h' : other ∈ positions.rows)
    (hid : position.id = other.id) : position = other :=
  List.inj_on_of_nodup_map positions.distinct h h' hid

end OpenPositions

namespace StopLossJob

variable {env : JobEnv} {positions : OpenPositions} {accountId : String}

theorem mem_of_raised {i : ℕ} {rows : List PositionRecord} {position : PositionRecord} {signal : ExitSignal}
    (h : (position, signal) ∈ raised env i rows) : position ∈ rows :=
  (raised_sublist i rows).subset (List.mem_map_of_mem h)

/-- The raising positions, each with its call. -/
def ownCalls (accountId : String) (raised : List (PositionRecord × ExitSignal)) : List ExitArgs :=
  raised.map fun r => { exitSignal := r.2, position := r.1, accountId }

/-- Among entries with pairwise different keys, one entry has the key of `a`. -/
theorem filter_key_eq {α : Type} (key : α → ℕ) : ∀ {l : List α} {a : α}, (l.map key).Nodup → a ∈ l →
    l.filter (fun b => key b = key a) = [a]
  | b :: l, a, hnodup, hmem => by
    rw [List.map_cons, List.nodup_cons] at hnodup
    rcases List.mem_cons.1 hmem with rfl | hmem
    · have hnone : l.filter (fun b => key b = key a) = [] := by
        refine List.filter_eq_nil_iff.2 fun b hb heq => hnodup.1 ?_
        exact of_decide_eq_true heq ▸ List.mem_map_of_mem hb
      simp [hnone]
    · have hne : key b ≠ key a := fun heq => hnodup.1 (heq ▸ List.mem_map_of_mem hmem)
      rw [List.filter_cons_of_neg (by simp [hne])]
      exact filter_key_eq key hnodup.2 hmem

/-- The own calls of positions that raise one signal each match them. -/
theorem ownCalls_match {raised : List (PositionRecord × ExitSignal)}
    (hdistinct : (raised.map (fun r => r.1.id)).Nodup) : BatchMatches raised (ownCalls accountId raised) := by
  have hids : ((ownCalls accountId raised).map (·.position.id)).Nodup := by
    unfold ownCalls
    rw [List.map_map]
    exact hdistinct
  refine ⟨fun position signal hmem => ?_, fun call hcall => ?_, hids⟩
  · have hcall : { exitSignal := signal, position, accountId } ∈ ownCalls accountId raised :=
      List.mem_map_of_mem (f := fun r => ({ exitSignal := r.2, position := r.1, accountId } : ExitArgs)) hmem
    exact ⟨_, filter_key_eq (fun c : ExitArgs => c.position.id) hids hcall, rfl, rfl⟩
  · obtain ⟨r, hr, rfl⟩ := List.mem_map.1 hcall
    exact ⟨r.2, hr⟩

/-- Where every raising position is the first of its symbol, the signals call for their own positions. -/
theorem filterMap_callFor_of_first {rs : List (PositionRecord × ExitSignal)}
    (hdue : ∀ position signal, (position, signal) ∈ rs → signal.symbol = position.symbol ∧ DueToday signal)
    (hfirst : ∀ position signal, (position, signal) ∈ rs → FirstOfSymbol positions.rows position) :
    (rs.map Prod.snd).filterMap (callFor positions.rows accountId) = ownCalls accountId rs := by
  induction rs with
  | nil => rfl
  | cons r rs ih =>
    obtain ⟨position, signal⟩ := r
    have hmem := List.mem_cons_self (a := (position, signal)) (l := rs)
    obtain ⟨hsymbol, htoday⟩ := hdue position signal hmem
    have hcall : callFor positions.rows accountId signal = some { exitSignal := signal, position, accountId } := by
      unfold callFor
      rw [if_pos htoday, positions.match_iff.2 ⟨hsymbol.symm, hfirst position signal hmem⟩]
      rfl
    rw [List.map_cons, List.filterMap_cons, hcall,
      ih (fun p s h => hdue p s (List.mem_cons_of_mem _ h)) fun p s h => hfirst p s (List.mem_cons_of_mem _ h)]
    rfl

/-- A call was made for a signal, and its position is the first of that symbol. -/
theorem first_of_call {signals : List ExitSignal} {call : ExitArgs}
    (h : call ∈ signals.filterMap (callFor positions.rows accountId)) :
    FirstOfSymbol positions.rows call.position := by
  obtain ⟨signal, _, hcall⟩ := List.mem_filterMap.1 h
  unfold callFor at hcall
  split at hcall
  · obtain ⟨position, hmatch, rfl⟩ := Option.map_eq_some_iff.1 hcall
    exact (positions.match_iff.1 hmatch).2
  · cases hcall

/-- The calls of a run match the raising positions if and only if each of these was the first open
position of its symbol among those that were read. -/
theorem batchMatches_iff {calls : List ExitArgs} (hcalls : calls.Perm
      (((raised env 0 positions.rows).map Prod.snd).filterMap (callFor positions.rows accountId))) :
    BatchMatches (raised env 0 positions.rows) calls ↔
      ∀ position signal, (position, signal) ∈ raised env 0 positions.rows → FirstOfSymbol positions.rows position := by
  constructor
  · intro h position signal hmem
    obtain ⟨call, hfilter, _⟩ := h.once position signal hmem
    have hcall : call ∈ calls.filter (fun c => c.position.id = position.id) := by rw [hfilter]; simp
    obtain ⟨hcall, hid⟩ := List.mem_filter.1 hcall
    obtain ⟨signal', hraised⟩ := h.never call hcall
    have heq := positions.eq_of_id (mem_of_raised hraised) (mem_of_raised hmem) (of_decide_eq_true hid)
    exact heq ▸ first_of_call (hcalls.mem_iff.1 hcall)
  · intro hfirst
    rw [filterMap_callFor_of_first (fun _ _ h => raised_due h) hfirst] at hcalls
    refine (ownCalls_match ?_).perm hcalls.symm
    have hraised : ((raised env 0 positions.rows).map Prod.fst).Sublist positions.rows := raised_sublist 0 _
    have hsub := hraised.map (·.id)
    rw [List.map_map] at hsub
    exact positions.distinct.sublist hsub

/-- The calls of a run, up to their order. -/
theorem checkPositions_run (env : JobEnv) (positions : List PositionRecord) (accountId : String) (w : World) :
    ∃ calls w', (checkPositions env accountId positions).run [] w = .ok (⟨⟩, calls) w' ∧
      calls.Perm (((raised env 0 positions).map Prod.snd).filterMap (callFor positions accountId)) := by
  have hcalls : Calls (checkPositions env accountId positions) _ _ := checkPositions_calls accountId positions
  obtain ⟨_, w', hrun, _⟩ := hcalls [] w
  exact ⟨_, w', hrun, (List.perm_insertionSort _ _).filterMap _⟩

/-- For every list of open positions and all prices, the batch matches the positions that raised a signal
if and only if each of them is the first open position of its symbol in the list. -/
theorem checkPositions_matches_iff (env : JobEnv) (positions : OpenPositions) (accountId : String) (w : World) :
    ∃ calls w', (checkPositions env accountId positions.rows).run [] w = .ok (⟨⟩, calls) w' ∧
      (BatchMatches (raised env 0 positions.rows) calls ↔ ∀ position signal,
        (position, signal) ∈ raised env 0 positions.rows → FirstOfSymbol positions.rows position) := by
  obtain ⟨calls, w', hrun, hperm⟩ := checkPositions_run env positions.rows accountId w
  exact ⟨calls, w', hrun, batchMatches_iff hperm⟩

/-! ## Two positions of one symbol -/

/-- An open position with a stop at 65,000 won. -/
def stopAt65000 (id : ℕ) (strategyType : StrategyType) (quantity : ℤ) : PositionRecord :=
  { id, symbol := "005930", strategyType, quantity, avgCost := 70000, entryPrice := 70000, entryDate := 0
    stopLossPrice := 65000 }

/-- Both strategies hold the symbol. -/
def bothStrategies : OpenPositions where
  rows := [stopAt65000 1 .swing 10, stopAt65000 2 .position 5]
  isOpen := by decide
  distinct := by decide

/-- Every price is 60,000 won, and every call succeeds. -/
def fallEnv : JobEnv :=
  { steps := fun _ => [], price := fun _ => 60000, exits := fun _ => plainEnv, str := fun _ => "" }

/-- Both positions raise a stop loss, and the first is sold twice. -/
theorem bothStrategies_mismatched : ¬ ∃ calls w',
    (checkPositions fallEnv "default" bothStrategies.rows).run [] {} = .ok (⟨⟩, calls) w' ∧
      BatchMatches (raised fallEnv 0 bothStrategies.rows) calls := by
  rintro ⟨calls, w', hrun, hmatch⟩
  obtain ⟨calls', w'', hrun', hperm⟩ := checkPositions_run fallEnv bothStrategies.rows "default" {}
  rw [hrun, EStateM.Result.ok.injEq, Prod.mk.injEq] at hrun'
  obtain ⟨⟨-, rfl⟩, -⟩ := hrun'
  have hids := (hperm.map (·.position.id)).nodup_iff.1 hmatch.noneTwice
  revert hids
  decide +kernel

end StopLossJob

end TradingAgent
