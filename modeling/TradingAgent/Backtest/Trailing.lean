/-
Trailing stops over whole price paths. Once the profit of a position has reached the activation level, its
trailing stop should close it at the first check that finds the price under the trail. Engine and strategies
look at the activation level and at the trail in the same check, so the stop comes in exactly if the profit is
still at the activation level when the price falls under the trail.
-/
import TradingAgent.Backtest.ExitParity
import TradingAgent.Strategy.ExitConditions

namespace TradingAgent

open Wp

namespace TrailingStop

/-! ## Checks along a path -/

/-- The n-th check is the first under the trail after a check that reached the activation level. -/
structure FirstUnder (Reached Under : ℕ → Prop) (n : ℕ) : Prop where
  reached : ∃ i < n, Reached i
  under : Under n
  first : ∀ m < n, (∃ i < m, Reached i) → ¬ Under m

/-- The checks of a position along a path: what each of them reports, its price if there is one, and the
highest price and the width of the trailing stop at that time. -/
structure Checks where
  pos : PositionRecord
  activatePct : Decimal
  length : ℕ
  result : ℕ → Except Exn (Option String)
  close : ℕ → Option Decimal
  trail : ℕ → Option (Decimal × Decimal)

namespace Checks

variable (c : Checks)

/-- The profit of a price in percent of the entry price. -/
def pnlPct (price : Decimal) : Decimal := (price - c.pos.entryPrice) / c.pos.entryPrice * 100

/-- The profit is at the activation level. -/
def Reached (n : ℕ) : Prop := ∃ price, c.close n = some price ∧ c.pos.entryPrice ≠ 0 ∧ c.activatePct ≤ c.pnlPct price

/-- The price is at or under the highest price less the width of the trailing stop. -/
def Under (n : ℕ) : Prop := ∃ price highest pct, c.close n = some price ∧ c.trail n = some (highest, pct) ∧
  price ≤ highest * (1 - pct / 100)

/-- No check before has reported anything. -/
def Open (n : ℕ) : Prop := ∀ m < n, c.result m = .ok none

/-- The check reports the trailing stop or the stop loss. -/
def Stopped (result : Except Exn (Option String)) : Prop :=
  result = .ok (some "trailing_stop") ∨ result = .ok (some "stop_loss")

/-- A position that is still open is stopped at the first check under the trail after the activation. -/
def Protected : Prop := ∀ n ≤ c.length, c.Open n → FirstUnder c.Reached c.Under n → Stopped (c.result n)

/-- At the check the price is at the stop loss, or the profit is at the activation level and the trail is one
that the price calculator accepts. -/
def ActiveAt (n : ℕ) : Prop := ∀ price highest pct, c.close n = some price → c.trail n = some (highest, pct) →
  price ≤ c.pos.stopLossPrice ∨ c.activatePct ≤ c.pnlPct price ∧ 0 < highest ∧ 0 < pct

/-- At the first check under the trail after the activation the trailing stop is active. -/
def StaysActive : Prop := ∀ n ≤ c.length, c.Open n → FirstUnder c.Reached c.Under n → c.ActiveAt n

/-- As long as nothing is reported, the checks are those that the strategies and the engine have in common. -/
def Common : Prop := ∀ n ≤ c.length, c.Open n → ∃ timeUrgency day, c.result n =
  match c.close n with
  | none => .ok none
  | some price => Option.map (·.reason.value) <$>
    checkExitConditions c.activatePct (.ok (c.trail n)) timeUrgency c.pos price day

end Checks

open Checks

theorem not_stopped_error (e : Exn) : ¬ Stopped (.error e) := by
  rintro (h | h) <;> cases h

theorem not_stopped_none : ¬ Stopped (.ok none) := by
  rintro (h | h) <;> cases h

theorem stopped_value_iff (reason : ExitReason) :
    Stopped (.ok (some reason.value)) ↔ reason = .trailingStop ∨ reason = .stopLoss := by
  unfold Stopped
  rw [Except.ok.injEq, Except.ok.injEq, Option.some.injEq, Option.some.injEq]
  cases reason <;> decide

/-- Target and holding time are no stops. -/
theorem not_stopped_after {position : PositionRecord} {price pnlPct : Decimal} {day : ℤ} {timeUrgency : String} :
    ¬ Stopped (Option.map (·.reason.value) <$>
      ((match ExitConditionChecker.checkTakeProfit position price pnlPct with
        | some s => pure (some s)
        | none => pure (ExitConditionChecker.checkTimeBased position price pnlPct day timeUrgency)) :
          Except Exn (Option ExitSignal))) := by
  rcases @ExitParity.checkTakeProfit_reason position price pnlPct with ⟨-, s, hs, hreason⟩ | ⟨-, hnone⟩
  · rw [hs]
    refine (stopped_value_iff s.reason).not.2 ?_
    rw [hreason]
    decide
  · rw [hnone]
    rcases @ExitParity.checkTimeBased_reason position price pnlPct day timeUrgency with
      ⟨-, hnone'⟩ | ⟨-, s, hs, hreason⟩
    · rw [hnone']
      exact not_stopped_none
    · rw [hs]
      refine (stopped_value_iff s.reason).not.2 ?_
      rw [hreason]
      decide

/-- Under the trail a check stops the position exactly if the price is at the stop loss, or the profit is at the
activation level and the price calculator accepts the trail. -/
theorem stopped_iff {position : PositionRecord} {activatePct price highest pct : Decimal} {day : ℤ}
    {timeUrgency : String} (hentry : position.entryPrice ≠ 0) (hunder : price ≤ highest * (1 - pct / 100)) :
    Stopped (Option.map (·.reason.value) <$>
      checkExitConditions activatePct (.ok (some (highest, pct))) timeUrgency position price day) ↔
    price ≤ position.stopLossPrice ∨
      activatePct ≤ (price - position.entryPrice) / position.entryPrice * 100 ∧ 0 < highest ∧ 0 < pct := by
  unfold checkExitConditions
  rw [if_neg hentry]
  dsimp only
  by_cases hstop : price ≤ position.stopLossPrice
  · have hloss : ∀ pnlPct, ∃ s,
        ExitConditionChecker.checkStopLoss position price pnlPct = some s ∧ s.reason = .stopLoss :=
      fun pnlPct => ⟨_, if_pos hstop, rfl⟩
    obtain ⟨s, hs, hreason⟩ := hloss ((price - position.entryPrice) / position.entryPrice * 100)
    rw [hs]
    refine iff_of_true (.inr ?_) (.inl hstop)
    show Except.ok (some s.reason.value) = _
    rw [hreason]
    rfl
  have hloss : ∀ pnlPct, ExitConditionChecker.checkStopLoss position price pnlPct = none := fun _ => if_neg hstop
  rw [hloss]
  dsimp only
  by_cases hactive : activatePct ≤ (price - position.entryPrice) / position.entryPrice * 100
  · rw [if_pos hactive]
    unfold ExitPriceCalculator.trailingStopPrice
    by_cases hhigh : highest ≤ 0
    · simp only [bind, Except.bind, if_pos hhigh]
      refine iff_of_false (not_stopped_error _) ?_
      rintro (h | ⟨-, h, -⟩)
      · exact hstop h
      · exact absurd h (not_lt.2 hhigh)
    by_cases hpct : pct ≤ 0
    · simp only [bind, Except.bind, if_neg hhigh, if_pos hpct]
      refine iff_of_false (not_stopped_error _) ?_
      rintro (h | ⟨-, -, h⟩)
      · exact hstop h
      · exact absurd h (not_lt.2 hpct)
    have htrail : ∀ pnlPct, ∃ s, ExitConditionChecker.checkTrailingStop position price pnlPct
        (highest * (1 - pct / 100)) = some s ∧ s.reason = .trailingStop := fun pnlPct => ⟨_, if_pos hunder, rfl⟩
    obtain ⟨s, hs, hreason⟩ := htrail ((price - position.entryPrice) / position.entryPrice * 100)
    simp only [bind, Except.bind, if_neg hhigh, if_neg hpct, pure, Except.pure, hs]
    refine iff_of_true (.inl ?_) (.inr ⟨hactive, not_le.1 hhigh, not_le.1 hpct⟩)
    show Except.ok (some s.reason.value) = _
    rw [hreason]
    rfl
  · rw [if_neg hactive]
    refine iff_of_false not_stopped_after ?_
    rintro (h | ⟨h, -⟩)
    · exact hstop h
    · exact hactive h

/-- The trailing stop protects a position along a path exactly if it stays active. -/
theorem Checks.Common.protected_iff {c : Checks} (h : c.Common) : c.Protected ↔ c.StaysActive := by
  have hcheck : ∀ n ≤ c.length, c.Open n → FirstUnder c.Reached c.Under n → (Stopped (c.result n) ↔ c.ActiveAt n) := by
    intro n hn hopen hfirst
    obtain ⟨_, _, _, _, hentry, _⟩ := hfirst.reached
    obtain ⟨price, highest, pct, hprice, htrail, hunder⟩ := hfirst.under
    obtain ⟨timeUrgency, day, hresult⟩ := h n hn hopen
    rw [hprice, htrail] at hresult
    rw [hresult, stopped_iff hentry hunder]
    constructor
    · rintro hactive _ _ _ hprice' htrail'
      cases hprice.symm.trans hprice'
      cases htrail.symm.trans htrail'
      exact hactive
    · intro hactive
      exact hactive price highest pct hprice htrail
  constructor
  · intro hprot n hn hopen hfirst
    exact (hcheck n hn hopen hfirst).1 (hprot n hn hopen hfirst)
  · intro hstays n hn hopen hfirst
    exact (hcheck n hn hopen hfirst).2 (hstays n hn hopen hfirst)

/-! ## The engine -/

section Engine

open BacktestEngine

variable (B : Bench) (config : BacktestConfig)

/-- How soon the engine closes an overdue position. -/
def timeUrgency : String := match config.strategyType with
  | .position => "next_session"
  | .swing => "end_of_day"

/-- The checks of the engine are those of the strategies, with the percentage of the trailing stop as its
activation level. -/
theorem exitSignal_eq (pos : PositionRecord) (price highest : Decimal) (day : ℤ) (hentry : pos.entryPrice ≠ 0) :
    exitSignal config pos price ((price - pos.entryPrice) / pos.entryPrice * 100) highest day =
      checkExitConditions (pos.trailingStopPct.getD 0) (.ok (pos.trailingStopPct.map (highest, ·)))
        (timeUrgency config) pos price day := by
  unfold exitSignal checkExitConditions trailingSignal timeUrgency
  rw [if_neg hentry]
  dsimp only
  cases ExitConditionChecker.checkStopLoss pos price ((price - pos.entryPrice) / pos.entryPrice * 100) with
  | some s => rfl
  | none =>
    cases pos.trailingStopPct with
    | none =>
      dsimp only [Option.map_none, Option.getD_none]
      by_cases hactive : (price - pos.entryPrice) / pos.entryPrice * 100 ≥ 0
      · rw [if_pos hactive]
        rfl
      · rw [if_neg hactive]
        rfl
    | some pct =>
      dsimp only [Option.map_some, Option.getD_some]
      by_cases hactive : (price - pos.entryPrice) / pos.entryPrice * 100 ≥ pct
      · rw [if_pos hactive, if_pos hactive]
        dsimp only [bind, Except.bind]
        cases ExitPriceCalculator.trailingStopPrice highest pct <;> rfl
      · rw [if_neg hactive, if_neg hactive]
        rfl

/-- The highest price after a day. -/
def raised (highest : Decimal) : Option Decimal → Decimal
  | none => highest
  | some price => max highest price

/-- What the engine reports for a position, given the highest price after the day. -/
def dayCheck (pos : PositionRecord) (day : ℤ) (highest : Decimal) : Option Decimal → Except Exn (Option String)
  | none => .ok none
  | some price => Option.map (·.reason.value) <$>
    checkExitConditions (pos.trailingStopPct.getD 0) (.ok (pos.trailingStopPct.map (highest, ·)))
      (timeUrgency config) pos price day

/-- The engine holds the position, and this is its highest price so far. -/
structure Held (symbol : String) (pos : PositionRecord) (highest : Decimal) (w : Backtest) : Prop where
  position : w.engine.positions.get? symbol = some pos
  highest : w.engine.highestPrices.get? symbol = some highest

/-- The report of a check, without the state it leaves. -/
def report : EStateM.Result Exn Backtest (Option (String × String)) → Except Exn (Option String)
  | .ok found _ => .ok (found.map Prod.snd)
  | .error e _ => .error e

variable {B config} {symbol : String} {pos : PositionRecord} {highest : Decimal} {w : Backtest} {day : ℤ}

variable (B config day) in
/-- The check of the position raises its highest price and reports what its data say. -/
theorem Held.checkExit (h : Held symbol pos highest w) :
    wp (checkExit B config day symbol pos)
      (fun found w' => dayCheck config pos day (raised highest (B.loader.getClosePrice symbol day))
          (B.loader.getClosePrice symbol day) = .ok (found.map Prod.snd) ∧ (∀ e, found = some e → e.1 = symbol) ∧
        Held symbol pos (raised highest (B.loader.getClosePrice symbol day)) w')
      (fun e _ => dayCheck config pos day (raised highest (B.loader.getClosePrice symbol day))
          (B.loader.getClosePrice symbol day) = .error e) w := by
  unfold BacktestEngine.checkExit
  cases B.loader.getClosePrice symbol day with
  | none => exact ⟨rfl, nofun, h⟩
  | some price =>
    unfold dayCheck raised
    dsimp only
    by_cases hentry : pos.entryPrice = 0
    · rw [if_pos hentry]
      unfold checkExitConditions
      rw [if_pos hentry]
      rfl
    rw [if_neg hentry]
    simp only [wp_bind, wp_get, wp_modifyEngine, h.highest, Option.getD_some]
    rw [exitSignal_eq config pos price _ day hentry]
    cases checkExitConditions (pos.trailingStopPct.getD 0) (.ok (pos.trailingStopPct.map (max highest price, ·)))
        (timeUrgency config) pos price day with
    | error e => rfl
    | ok signal =>
      refine ⟨?_, ?_, h.position, Dict.get?_set_self _ _ _⟩
      · cases signal <;> rfl
      · intro e he
        cases signal with
        | none => cases he
        | some s => cases he; rfl

/-- The check of another position leaves this one alone. -/
theorem Held.checkExit_other (h : Held symbol pos highest w) {other : String} (hne : other ≠ symbol)
    (pos' : PositionRecord) :
    wp (BacktestEngine.checkExit B config day other pos')
      (fun found w' => (∀ e, found = some e → e.1 ≠ symbol) ∧ Held symbol pos highest w') (fun _ _ => True) w := by
  unfold BacktestEngine.checkExit
  cases B.loader.getClosePrice other day with
  | none => exact ⟨nofun, h⟩
  | some price =>
    dsimp only
    by_cases hentry : pos'.entryPrice = 0
    · rw [if_pos hentry]
      trivial
    rw [if_neg hentry]
    simp only [wp_bind, wp_get, wp_modifyEngine]
    cases exitSignal config pos' price _ _ day with
    | error e => trivial
    | ok signal =>
      refine ⟨?_, h.position, (Dict.get?_set_ne _ _ hne.symm).trans h.highest⟩
      intro e he
      cases signal with
      | none => cases he
      | some s => cases he; exact hne

/-- The checks of other positions leave this one alone. -/
theorem Held.collectExits_others : ∀ {items : List (String × PositionRecord)} {w : Backtest},
    Held symbol pos highest w → symbol ∉ items.map Prod.fst →
    wp (collectExits B config day items)
      (fun found w' => (∀ e ∈ found, e.1 ≠ symbol) ∧ Held symbol pos highest w') (fun _ _ => True) w
  | [], _, h, _ => ⟨nofun, h⟩
  | (other, pos') :: items, w, h, hnot => by
    rw [List.map_cons, List.mem_cons, not_or] at hnot
    unfold collectExits
    rw [wp_bind]
    refine wp_mono (h.checkExit_other (Ne.symm hnot.1) pos') (fun found w₁ h₁ => ?_) fun _ _ _ => trivial
    rw [wp_bind]
    refine wp_mono (Held.collectExits_others h₁.2 hnot.2) (fun rest w₂ h₂ => ?_) fun _ _ _ => trivial
    refine ⟨fun e he => ?_, h₂.2⟩
    rcases List.mem_append.1 he with hfound | hrest
    · exact h₁.1 e (Option.mem_toList.1 hfound)
    · exact h₂.1 e hrest

/-- The loop over the open positions finds for this one what its check reports. -/
theorem Held.collectExits {items : List (String × PositionRecord)} (h : Held symbol pos highest w)
    (hnodup : (items.map Prod.fst).Nodup) (hmem : (symbol, pos) ∈ items) :
    wp (BacktestEngine.collectExits B config day items)
      (fun found w' => ∃ reason, dayCheck config pos day (raised highest (B.loader.getClosePrice symbol day))
          (B.loader.getClosePrice symbol day) = .ok reason ∧
        (∀ e, e.1 = symbol → (e ∈ found ↔ reason = some e.2)) ∧
        Held symbol pos (raised highest (B.loader.getClosePrice symbol day)) w') (fun _ _ => True) w := by
  induction items generalizing w with
  | nil => cases hmem
  | cons item items ih =>
    rw [List.map_cons, List.nodup_cons] at hnodup
    obtain ⟨other, pos'⟩ := item
    unfold BacktestEngine.collectExits
    rw [wp_bind]
    rcases List.mem_cons.1 hmem with heq | hrest
    · cases heq
      refine wp_mono (h.checkExit B config day) (fun found w₁ h₁ => ?_) fun _ _ _ => trivial
      rw [wp_bind]
      refine wp_mono (h₁.2.2.collectExits_others hnodup.1) (fun rest w₂ h₂ => ?_) fun _ _ _ => trivial
      refine ⟨_, h₁.1, fun e he => ?_, h₂.2⟩
      rw [List.mem_append, Option.mem_toList, or_iff_left (fun hrest => h₂.1 e hrest he)]
      constructor
      · intro hfound
        rw [hfound]
        rfl
      · intro hreason
        obtain ⟨e', rfl, hsnd⟩ := Option.map_eq_some_iff.1 hreason
        exact congrArg some (Prod.ext ((h₁.2.1 e' rfl).trans he.symm) hsnd)
    · have hne : other ≠ symbol := by
        rintro rfl
        exact hnodup.1 (List.mem_map.2 ⟨_, hrest, rfl⟩)
      refine wp_mono (h.checkExit_other hne pos') (fun found w₁ h₁ => ?_) fun _ _ _ => trivial
      rw [wp_bind]
      refine wp_mono (ih h₁.2 hnodup.2 hrest) (fun rest w₂ h₂ => ?_) fun _ _ _ => trivial
      obtain ⟨reason, hreport, hfound, hheld⟩ := h₂
      refine ⟨reason, hreport, fun e he => ?_, hheld⟩
      rw [List.mem_append, Option.mem_toList, or_iff_right (fun hother => h₁.1 e hother he), hfound e he]

theorem held_holdingsOnly : HoldingsOnly (Held symbol pos highest) := fun _ _ _ hpositions hhighest h =>
  ⟨(congrArg (·.get? symbol) hpositions).trans h.position, (congrArg (·.get? symbol) hhighest).trans h.highest⟩

/-- The exit of another position leaves this one alone. -/
theorem keeps_executeExit_other {other : String} (hne : other ≠ symbol) (exitReason : String) :
    Keeps (Held symbol pos highest) (executeExit B other day exitReason) := by
  refine keeps_executeExit_holdings B held_holdingsOnly (fun w e' hpositions hhighest h => ⟨?_, ?_⟩) day exitReason
  · exact (congrArg (·.get? symbol) hpositions).trans ((Dict.get?_erase_ne _ hne.symm).trans h.position)
  · exact (congrArg (·.get? symbol) hhighest).trans ((Dict.get?_erase_ne _ hne.symm).trans h.highest)

/-- The exits of a day reach the position only if its check has a report. -/
theorem Held.checkExits (h : Held symbol pos highest w) :
    wp (checkExits B config day)
      (fun _ w' => dayCheck config pos day (raised highest (B.loader.getClosePrice symbol day))
          (B.loader.getClosePrice symbol day) = .ok none →
        Held symbol pos (raised highest (B.loader.getClosePrice symbol day)) w') (fun _ _ => True) w := by
  unfold BacktestEngine.checkExits
  rw [wp_bind, wp_get, wp_bind]
  refine wp_mono (h.collectExits w.engine.positions.nodup ((Dict.mem_items_iff _ _ _).2 h.position))
    (fun found w₁ h₁ => ?_) fun _ _ _ => trivial
  obtain ⟨reason, hreport, hfound, hheld⟩ := h₁
  by_cases hnone : reason = none
  · have hothers : ∀ e ∈ found, e.1 ≠ symbol := by
      intro e he hsymbol
      have hsome := (hfound e hsymbol).1 he
      rw [hnone] at hsome
      cases hsome
    exact wp_mono (keeps_forM (fun e he => keeps_executeExit_other (hothers e he) e.2) w₁ hheld)
      (fun _ _ hw _ => hw) fun _ _ _ => trivial
  · refine wp_mono (wp_true _ _) (fun _ _ _ hreport' => ?_) fun _ _ _ => trivial
    rw [hreport] at hreport'
    cases hreport'
    exact absurd rfl hnone

/-- The entries of other positions leave this one alone. -/
theorem keeps_executeSignal_held (signal : Signal) :
    Keeps (Held symbol pos highest) (executeSignal B config day signal) := by
  refine keeps_executeSignal_holdings B config held_holdingsOnly
    (fun w e' b _ _ _ _ hnone _ hpositions hhighest h => ?_) day
  have hne : symbol ≠ signal.symbol := by
    rintro rfl
    cases h.position.symm.trans hnone
  exact ⟨(congrArg (·.get? symbol) hpositions).trans ((Dict.get?_set_ne _ _ hne).trans h.position),
    (congrArg (·.get? symbol) hhighest).trans ((Dict.get?_set_ne _ _ hne).trans h.highest)⟩

variable (B config day) in
/-- After a day that has no report for it, the position is still held, with its highest price raised. -/
theorem Held.daySteps (h : Held symbol pos highest w) :
    wp (runAll (daySteps B config day))
      (fun _ w' => dayCheck config pos day (raised highest (B.loader.getClosePrice symbol day))
          (B.loader.getClosePrice symbol day) = .ok none →
        Held symbol pos (raised highest (B.loader.getClosePrice symbol day)) w') (fun _ _ => True) w := by
  unfold BacktestEngine.daySteps
  simp only [wp_runAll_cons]
  refine wp_mono (keeps_startDay_holdings B held_holdingsOnly day w h) (fun _ w₁ h₁ => ?_) fun _ _ _ => trivial
  refine wp_mono h₁.checkExits (fun _ w₂ h₂ => ?_) fun _ _ _ => trivial
  by_cases hnone : dayCheck config pos day (raised highest (B.loader.getClosePrice symbol day))
      (B.loader.getClosePrice symbol day) = .ok none
  · refine wp_mono
      (keeps_executePendingSignals_holdings B config held_holdingsOnly keeps_executeSignal_held w₂ (h₂ hnone))
      (fun _ w₃ h₃ => ?_) fun _ _ _ => trivial
    refine wp_mono (keeps_generateSignals_holdings B config held_holdingsOnly day w₃ h₃)
      (fun _ w₄ h₄ => ?_) fun _ _ _ => trivial
    refine wp_mono (keeps_recordSnapshot_holdings B held_holdingsOnly day w₄ h₄) (fun _ w₅ h₅ => ?_)
      fun _ _ _ => trivial
    exact fun _ => h₅
  · have hskip : ∀ (xs : List (M PUnit)) w₂, wp (runAll xs) (fun _ w' => dayCheck config pos day
        (raised highest (B.loader.getClosePrice symbol day)) (B.loader.getClosePrice symbol day) = .ok none →
        Held symbol pos (raised highest (B.loader.getClosePrice symbol day)) w') (fun _ _ => True) w₂ :=
      fun xs w₂ => wp_mono (wp_true _ _) (fun _ _ _ h => absurd h hnone) fun _ _ _ => trivial
    have hrest := hskip [executePendingSignals B config day, generateSignals B config day, recordSnapshot B day] w₂
    simp only [wp_runAll_cons] at hrest
    exact hrest

/-- The entry of a position starts its highest price at its entry price. -/
theorem recordEntry_held (signal : Signal) (qty : ℤ) (openPrice : Decimal) (result : OrderResult) :
    wp (recordEntry config signal day qty openPrice result)
      (fun _ w' => ∃ pos, Held signal.symbol pos pos.entryPrice w') (fun _ _ => True) w := by
  unfold recordEntry
  rw [wp_bind]
  refine wp_mono (wp_true _ _) (fun limits w₁ _ => ?_) fun _ _ _ => trivial
  exact ⟨_, Dict.get?_set_self _ _ _, Dict.get?_set_self _ _ _⟩

variable (B config symbol pos)

/-- Days of a backtest that begin with the position just entered; each of them runs to its end. -/
structure HeldRun where
  day : ℕ → ℤ
  before : ℕ → Backtest
  length : ℕ
  entered : Held symbol pos pos.entryPrice (before 0)
  runs : ∀ n < length, runAll (daySteps B config (day n)) (before n) = .ok ⟨⟩ (before (n + 1))

variable {B config symbol pos}

namespace HeldRun

variable (run : HeldRun B config symbol pos)

def close (n : ℕ) : Option Decimal := B.loader.getClosePrice symbol (run.day n)

/-- The highest of the entry price and the closes of the first days. -/
def highestSince : ℕ → Decimal
  | 0 => pos.entryPrice
  | n + 1 => raised (highestSince n) (run.close n)

/-- The checks of the engine on these days and the next. -/
def checks : Checks where
  pos
  activatePct := pos.trailingStopPct.getD 0
  length := run.length
  result n := report (BacktestEngine.checkExit B config (run.day n) symbol pos (run.before n))
  close := run.close
  trail n := pos.trailingStopPct.map (run.highestSince (n + 1), ·)

/-- The report of a check, from the highest price that the engine has at that time. -/
theorem result_eq_dayCheck {n : ℕ} (h : Held symbol pos (run.highestSince n) (run.before n)) :
    run.checks.result n = dayCheck config pos (run.day n) (run.highestSince (n + 1)) (run.close n) := by
  have hcheck := h.checkExit B config (run.day n)
  show report _ = _
  unfold wp at hcheck
  cases hresult : BacktestEngine.checkExit B config (run.day n) symbol pos (run.before n) with
  | ok found w' =>
    rw [hresult] at hcheck
    exact hcheck.1.symm
  | error e w' =>
    rw [hresult] at hcheck
    exact hcheck.symm

/-- As long as nothing is reported, the position is held and the engine has its highest price. -/
theorem held : ∀ {n : ℕ}, n ≤ run.length → run.checks.Open n → Held symbol pos (run.highestSince n) (run.before n)
  | 0, _, _ => run.entered
  | n + 1, hn, hopen => by
    have h := held (Nat.le_of_succ_le hn) fun m hm => hopen m (Nat.lt_succ_of_lt hm)
    have hday := h.daySteps B config (run.day n)
    unfold wp at hday
    rw [run.runs n hn] at hday
    exact hday ((run.result_eq_dayCheck h).symm.trans (hopen n (Nat.lt_succ_self n)))

theorem checks_common : run.checks.Common := by
  intro n hn hopen
  refine ⟨timeUrgency config, run.day n, ?_⟩
  rw [run.result_eq_dayCheck (run.held hn hopen)]
  show _ = match run.close n with | none => _ | some price => _
  cases run.close n with
  | none => rfl
  | some price => rfl

end HeldRun

end Engine

/-! ## The strategies -/

/-- What the broker answers on a day: the price and the daily bars. -/
structure MarketDay where
  close : Decimal
  bars : List OHLCV
  today : ℤ

def MarketDay.sources (d : MarketDay) : ExitSources where
  getPrice _ := .ok d.close
  getDailyOhlcv _ _ := .ok d.bars
  today := d.today

section Results

variable (pos : PositionRecord) (path : ℕ → MarketDay) (length : ℕ)

/-- The checks of the swing strategy along a path. -/
def swingChecks : Checks where
  pos
  activatePct := SwingTradingStrategy.trailingActivatePct
  length
  result n := Option.map (·.reason.value) <$> SwingTradingStrategy.checkExitConditions (path n).sources pos
  close n := some (path n).close
  trail n := SwingTradingStrategy.trail pos (path n).bars

/-- The checks of the position strategy along a path. -/
def positionChecks : Checks where
  pos
  activatePct := PositionTradingStrategy.trailingActivatePct
  length
  result n := Option.map (·.reason.value) <$> PositionTradingStrategy.checkExitConditions (path n).sources pos
  close n := some (path n).close
  trail n := PositionTradingStrategy.trail pos (path n).bars

theorem swingChecks_common : (swingChecks pos path length).Common := fun n _ _ =>
  ⟨"end_of_day", (path n).today, rfl⟩

theorem positionChecks_common : (positionChecks pos path length).Common := fun n _ _ =>
  ⟨"next_session", (path n).today, rfl⟩

/-! ## Results -/

/-- Engine and strategies protect a position along a path exactly if its trailing stop is active whenever the
price first falls under the trail. -/
theorem protected_iff_staysActive {B : Bench} {config : BacktestConfig} {symbol : String} {entered : PositionRecord}
    (run : HeldRun B config symbol entered) :
    (run.checks.Protected ↔ run.checks.StaysActive) ∧
    ((swingChecks pos path length).Protected ↔ (swingChecks pos path length).StaysActive) ∧
    ((positionChecks pos path length).Protected ↔ (positionChecks pos path length).StaysActive) :=
  ⟨run.checks_common.protected_iff, (swingChecks_common pos path length).protected_iff,
    (positionChecks_common pos path length).protected_iff⟩

end Results

/-! ## A gap below the activation level -/

namespace Gap

open BacktestEngine

/-- A bar on which nothing but the close matters. -/
def bar (day : ℤ) (close : Decimal) : DailyOHLCV :=
  { symbol := "005930", date := day, openPrice := 100, high := close, low := close, close, volume := 1 }

/-- Six percent over the entry, then back to it. -/
def loader : HistoricalDataLoader := ⟨[bar 1 100, bar 2 106, bar 3 100], by decide, by decide⟩

def bench : Bench := replayBench loader [] {}

def config : BacktestConfig := { strategyType := .position, startDate := 1, endDate := 3, symbols := ["005930"] }

/-- The evening before the entry, with the BUY of the position pending. -/
def evening : Backtest where
  engine := { pendingSignals := [{
    symbol := "005930", action := .buy, confidence := 6 / 10, targetPrice := some 130, stopLossPrice := some 90
    quantity := 10, reasoning := .sma 20 60 30 40 }] }
  broker := newBroker bench config

/-- The evenings from the entry on. -/
def before : ℕ → Backtest
  | 0 => BacktestEngine.left (runAll (daySteps bench config 1) evening)
  | n + 1 => BacktestEngine.left (runAll (daySteps bench config (2 + n)) (before n))

/-- The position of the entry. -/
def position : PositionRecord :=
  { id := 1, symbol := "005930", strategyType := .position, quantity := 10, avgCost := 100, entryPrice := 100
    entryDate := 1, stopLossPrice := 90, takeProfitPrice := some 130, trailingStopPct := some 5
    maxHoldingDays := some 60 }

theorem entered : Held "005930" position 100 (before 0) := ⟨by decide +kernel, by decide +kernel⟩

theorem runs : runAll (daySteps bench config 2) (before 0) = .ok ⟨⟩ (before 1) := eq_ok_left (by decide +kernel)

/-- The two days after the entry. -/
def run : HeldRun bench config "005930" position where
  day n := 2 + n
  before
  length := 1
  entered := entered
  runs n hn := by
    obtain rfl : n = 0 := by omega
    exact runs

/-- The same path for the strategies. -/
def path (n : ℕ) : MarketDay :=
  let bars : List OHLCV := [⟨1, 100, 100, 100⟩, ⟨2, 106, 106, 106⟩, ⟨3, 100, 100, 100⟩]
  { close := if n = 0 then 106 else 100, bars := bars.take (n + 2), today := 2 + n }

/-- A position is not protected when the second check is under the trail and reports no stop. -/
theorem not_protected {c : Checks} (hlength : 1 ≤ c.length) (hopen : c.result 0 = .ok none) (h₀ : c.Reached 0)
    (h₁ : c.Under 1) (hstop : ¬ Stopped (c.result 1)) : ¬ c.Protected := by
  intro h
  refine hstop (h 1 hlength (fun m hm => ?_) ⟨⟨0, Nat.one_pos, h₀⟩, h₁, fun m hm => ?_⟩)
  · obtain rfl : m = 0 := by omega
    exact hopen
  · rintro ⟨i, hi, -⟩
    omega

instance (result : Except Exn (Option String)) : Decidable (Stopped result) :=
  inferInstanceAs (Decidable (_ ∨ _))

/-- The price falls from six percent profit to none, which is under every one of the three trails. Neither the
engine nor a strategy reports anything. -/
theorem not_protected_gap :
    ¬ run.checks.Protected ∧ ¬ (swingChecks position path 1).Protected ∧
      ¬ (positionChecks position path 1).Protected := by
  refine ⟨not_protected le_rfl ?_ ⟨106, ?_, ?_, ?_⟩ ⟨100, 106, 5, ?_, ?_, ?_⟩ ?_,
    not_protected le_rfl ?_ ⟨106, ?_, ?_, ?_⟩ ⟨100, 106, 2, ?_, ?_, ?_⟩ ?_,
    not_protected le_rfl ?_ ⟨106, ?_, ?_, ?_⟩ ⟨100, 106, 5, ?_, ?_, ?_⟩ ?_⟩
  all_goals decide +kernel

end Gap

end TrailingStop

end TradingAgent
