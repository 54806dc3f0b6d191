/-
Runs seen from the turns of their signals. What every other step keeps, and every signal at its turn, holds at
the end of the run; and what all steps keep once a signal has brought it about is still there at the end.
-/
import TradingAgent.Backtest.OrderLimits
import TradingAgent.Lib.Agree

namespace TradingAgent

open Wp

namespace BacktestEngine

variable {B : Bench} {config : BacktestConfig} {P J : Backtest → Prop} {w₀ w : Backtest}

/-- What the steps of the run from a state keep, where a signal has to keep it at its turn only. -/
structure TurnInvariant (B : Bench) (config : BacktestConfig) (w₀ : Backtest) (P J : Backtest → Prop) : Prop where
  weaken : ∀ w, P w → J w
  start : ∀ tradingDate, Keeps P (startDay B tradingDate)
  exits : ∀ tradingDate, Keeps P (checkExits B config tradingDate)
  clear : ∀ w, P w → P { w with engine := { w.engine with pendingSignals := [] } }
  entry : ∀ tradingDate signal w, TurnOf B config w₀ tradingDate signal w → P w →
    wp (executeSignal B config tradingDate signal) (fun _ w' => P w') (fun _ w' => J w') w
  generate : ∀ tradingDate, Keeps P (generateSignals B config tradingDate)
  snapshot : ∀ tradingDate, Keeps P (recordSnapshot B tradingDate)
  exit : ∀ symbol tradingDate exitReason, Keeps P (executeExit B symbol tradingDate exitReason)

/-- The run up to the start of a day. -/
def runUpTo (B : Bench) (config : BacktestConfig) (earlier : List ℤ) : M PUnit := do
  prepare B config
  runAll (loopSteps B config earlier)

namespace TurnInvariant

/-- The day after the earlier ones. -/
theorem day (h : TurnInvariant B config w₀ P J) (hsymbols : config.symbols ≠ []) {earlier later : List ℤ}
    {tradingDate : ℤ} (hdates : tradingDates B config = earlier ++ tradingDate :: later)
    (hrun : runUpTo B config earlier w₀ = .ok ⟨⟩ w) (hw : P w) :
    wp (runAll (daySteps B config tradingDate)) (fun _ w' => P w') (fun _ w' => J w') w := by
  unfold daySteps
  rw [wp_runAll_cons]
  refine wp_mono (wp_and (wp_self _ w) (h.start tradingDate w hw)) (fun _ w₁ h₁ => ?_) fun _ w' h' => h.weaken w' h'.2
  rw [wp_runAll_cons]
  refine wp_mono (wp_and (wp_self _ w₁) (h.exits tradingDate w₁ h₁.2)) (fun _ w₂ h₂ => ?_)
    fun _ w' h' => h.weaken w' h'.2
  rw [wp_runAll_cons]
  unfold executePendingSignals
  rw [wp_bind, wp_get, wp_bind, wp_modifyEngine]
  refine wp_mono (wp_forM_sofar (fun done signal rest w₃ hsignals hdone h₃ => ?_) (h.clear w₂ h₂.2))
    (fun _ w₃ h₃ => ?_) fun _ _ h => h
  · refine h.entry tradingDate signal w₃ ⟨earlier, later, done.length, rest, hsymbols, hdates, ?_⟩ h₃
    have hclear : modifyEngine (fun e => { e with pendingSignals := [] }) w₂ =
        .ok ⟨⟩ { w₂ with engine := { w₂.engine with pendingSignals := [] } } := rfl
    unfold runUpTo at hrun
    unfold runToTurn
    rw [← bind_assoc, bind_apply, hrun]
    dsimp only
    rw [bind_apply, h₁.1]
    dsimp only
    rw [bind_apply, h₂.1]
    dsimp only
    rw [get_bind_apply, bind_apply, hclear]
    dsimp only
    rw [hsignals, List.take_left, List.drop_left, bind_apply, hdone]
    rfl
  · rw [wp_runAll_cons]
    refine wp_mono (h.generate tradingDate w₃ h₃) (fun _ w₄ h₄ => ?_) fun _ w' h' => h.weaken w' h'
    rw [wp_runAll_cons]
    exact wp_mono (h.snapshot tradingDate w₄ h₄) (fun _ w₅ h₅ => h₅) fun _ w' h' => h.weaken w' h'

/-- The days after the earlier ones. -/
theorem days (h : TurnInvariant B config w₀ P J) (hsymbols : config.symbols ≠ []) (later : List ℤ) :
    ∀ {earlier : List ℤ} {w : Backtest}, tradingDates B config = earlier ++ later →
      runUpTo B config earlier w₀ = .ok ⟨⟩ w → P w →
      wp (runAll (loopSteps B config later)) (fun _ w' => P w') (fun _ w' => J w') w := by
  induction later with
  | nil => exact fun _ _ h => h
  | cons tradingDate later ih =>
    intro earlier w hdates hrun hw
    have hsteps : loopSteps B config (tradingDate :: later) =
        daySteps B config tradingDate ++ loopSteps B config later := rfl
    rw [hsteps, wp_runAll_append]
    refine wp_mono (wp_and (wp_self _ w) (h.day hsymbols hdates hrun hw)) (fun _ w' h' => ?_) fun _ _ h' => h'.2
    have hdates' : tradingDates B config = (earlier ++ [tradingDate]) ++ later := by
      rw [hdates, List.append_assoc, List.singleton_append]
    refine ih hdates' ?_ h'.2
    have hnext : loopSteps B config (earlier ++ [tradingDate]) =
        loopSteps B config earlier ++ daySteps B config tradingDate := by
      unfold loopSteps
      rw [List.flatMap_append, List.flatMap_singleton]
    unfold runUpTo at hrun ⊢
    rw [hnext, runAll_append, ← bind_assoc, bind_apply, hrun]
    exact h'.1

/-- A whole run, whose result carries the trades of the engine, or none where there was nothing to run. -/
theorem run (h : TurnInvariant B config w₀ P J)
    (hprepare : wp (prepare B config) (fun _ w => P w) (fun _ w => J w) w₀) :
    wp (BacktestEngine.run B config) (fun r w => J w ∧ (r.trades = w.engine.trades ∨ r.trades = []))
      (fun _ _ => False) w₀ := by
  have hbody : wp (runBody B config) (fun r w => J w ∧ (r.trades = w.engine.trades ∨ r.trades = []))
      (fun _ w => J w) w₀ := by
    unfold runBody
    rw [wp_bind]
    refine wp_mono (wp_and (wp_self _ w₀) hprepare) (fun _ w₁ h₁ => ?_) fun _ _ h => h.2
    cases (tradingDates B config).getLast? with
    | none => exact ⟨h.weaken w₁ h₁.2, .inr rfl⟩
    | some lastDate =>
      dsimp only
      rw [wp_ite]
      split
      · exact ⟨h.weaken w₁ h₁.2, .inr rfl⟩
      · rename_i hsymbols
        rw [wp_bind]
        have hstart : runUpTo B config [] w₀ = .ok ⟨⟩ w₁ := by
          unfold runUpTo
          rw [bind_apply, h₁.1]
          rfl
        have hdates : tradingDates B config = [] ++ tradingDates B config := rfl
        refine wp_mono (h.days hsymbols _ hdates hstart h₁.2) (fun _ w₂ h₂ => ?_) fun _ _ h => h
        exact wp_mono (finish_keeps B config h.exit lastDate h₂)
          (fun _ w₃ h₃ => ⟨h.weaken w₃ h₃.1, .inl h₃.2⟩) fun _ w₃ h₃ => h.weaken w₃ h₃
  unfold BacktestEngine.run
  rw [wp_tryCatch]
  exact wp_mono hbody (fun _ _ h => h) fun _ w h => ⟨h, .inl rfl⟩

end TurnInvariant

/-- What a signal brings about at its turn and all steps keep holds at the end of the run. -/
theorem run_of_turn {tradingDate : ℤ} {signal : Signal} (h : RunInvariant B config P P)
    (hturn : TurnOf B config w₀ tradingDate signal w)
    (hentry : wp (executeSignal B config tradingDate signal) (fun _ w' => P w') (fun _ w' => P w') w) :
    wp (run B config) (fun r w' => P w' ∧ r.trades = w'.engine.trades) (fun _ _ => False) w₀ := by
  obtain ⟨earlier, later, k, rest, hsymbols, hdates, hrun⟩ := hturn
  have hpre : wp (runToTurn B config earlier tradingDate k) (fun rest' w' => rest' = signal :: rest ∧ w' = w)
      (fun _ _ => False) w₀ := by
    rw [wp_eq_of_ok hrun]
    exact ⟨rfl, rfl⟩
  have hsteps : loopSteps B config (tradingDates B config) = loopSteps B config earlier ++
      (daySteps B config tradingDate ++ loopSteps B config later) := by
    rw [hdates]
    unfold loopSteps
    rw [List.flatMap_append, List.flatMap_cons]
  have hbody : wp (runBody B config) (fun r w' => P w' ∧ r.trades = w'.engine.trades) (fun _ w' => P w') w₀ := by
    unfold runToTurn at hpre
    rw [wp_bind] at hpre
    unfold runBody
    rw [wp_bind]
    refine wp_mono hpre (fun _ w₁ h₁ => ?_) fun _ _ h => h.elim
    cases hlast : (tradingDates B config).getLast? with
    | none =>
      rw [List.getLast?_eq_none_iff.1 hlast] at hdates
      exact absurd hdates (by simp)
    | some lastDate =>
      dsimp only
      rw [if_neg hsymbols, wp_bind, hsteps, wp_runAll_append]
      rw [wp_bind] at h₁
      refine wp_mono h₁ (fun _ w₂ h₂ => ?_) fun _ _ h => h.elim
      rw [wp_runAll_append]
      unfold daySteps
      rw [wp_runAll_cons]
      rw [wp_bind] at h₂
      refine wp_mono h₂ (fun _ w₃ h₃ => ?_) fun _ _ h => h.elim
      rw [wp_runAll_cons]
      rw [wp_bind] at h₃
      refine wp_mono h₃ (fun _ w₄ h₄ => ?_) fun _ _ h => h.elim
      rw [wp_runAll_cons]
      unfold executePendingSignals
      rw [wp_bind, wp_get, wp_bind, wp_modifyEngine] at h₄ ⊢
      -- the signals before the turn, that of the turn, and those after it
      rw [← List.take_append_drop k w₄.engine.pendingSignals, List.forM_eq_forM, List.forM_append, wp_bind,
        ← List.forM_eq_forM]
      rw [wp_bind] at h₄
      refine wp_mono h₄ (fun _ w₅ h₅ => ?_) fun _ _ h => h.elim
      obtain ⟨hrest, rfl⟩ := h₅
      rw [hrest, List.forM_eq_forM, List.forM_cons, wp_bind]
      refine wp_mono hentry (fun _ w₆ h₆ => ?_) fun _ _ h => h
      refine wp_mono (h.entries tradingDate rest h₆) (fun _ w₇ h₇ => ?_) fun _ _ h => h
      rw [wp_runAll_cons]
      refine wp_mono (h.generate tradingDate w₇ h₇) (fun _ w₈ h₈ => ?_) fun _ _ h => h
      rw [wp_runAll_cons]
      refine wp_mono (h.snapshot tradingDate w₈ h₈) (fun _ w₉ h₉ => ?_) fun _ _ h => h
      have hnil : runAll [] = pure ⟨⟩ := rfl
      rw [hnil, wp_pure]
      refine wp_mono (h.runAll (fun _ hx => hx) h₉) (fun _ w₁₀ h₁₀ => ?_) fun _ _ h => h
      exact finish_keeps B config h.exit lastDate h₁₀
  unfold run
  rw [wp_tryCatch]
  exact wp_mono hbody (fun _ _ h => h) fun _ _ h => ⟨h, rfl⟩

end BacktestEngine

end TradingAgent
