/-
What the BUY orders of a day can depend on. Two price histories agree until the open of a day when
they have the same bars before it and the same opens on it. Up to that day two runs are the same. On
the day itself the exits and the revaluation read its closes before the entries are sized, so the
entries are the same when the histories also agree on the closes of what is held, or when nothing
can be bought.
-/
import TradingAgent.Backtest.Frame
import TradingAgent.Lib.Agree

namespace TradingAgent

open Wp

/-! ## Histories that agree until an open -/

namespace HistoricalDataLoader

/-- The same bars before the day and the same opens on it. -/
structure SameUntilOpen (L L' : HistoricalDataLoader) (day : ℤ) : Prop where
  before : L.rows.filter (fun r => r.date < day) = L'.rows.filter (fun r => r.date < day)
  opens : ∀ symbol, L.getOpenPrice symbol day = L'.getOpenPrice symbol day

variable {L L' : HistoricalDataLoader} {day : ℤ}

theorem getOhlcv_eq_find_before (L : HistoricalDataLoader) {d : ℤ} (hd : d < day) (symbol : String) :
    L.getOhlcv symbol d =
      (L.rows.filter (fun r => r.date < day)).find? (fun r => r.symbol = symbol ∧ r.date = d) := by
  unfold getOhlcv
  rw [List.find?_filter]
  congr 1
  funext r
  by_cases h : r.date = d
  · simp [h, hd]
  · simp [h]

theorem SameUntilOpen.getOhlcv (h : SameUntilOpen L L' day) {d : ℤ} (hd : d < day) (symbol : String) :
    L.getOhlcv symbol d = L'.getOhlcv symbol d := by
  rw [L.getOhlcv_eq_find_before hd, L'.getOhlcv_eq_find_before hd, h.before]

theorem SameUntilOpen.getClosePrice (h : SameUntilOpen L L' day) {d : ℤ} (hd : d < day)
    (symbol : String) : L.getClosePrice symbol d = L'.getClosePrice symbol d := by
  unfold HistoricalDataLoader.getClosePrice; rw [h.getOhlcv hd]

theorem SameUntilOpen.getOpenPrice (h : SameUntilOpen L L' day) {d : ℤ} (hd : d < day)
    (symbol : String) : L.getOpenPrice symbol d = L'.getOpenPrice symbol d := by
  unfold HistoricalDataLoader.getOpenPrice; rw [h.getOhlcv hd]

theorem SameUntilOpen.getOhlcvRange (h : SameUntilOpen L L' day) {d : ℤ} (hd : d < day)
    (symbol : String) (start : ℤ) :
    L.getOhlcvRange symbol start d = L'.getOhlcvRange symbol start d := by
  have hsub : ∀ M : HistoricalDataLoader, M.getOhlcvRange symbol start d =
      (M.rows.filter (fun r => r.date < day)).filter
        (fun r => r.symbol = symbol ∧ start ≤ r.date ∧ r.date ≤ d) := by
    intro M
    unfold HistoricalDataLoader.getOhlcvRange
    rw [List.filter_filter]
    congr 1
    funext r
    by_cases hr : r.date ≤ d
    · simp [hr, lt_of_le_of_lt hr hd]
    · simp [hr]
  rw [hsub L, hsub L', h.before]

theorem mem_tradingDates_before (L : HistoricalDataLoader) {d : ℤ} (hd : d < day) :
    d ∈ L.getTradingDates ↔ ∃ r ∈ L.rows.filter (fun r => r.date < day), r.date = d := by
  rw [mem_tradingDates]
  constructor
  · rintro ⟨r, hr, rfl⟩; exact ⟨r, List.mem_filter.2 ⟨hr, by simpa using hd⟩, rfl⟩
  · rintro ⟨r, hr, rfl⟩; exact ⟨r, (List.mem_filter.1 hr).1, rfl⟩

theorem SameUntilOpen.mem_tradingDates (h : SameUntilOpen L L' day) {d : ℤ} (hd : d ≤ day) :
    d ∈ L.getTradingDates ↔ d ∈ L'.getTradingDates := by
  rcases lt_or_eq_of_le hd with hlt | rfl
  · rw [mem_tradingDates_before L hlt, mem_tradingDates_before L' hlt, h.before]
  · have hopen : ∀ M : HistoricalDataLoader,
        d ∈ M.getTradingDates ↔ ∃ symbol, (M.getOpenPrice symbol d).isSome := by
      intro M
      rw [HistoricalDataLoader.mem_tradingDates]
      unfold HistoricalDataLoader.getOpenPrice HistoricalDataLoader.getOhlcv
      simp only [Option.isSome_map, List.find?_isSome, decide_eq_true_eq]
      constructor
      · rintro ⟨r, hr, hd⟩; exact ⟨r.symbol, r, hr, rfl, hd⟩
      · rintro ⟨_, r, hr, _, hd⟩; exact ⟨r, hr, hd⟩
    rw [hopen, hopen]
    simp only [h.opens]

/-- The trading dates before the day, and the first trading date once there is one. -/
theorem SameUntilOpen.tradingDates_before (h : SameUntilOpen L L' day) :
    L.getTradingDates.filter (fun d => d < day) = L'.getTradingDates.filter (fun d => d < day) := by
  refine List.Perm.eq_of_pairwise (fun a b _ _ (hab : a < b) (hba : b < a) => absurd hab hba.asymm)
    (L.pairwise_lt_tradingDates.filter _) (L'.pairwise_lt_tradingDates.filter _) ?_
  have hnodup : ∀ M : HistoricalDataLoader, M.getTradingDates.Nodup := fun M => List.nodup_dedup _
  rw [List.perm_ext_iff_of_nodup ((hnodup L).filter _) ((hnodup L').filter _)]
  intro d
  simp only [List.mem_filter, decide_eq_true_eq]
  constructor
  · rintro ⟨hm, hd⟩; exact ⟨(h.mem_tradingDates hd.le).1 hm, hd⟩
  · rintro ⟨hm, hd⟩; exact ⟨(h.mem_tradingDates hd.le).2 hm, hd⟩

end HistoricalDataLoader

/-! ## Steps that read the same prices -/

namespace SimulatedBroker

variable {L L' : HistoricalDataLoader} (cfg : BrokerConfig)

/-- An order fills alike where the opens of its symbol agree on the broker's date. -/
theorem placeOrder_congr {order : OrderRequest} {b : SimulatedBroker} {d : ℤ}
    (hd : b.currentDate = some d)
    (hopen : order.orderType = .market → L.getOpenPrice order.symbol d = L'.getOpenPrice order.symbol d) :
    placeOrder L cfg order b = placeOrder L' cfg order b := by
  have hfill : getFillPrice L order d = getFillPrice L' order d := by
    unfold getFillPrice
    cases htype : order.orderType with
    | market => dsimp only; rw [hopen htype]
    | limit => rfl
  have hdate : ensureDateSet b = .ok d b := by
    unfold ensureDateSet
    rw [get_bind_apply, hd]; rfl
  unfold placeOrder
  rw [bind_apply, bind_apply, hdate]
  dsimp only
  rw [hfill]

/-- A day starts alike where the closes of the open positions agree. -/
theorem mapValues_revalue_congr {b : SimulatedBroker} {d : ℤ}
    (h : ∀ s, (b.openPosition s).isSome → L.getClosePrice s d = L'.getClosePrice s d) :
    b.positions.mapValues (revalue L d) = b.positions.mapValues (revalue L' d) := by
  apply Dict.eq_of_items
  refine List.map_congr_left fun e he => ?_
  have hget : b.positions.get? e.1 = some e.2 := (Dict.mem_items_iff _ _ _).1 he
  unfold revalue
  split
  · rfl
  · rename_i hq
    have hopen : (b.openPosition e.1).isSome := by
      unfold openPosition; rw [hget]; simp [not_le.1 hq]
    rw [h e.1 hopen]

end SimulatedBroker

namespace BacktestEngine

/-- The same bench over another price history. -/
def withLoader (B : Bench) (L' : HistoricalDataLoader) : Bench := { B with loader := L' }

variable (B : Bench) (L' : HistoricalDataLoader) (config : BacktestConfig) {d : ℤ} {w : Backtest}

theorem startDay_congr
    (h : ∀ s, (w.broker.openPosition s).isSome → B.loader.getClosePrice s d = L'.getClosePrice s d) :
    startDay B d w = startDay (withLoader B L') d w := by
  unfold startDay
  rw [bind_apply, bind_apply]
  show onBroker (SimulatedBroker.setCurrentDate B.loader d) _ =
    onBroker (SimulatedBroker.setCurrentDate L' d) _
  have hset : ∀ L : HistoricalDataLoader, SimulatedBroker.setCurrentDate L d w.broker = .ok ⟨⟩
      { w.broker with
        currentDate := some d, positions := w.broker.positions.mapValues (SimulatedBroker.revalue L d) } :=
    fun _ => rfl
  unfold onBroker
  dsimp only
  rw [hset, hset, SimulatedBroker.mapValues_revalue_congr h]

theorem onBroker_congr {α : Type} {x y : SimulatedBroker.M α} (h : x w.broker = y w.broker) :
    onBroker x w = onBroker y w := by unfold onBroker; rw [h]

theorem executeExit_congr {symbol : String} {reason : String} {d' : ℤ}
    (hd : w.broker.currentDate = some d') (h : B.loader.getClosePrice symbol d = L'.getClosePrice symbol d) :
    executeExit B symbol d reason w = executeExit (withLoader B L') symbol d reason w := by
  unfold executeExit
  rw [get_bind_apply, get_bind_apply]
  cases w.engine.positions.get? symbol with
  | none => rfl
  | some pos =>
    dsimp only [withLoader]
    rw [h]
    cases L'.getClosePrice symbol d with
    | none => rfl
    | some close =>
      dsimp only
      cases hmake : OrderRequest.make? symbol .sell .limit pos.quantity (some close)
          ("backtest_exit_" ++ reason) with
      | none => rfl
      | some order =>
        refine bind_congr_left (onBroker_congr (SimulatedBroker.placeOrder_congr _ hd fun hm => ?_))
        rw [(make?_eq_some hmake).2.2.1] at hm
        cases hm

theorem collectExits_congr : ∀ {items : List (String × PositionRecord)},
    (∀ e ∈ items, B.loader.getClosePrice e.1 d = L'.getClosePrice e.1 d) →
    collectExits B config d items = collectExits (withLoader B L') config d items
  | [], _ => rfl
  | (symbol, pos) :: items, h => by
    have hcheck : checkExit B config d symbol pos = checkExit (withLoader B L') config d symbol pos := by
      unfold checkExit
      rw [h (symbol, pos) (List.mem_cons_self ..)]
      rfl
    unfold collectExits
    rw [hcheck, collectExits_congr fun e he => h e (List.mem_cons_of_mem _ he)]

/-- Only symbols of the list are found. -/
theorem collectExits_mem : ∀ (items : List (String × PositionRecord)) (w : Backtest),
    wp (collectExits B config d items) (fun found _ => ∀ e ∈ found, e.1 ∈ items.map Prod.fst)
      (fun _ _ => True) w
  | [], _ => by intro e he; cases he
  | (symbol, pos) :: items, w => by
    have hcheck : wp (checkExit B config d symbol pos)
        (fun found _ => ∀ e ∈ found, e.1 = symbol) (fun _ _ => True) w := by
      unfold checkExit
      split
      · intro e he; cases he
      · rw [wp_ite]
        split
        · trivial
        · dsimp only
          rw [wp_bind, wp_get, wp_bind, wp_modifyEngine, wp_bind]
          refine wp_mono (keeps_liftExcept (I := fun _ => True) _ _ trivial) (fun signal _ _ => ?_)
            (fun _ _ _ => trivial)
          rw [wp_pure]
          intro e he
          obtain ⟨s, -, rfl⟩ := Option.map_eq_some_iff.1 he
          rfl
    unfold collectExits
    rw [wp_bind]
    refine wp_mono hcheck (fun found w' hfound => ?_) (fun _ _ _ => trivial)
    rw [wp_bind]
    refine wp_mono (collectExits_mem items w') (fun rest _ hrest => ?_) (fun _ _ _ => trivial)
    intro e he
    rw [List.map_cons, List.mem_cons]
    rcases List.mem_append.1 he with he | he
    · exact .inl (hfound e (Option.mem_toList.1 he))
    · exact .inr (hrest e he)

theorem checkExits_congr {d' : ℤ} (hd : w.broker.currentDate = some d')
    (h : ∀ s, w.engine.positions.contains s = true →
      B.loader.getClosePrice s d = L'.getClosePrice s d) :
    checkExits B config d w = checkExits (withLoader B L') config d w := by
  have hitems : ∀ e ∈ w.engine.positions.items,
      B.loader.getClosePrice e.1 d = L'.getClosePrice e.1 d := fun e he =>
    h e.1 ((Dict.contains_iff _ _).2 ⟨e.2, (Dict.mem_items_iff _ _ _).1 he⟩)
  have hagree : Agree (fun w' => w' = w)
      (collectExits B config d w.engine.positions.items)
      (collectExits (withLoader B L') config d w.engine.positions.items)
      (fun found w' => (∀ e ∈ found, B.loader.getClosePrice e.1 d = L'.getClosePrice e.1 d) ∧
        w'.broker.currentDate = some d') := by
    refine agree_of_eq (collectExits_congr B L' config hitems) fun w' hw' => ?_
    rw [hw']
    have hkeep := keeps_collectExits (I := fun w' => w'.broker.currentDate = some d') B config
      (fun _ _ h => h) d w.engine.positions.items w hd
    refine wp_mono (wp_and (collectExits_mem B config _ w) hkeep) (fun found w' hf => ⟨fun e he => ?_, hf.2⟩)
      (fun _ _ _ => trivial)
    obtain ⟨e', he', heq⟩ := List.mem_map.1 (hf.1 e he)
    rw [← heq]; exact hitems e' he'
  have hrest : ∀ found : List (String × String), Agree
      (fun w' => (∀ e ∈ found, B.loader.getClosePrice e.1 d = L'.getClosePrice e.1 d) ∧
        w'.broker.currentDate = some d')
      (found.forM (fun e => executeExit B e.1 d e.2))
      (found.forM (fun e => executeExit (withLoader B L') e.1 d e.2)) (fun _ _ => True) := by
    rintro found w' ⟨hf, hd'⟩
    refine ⟨((agree_forM (P := fun w' => w'.broker.currentDate = some d') fun e he w'' hw'' => ?_) w' hd').1,
      wp_true _ _⟩
    exact ⟨executeExit_congr B L' hw'' (hf e he), wp_mono (keeps_executeExit B (date_orderStable B _ _)
      (date_pendingOnly _).offTrading e.1 d e.2 w'' hw'') (fun _ _ h => h) (fun _ _ _ => trivial)⟩
  unfold checkExits
  rw [bind_apply, bind_apply]
  exact ((agree_bind hagree hrest) w rfl).1

theorem executeSignal_congr (hd : w.broker.currentDate = some d) {signal : Signal}
    (hopen : ∀ s, B.loader.getOpenPrice s d = L'.getOpenPrice s d) :
    executeSignal B config d signal w = executeSignal (withLoader B L') config d signal w := by
  unfold executeSignal
  split
  · rfl
  rw [get_bind_apply, get_bind_apply]
  split
  · rfl
  rw [show (withLoader B L').loader.getOpenPrice signal.symbol d = B.loader.getOpenPrice signal.symbol d
    from (hopen signal.symbol).symm]
  cases B.loader.getOpenPrice signal.symbol d with
  | none => rfl
  | some openPrice =>
    dsimp only
    rw [get_bind_apply, get_bind_apply,
      show riskCheck (withLoader B L') w signal.symbol signal.quantity openPrice =
        riskCheck B w signal.symbol signal.quantity openPrice from rfl]
    cases riskCheck B w signal.symbol signal.quantity openPrice with
    | none => rfl
    | some qty =>
      dsimp only
      cases hmake : OrderRequest.make? signal.symbol .buy .market qty none "backtest_entry" with
      | none => rfl
      | some order =>
        refine bind_congr_left (tryCatch_congr (map_congr (onBroker_congr ?_)))
        exact SimulatedBroker.placeOrder_congr _ hd fun _ => hopen _

theorem executePendingSignals_congr (hd : w.broker.currentDate = some d)
    (hopen : ∀ s, B.loader.getOpenPrice s d = L'.getOpenPrice s d) :
    executePendingSignals B config d w = executePendingSignals (withLoader B L') config d w := by
  unfold executePendingSignals
  rw [get_bind_apply, get_bind_apply, bind_apply, bind_apply]
  refine ((agree_forM (P := fun w' => w'.broker.currentDate = some d) fun signal _ w' hw' => ?_) _ hd).1
  exact ⟨executeSignal_congr B L' config hw' hopen, wp_mono (keeps_executeSignal B config
    (date_orderStable B _ _) (date_pendingOnly _).offTrading d signal w' hw') (fun _ _ h => h) (fun _ _ _ => trivial)⟩

/-- Signals are raised alike where the closes and the histories agree. -/
theorem generateSignals_congr (hclose : ∀ s, B.loader.getClosePrice s d = L'.getClosePrice s d)
    (hhist : ∀ s, history B s d = history (withLoader B L') s d) :
    generateSignals B config d = generateSignals (withLoader B L') config d := by
  have hclose' : ∀ s, (withLoader B L').loader.getClosePrice s d = B.loader.getClosePrice s d :=
    fun s => (hclose s).symm
  have hpos : generatePositionSignals B config d = generatePositionSignals (withLoader B L') config d := by
    unfold generatePositionSignals tryPositionSignal
    simp only [hclose', ← hhist]
    rfl
  have hswing : generateSwingSignals B config d = generateSwingSignals (withLoader B L') config d := by
    unfold generateSwingSignals trySwingSignal
    simp only [hclose', ← hhist]
    rfl
  have hprices : ∀ s p, replayExitPrices B config s d p = replayExitPrices (withLoader B L') config s d p := by
    intro s p
    unfold replayExitPrices computeAtr
    simp only [← hhist]
    rfl
  have hreplay : generateReplaySignals B config d = generateReplaySignals (withLoader B L') config d := by
    unfold generateReplaySignals tryReplaySignal
    simp only [hclose', ← hprices]
    rfl
  unfold generateSignals
  rw [hpos, hswing, hreplay]

theorem recordSnapshot_congr (hclose : ∀ s, B.loader.getClosePrice s d = L'.getClosePrice s d) :
    recordSnapshot B d = recordSnapshot (withLoader B L') d := by
  have hclose' : ∀ s, (withLoader B L').loader.getClosePrice s d = B.loader.getClosePrice s d :=
    fun s => (hclose s).symm
  unfold recordSnapshot unrealizedPnl
  simp only [hclose']

/-! ## The days before -/

theorem history_congr {day : ℤ} (h : B.loader.SameUntilOpen L' day) (hd : d < day)
    (hmem : d ∈ B.loader.getTradingDates) (s : String) :
    history B s d = history (withLoader B L') s d := by
  -- the first trading date is before the day, so it is the same in both
  have hhead : ∀ M : HistoricalDataLoader, d ∈ M.getTradingDates →
      M.getTradingDates.head? = (M.getTradingDates.filter (fun x => x < day)).head? := by
    intro M hM
    have hsort := M.pairwise_lt_tradingDates
    cases hds : M.getTradingDates with
    | nil => rfl
    | cons x xs =>
      rw [hds] at hM hsort
      have hx : x < day := by
        rcases List.mem_cons.1 hM with rfl | hm
        · exact hd
        · exact ((List.pairwise_cons.1 hsort).1 d hm).trans hd
      rw [List.filter_cons, if_pos (by simpa using hx)]; rfl
  unfold history
  rw [h.getOhlcvRange hd]
  show L'.getOhlcvRange s (B.loader.getTradingDates.head?.getD d) d =
    L'.getOhlcvRange s (L'.getTradingDates.head?.getD d) d
  rw [hhead B.loader hmem, hhead L' ((h.mem_tradingDates hd.le).1 hmem), h.tradingDates_before]

/-- A day before the day of the open is the same in both runs. -/
theorem day_congr {day : ℤ} (h : B.loader.SameUntilOpen L' day) (hd : d < day)
    (hmem : d ∈ B.loader.getTradingDates) (w : Backtest) :
    runAll (daySteps B config d) w = runAll (daySteps (withLoader B L') config d) w := by
  have hclose : ∀ s, B.loader.getClosePrice s d = L'.getClosePrice s d := h.getClosePrice hd
  have hgen := generateSignals_congr B L' config hclose (history_congr B L' h hd hmem)
  have hsnap := recordSnapshot_congr B L' hclose
  unfold runAll daySteps
  simp only [List.forM_eq_forM, List.forM_cons, List.forM_nil, id, hgen, hsnap]
  have hstart : Agree (fun w' => w' = w) (startDay B d) (startDay (withLoader B L') d)
      (fun _ w' => w'.broker.currentDate = some d) := by
    intro w' hw'
    exact ⟨startDay_congr B L' fun s _ => hclose s, rfl⟩
  have hexits : Agree (fun w' => w'.broker.currentDate = some d) (checkExits B config d)
      (checkExits (withLoader B L') config d) (fun _ w' => w'.broker.currentDate = some d) := by
    intro w' hw'
    exact ⟨checkExits_congr B L' config hw' fun s _ => hclose s, wp_mono (keeps_checkExits B config
      (date_orderStable B _ _) (date_pendingOnly _).offTrading d w' hw') (fun _ _ h => h) (fun _ _ _ => trivial)⟩
  have hentries : Agree (fun w' => w'.broker.currentDate = some d) (executePendingSignals B config d)
      (executePendingSignals (withLoader B L') config d) (fun _ _ => True) := by
    intro w' hw'
    exact ⟨executePendingSignals_congr B L' config hw' (h.getOpenPrice hd), wp_true _ _⟩
  exact ((agree_bind hstart fun _ => agree_bind hexits fun _ => agree_bind hentries fun _ =>
    agree_rfl (Q := fun _ _ => True) fun _ _ => wp_true _ _) w rfl).1

theorem days_congr {day : ℤ} (h : B.loader.SameUntilOpen L' day) : ∀ (dates : List ℤ) (w : Backtest),
    (∀ d ∈ dates, d < day ∧ d ∈ B.loader.getTradingDates) →
    runAll (loopSteps B config dates) w = runAll (loopSteps (withLoader B L') config dates) w
  | [], _, _ => rfl
  | d :: dates, w, hd => by
    unfold loopSteps
    rw [List.flatMap_cons, List.flatMap_cons, runAll_append, runAll_append]
    have hfirst : Agree (fun _ => True) (runAll (daySteps B config d))
        (runAll (daySteps (withLoader B L') config d)) (fun _ _ => True) := fun w _ =>
      ⟨day_congr B L' config h (hd d (List.mem_cons_self ..)).1 (hd d (List.mem_cons_self ..)).2 w,
        wp_true _ _⟩
    have hrest : Agree (fun _ => True) (runAll (loopSteps B config dates))
        (runAll (loopSteps (withLoader B L') config dates)) (fun _ _ => True) := fun w _ =>
      ⟨days_congr h dates w fun d' hd' => hd d' (List.mem_cons_of_mem _ hd'), wp_true _ _⟩
    exact ((agree_bind hfirst fun _ => hrest) w trivial).1

/-- The run up to the start of a day. -/
def runBefore (day : ℤ) : M PUnit := do
  prepare B config
  runAll (loopSteps B config ((tradingDates B config).filter (fun d => d < day)))

theorem tradingDates_before_congr {day : ℤ} (h : B.loader.SameUntilOpen L' day) :
    (tradingDates B config).filter (fun d => d < day) =
      (tradingDates (withLoader B L') config).filter (fun d => d < day) := by
  unfold tradingDates
  rw [List.filter_comm, h.tradingDates_before, List.filter_comm]; rfl

theorem mem_tradingDates_congr {day : ℤ} (h : B.loader.SameUntilOpen L' day) :
    day ∈ tradingDates B config ↔ day ∈ tradingDates (withLoader B L') config := by
  unfold tradingDates
  rw [List.mem_filter, List.mem_filter, h.mem_tradingDates le_rfl]; rfl

/-- Two runs are the same up to the start of the day. -/
theorem runBefore_congr {day : ℤ} (h : B.loader.SameUntilOpen L' day) (w : Backtest) :
    runBefore B config day w = runBefore (withLoader B L') config day w := by
  unfold runBefore
  have hprep : prepare (withLoader B L') config = prepare B config := rfl
  rw [← tradingDates_before_congr B L' config h, bind_apply, bind_apply, hprep]
  cases prepare B config w with
  | error e w' => rfl
  | ok a w' =>
    refine days_congr B L' config h _ w' fun d hd => ?_
    obtain ⟨hm, hlt⟩ := List.mem_filter.1 hd
    exact ⟨by simpa using hlt, (List.mem_filter.1 hm).1⟩

/-! ## The BUY orders of a day -/

/-- The BUY orders that the broker executed on a day: symbol, quantity and fill price, in order. -/
def buyOrders (w : Backtest) (day : ℤ) : List (String × ℤ × Option Decimal) :=
  (w.broker.orders.filter (fun r => r.side = .buy ∧ r.timestamp = day)).map
    (fun r => (r.symbol, r.quantity, r.filledPrice))

/-- The state in which a program ends. -/
def endState {α : Type} (x : M α) (w : Backtest) : Backtest :=
  match x w with
  | .ok _ w' => w'
  | .error _ w' => w'

variable {day : ℤ} {X : List (String × ℤ × Option Decimal)}

theorem buyOrders_append {b b' : SimulatedBroker} {r : OrderResult} {e e' : BacktestEngine}
    (ho : b'.orders = b.orders ++ [r]) (hr : ¬ (r.side = .buy ∧ r.timestamp = day)) :
    buyOrders ⟨e', b'⟩ day = buyOrders ⟨e, b⟩ day := by
  unfold buyOrders
  rw [ho, List.filter_append, List.filter_cons, if_neg (by simpa using hr), List.filter_nil,
    List.append_nil]

theorem buys_sellStable : OrderStable B .sell (fun w => buyOrders w day = X) := by
  intro w order r b' d base hside hw hf
  refine (buyOrders_append hf.orders ?_).trans hw
  rw [hf.reported.2.1, hside]
  rintro ⟨h, -⟩; cases h

theorem buys_pendingOnly : PendingOnly (fun w => buyOrders w day = X) := fun _ _ _ h => h

/-- On another day no order counts. -/
theorem buys_otherDay (hd : d ≠ day) (side : OrderSide) :
    OrderStable B side (fun w => w.broker.currentDate = some d ∧ buyOrders w day = X) := by
  rintro w order r b' d' base - ⟨hdate, hw⟩ hf
  refine ⟨hf.sameDate.trans hdate, (buyOrders_append hf.orders ?_).trans hw⟩
  rw [hf.reported.2.2.2, Option.some.inj (hf.date.symm.trans hdate)]
  exact fun h => hd h.2

/-- A step that keeps the date and the orders of the day, in the weaker form used along a run. -/
theorem keeps_buys_of_date {x : M PUnit}
    (hx : Keeps (fun w => w.broker.currentDate = some d ∧ buyOrders w day = X) x) {w : Backtest}
    {Q : PUnit → Backtest → Prop} (hw : w.broker.currentDate = some d ∧ buyOrders w day = X)
    (hQ : ∀ w', w'.broker.currentDate = some d ∧ buyOrders w' day = X → Q ⟨⟩ w') :
    wp x Q (fun _ w' => buyOrders w' day = X) w :=
  wp_mono (hx w hw) (fun _ w' h => hQ w' h) (fun _ _ h => h.2)

/-- The exits of any day and the signals and the snapshot after its entries add no BUY order. -/
theorem keeps_afterEntries : Keeps (fun w => buyOrders w day = X)
    (runAll [generateSignals B config d, recordSnapshot B d]) := by
  unfold runAll
  exact keeps_forM fun x hx => by
    simp only [List.mem_cons, List.not_mem_nil, or_false] at hx
    rcases hx with rfl | rfl
    · exact keeps_generateSignals B config (fun _ _ h => h) d
    · exact keeps_recordSnapshot B (fun _ _ _ _ h => h) d

theorem startDay_buys (hw : buyOrders w day = X) :
    wp (startDay B d) (fun _ w' => w'.broker.currentDate = some d ∧ buyOrders w' day = X)
      (fun _ w' => buyOrders w' day = X) w := by
  unfold startDay
  rw [wp_bind, wp_modifyEngine, wp_onBroker]
  exact ⟨rfl, hw⟩

/-- Any other day adds none. -/
theorem keeps_otherDay (hd : d ≠ day) :
    Keeps (fun w => buyOrders w day = X) (runAll (daySteps B config d)) := by
  intro w hw
  have hpend : PendingOnly (fun w => w.broker.currentDate = some d ∧ buyOrders w day = X) :=
    fun _ _ _ h => h
  have hentries : Keeps (fun w => w.broker.currentDate = some d ∧ buyOrders w day = X)
      (executePendingSignals B config d) := by
    unfold executePendingSignals
    exact keeps_bind keeps_get fun _ => keeps_bind (keeps_modify fun _ h => h) fun _ =>
      keeps_forM fun s _ => keeps_executeSignal B config (buys_otherDay B hd .buy) hpend.offTrading d s
  unfold daySteps
  rw [wp_runAll_cons]
  refine wp_mono (startDay_buys B hw) (fun _ w₁ h₁ => ?_) (fun _ _ h => h)
  rw [wp_runAll_cons]
  refine keeps_buys_of_date (keeps_checkExits B config (buys_otherDay B hd .sell) hpend.offTrading d) h₁
    fun w₂ h₂ => ?_
  rw [wp_runAll_cons]
  refine keeps_buys_of_date hentries h₂ fun w₃ h₃ => ?_
  exact keeps_afterEntries B config w₃ h₃.2

theorem keeps_otherDays : ∀ {dates : List ℤ}, (∀ d ∈ dates, d ≠ day) →
    Keeps (fun w => buyOrders w day = X) (runAll (loopSteps B config dates))
  | [], _ => fun _ h => h
  | d :: dates, hd => by
    unfold loopSteps
    rw [List.flatMap_cons, runAll_append]
    exact keeps_bind (keeps_otherDay B config (hd d (List.mem_cons_self ..))) fun _ =>
      keeps_otherDays fun d' hd' => hd d' (List.mem_cons_of_mem _ hd')

theorem keeps_finish (lastDate : ℤ) : Keeps (fun w => buyOrders w day = X) (finish B config lastDate) := by
  have hclose : Keeps (fun w => buyOrders w day = X) (forceCloseAll B lastDate) := by
    unfold forceCloseAll
    exact keeps_bind keeps_get fun _ => keeps_forM fun s _ =>
      keeps_executeExit B (buys_sellStable B) buys_pendingOnly.offTrading s lastDate "backtest_end"
  have hmetrics : Keeps (fun w => buyOrders w day = X) (calculateMetrics B config) := by
    unfold calculateMetrics
    refine keeps_bind keeps_get fun _ => ?_
    dsimp only
    split
    · exact keeps_pure _
    · exact keeps_map _ (keeps_liftExcept _)
  unfold finish
  refine keeps_bind keeps_get fun _ => ?_
  split
  · exact keeps_bind hclose fun _ => keeps_bind hmetrics fun _ => keeps_bind keeps_get fun _ =>
      keeps_pure _
  · exact keeps_bind hmetrics fun _ => keeps_bind keeps_get fun _ => keeps_pure _

theorem keeps_prepare : Keeps (fun w => buyOrders w day = X) (prepare B config) := by
  unfold prepare
  refine keeps_bind (keeps_modify fun _ h => h) fun _ => ?_
  cases config.mode with
  | technical => exact keeps_pure _
  | llmLive => exact keeps_pure _
  | llmReplay =>
    cases B.sessionFactory with
    | none => exact keeps_throw _
    | some rows => exact keeps_modify fun _ h => h

/-- The orders a run ends with are those its body ends with. -/
theorem buyOrders_run (h : wp (runBody B config) (fun _ w' => buyOrders w' day = X)
    (fun _ w' => buyOrders w' day = X) w) : buyOrders (endState (run B config) w) day = X := by
  have hrun : wp (run B config) (fun _ w' => buyOrders w' day = X) (fun _ w' => buyOrders w' day = X) w := by
    unfold run
    rw [wp_tryCatch]
    exact wp_mono h (fun _ _ h => h) (fun _ _ h => h)
  unfold wp at hrun
  unfold endState
  split at hrun <;> simp_all

/-! ## The day of the open -/

/-- A sorted list of days around one of them. -/
theorem split_at_day : ∀ {dates : List ℤ}, dates.Pairwise (· < ·) → day ∈ dates →
    dates = dates.filter (fun d => d < day) ++ day :: dates.filter (fun d => day < d)
  | [], _, h => by cases h
  | d :: dates, hs, h => by
    obtain ⟨hlt, hs'⟩ := List.pairwise_cons.1 hs
    rcases List.mem_cons.1 h with rfl | hm
    · have h1 : dates.filter (fun x => x < day) = [] :=
        List.filter_eq_nil_iff.2 fun x hx => by simpa using (hlt x hx).le
      have h2 : dates.filter (fun x => day < x) = dates :=
        List.filter_eq_self.2 fun x hx => by simpa using hlt x hx
      rw [List.filter_cons, List.filter_cons, if_neg (by simp), if_neg (by simp), h1, h2]; rfl
    · have hd : d < day := hlt day hm
      rw [List.filter_cons, List.filter_cons, if_pos (by simpa using hd),
        if_neg (by simpa using hd.le), List.cons_append, ← split_at_day hs' hm]

theorem pairwise_tradingDates : (tradingDates B config).Pairwise (· < ·) :=
  B.loader.pairwise_lt_tradingDates.filter _

/-- Nothing on the day can pass its closes on to its entries: the two histories agree on its close of
every symbol that the engine or the broker holds when the day starts, or no pending BUY has an open
price on it. -/
def Unexposed (day : ℤ) (w : Backtest) : Prop :=
  (∀ s, (w.engine.positions.contains s = true ∨ (w.broker.openPosition s).isSome) →
    B.loader.getClosePrice s day = L'.getClosePrice s day) ∨
  ∀ signal ∈ w.engine.pendingSignals, signal.action = .buy →
    B.loader.getOpenPrice signal.symbol day = none

/-- The orders that the day adds to those of a state, up to the end of its entries. -/
def entriesOf (day : ℤ) : M PUnit := runAll ((daySteps B config day).take 3)

theorem entriesOf_congr (hopen : ∀ s, B.loader.getOpenPrice s day = L'.getOpenPrice s day)
    (hclose : ∀ s, (w.engine.positions.contains s = true ∨ (w.broker.openPosition s).isSome) →
      B.loader.getClosePrice s day = L'.getClosePrice s day) :
    entriesOf B config day w = entriesOf (withLoader B L') config day w := by
  have hstart : Agree (fun w' => w' = w) (startDay B day) (startDay (withLoader B L') day)
      (fun _ w' => w'.broker.currentDate = some day ∧ w'.engine.positions = w.engine.positions) := by
    intro w' hw'
    rw [hw']
    exact ⟨startDay_congr B L' fun s hs => hclose s (.inr hs), rfl, rfl⟩
  have hexits : Agree
      (fun w' => w'.broker.currentDate = some day ∧ w'.engine.positions = w.engine.positions)
      (checkExits B config day) (checkExits (withLoader B L') config day)
      (fun _ w' => w'.broker.currentDate = some day) := by
    rintro w' ⟨hd, hp⟩
    exact ⟨checkExits_congr B L' config hd fun s hs => hclose s (.inl (hp ▸ hs)),
      wp_mono (keeps_checkExits B config (date_orderStable B _ _) (date_pendingOnly _).offTrading day w' hd)
        (fun _ _ h => h) (fun _ _ _ => trivial)⟩
  have hentries : Agree (fun w' => w'.broker.currentDate = some day) (executePendingSignals B config day)
      (executePendingSignals (withLoader B L') config day) (fun _ _ => True) := fun w' hw' =>
    ⟨executePendingSignals_congr B L' config hw' hopen, wp_true _ _⟩
  unfold entriesOf runAll daySteps
  simp only [List.take_succ_cons, List.take_zero, List.forM_eq_forM, List.forM_cons, List.forM_nil, id]
  exact ((agree_bind hstart fun _ => agree_bind hexits fun _ => agree_bind hentries fun _ =>
    agree_rfl (Q := fun _ _ => True) fun _ _ => wp_true _ _) w rfl).1

/-- Without an open price for any pending BUY the day adds no BUY order. -/
theorem entriesOf_none (hnone : ∀ signal ∈ w.engine.pendingSignals, signal.action = .buy →
    B.loader.getOpenPrice signal.symbol day = none) (hw : buyOrders w day = X) :
    wp (entriesOf B config day) (fun _ w' => buyOrders w' day = X) (fun _ w' => buyOrders w' day = X) w := by
  unfold entriesOf daySteps
  simp only [List.take_succ_cons, List.take_zero]
  rw [wp_runAll_cons]
  have hstart : wp (startDay B day) (fun _ w' => w'.engine.pendingSignals = w.engine.pendingSignals ∧
      buyOrders w' day = X) (fun _ w' => buyOrders w' day = X) w := by
    unfold startDay
    rw [wp_bind, wp_modifyEngine, wp_onBroker]
    exact ⟨rfl, hw⟩
  refine wp_mono hstart (fun _ w₁ h₁ => ?_) (fun _ _ h => h)
  rw [wp_runAll_cons]
  have hstable : OrderStable B .sell (fun w' => w'.engine.pendingSignals = w.engine.pendingSignals ∧
      buyOrders w' day = X) := fun w' order r b' d base hs h hf =>
    ⟨h.1, buys_sellStable B w' order r b' d base hs h.2 hf⟩
  refine wp_mono (keeps_checkExits B config hstable (fun w' e' he _ _ h => ⟨he.trans h.1, h.2⟩) day w₁ h₁)
    (fun _ w₂ h₂ => ?_) (fun _ _ h => h.2)
  rw [wp_runAll_cons]
  unfold executePendingSignals
  rw [wp_bind, wp_get, wp_bind, wp_modifyEngine, h₂.1]
  refine keeps_forM (I := fun w' => buyOrders w' day = X) (fun signal hs => ?_) _ h₂.2
  unfold executeSignal
  split
  · exact keeps_pure _
  · rename_i hact
    refine keeps_bind keeps_get fun _ => ?_
    split
    · exact keeps_pure _
    · rw [hnone signal hs (not_not.1 hact)]
      exact keeps_pure _

/-- A run body whose day is a trading day: what is before it, the day up to its entries, the rest. -/
theorem wp_runBody (hsym : config.symbols ≠ []) (hday : day ∈ tradingDates B config)
    (h : wp (do runBefore B config day; entriesOf B config day) (fun _ w' => buyOrders w' day = X)
      (fun _ w' => buyOrders w' day = X) w) :
    wp (runBody B config) (fun _ w' => buyOrders w' day = X) (fun _ w' => buyOrders w' day = X) w := by
  have hsplit := split_at_day (pairwise_tradingDates B config) hday
  have hsteps : loopSteps B config (tradingDates B config) =
      loopSteps B config ((tradingDates B config).filter (fun d => d < day)) ++
        ((daySteps B config day).take 3 ++ ([generateSignals B config day, recordSnapshot B day] ++
          loopSteps B config ((tradingDates B config).filter (fun d => day < d)))) := by
    conv_lhs => rw [hsplit]
    unfold loopSteps
    rw [List.flatMap_append, List.flatMap_cons]; rfl
  have hafter : ∀ d ∈ (tradingDates B config).filter (fun d => day < d), d ≠ day := fun d hd =>
    (show day < d by simpa using (List.mem_filter.1 hd).2).ne'
  unfold runBody
  rw [wp_bind]
  unfold runBefore at h
  rw [bind_assoc, wp_bind] at h
  refine wp_mono h (fun _ w₁ h₁ => ?_) (fun _ _ h => h)
  cases hlast : (tradingDates B config).getLast? with
  | none => rw [List.getLast?_eq_none_iff] at hlast; rw [hlast] at hday; cases hday
  | some lastDate =>
    dsimp only
    rw [if_neg hsym, wp_bind, hsteps, wp_runAll_append]
    rw [wp_bind] at h₁
    refine wp_mono h₁ (fun _ w₂ h₂ => ?_) (fun _ _ h => h)
    rw [wp_runAll_append]
    refine wp_mono h₂ (fun _ w₃ h₃ => ?_) (fun _ _ h => h)
    rw [wp_runAll_append]
    refine wp_mono (keeps_afterEntries B config w₃ h₃) (fun _ w₄ h₄ => ?_) (fun _ _ h => h)
    refine wp_mono (keeps_otherDays B config hafter w₄ h₄) (fun _ w₅ h₅ => ?_) (fun _ _ h => h)
    exact keeps_finish B config lastDate w₅ h₅

/-- A run in which the day is no trading day, or without symbols, adds no BUY order on it. -/
theorem wp_runBody_other (hday : config.symbols = [] ∨ day ∉ tradingDates B config)
    (hw : buyOrders w day = X) :
    wp (runBody B config) (fun _ w' => buyOrders w' day = X) (fun _ w' => buyOrders w' day = X) w := by
  unfold runBody
  rw [wp_bind]
  refine wp_mono (keeps_prepare B config w hw) (fun _ w₁ h₁ => ?_) (fun _ _ h => h)
  cases hlast : (tradingDates B config).getLast? with
  | none => exact h₁
  | some lastDate =>
    dsimp only
    rw [wp_ite]
    split
    · exact h₁
    · rename_i hsym
      have hne : ∀ d ∈ tradingDates B config, d ≠ day := fun d hd heq =>
        (hday.resolve_left hsym) (heq ▸ hd)
      rw [wp_bind]
      refine wp_mono (keeps_otherDays B config hne w₁ h₁) (fun _ w₂ h₂ => ?_) (fun _ _ h => h)
      exact keeps_finish B config lastDate w₂ h₂

/-! ## Two runs -/

/-- Two histories that agree on all bars before a day and on its opens give the same BUY orders on it,
provided that nothing held when the day starts can pass its closes on to its entries. -/
theorem buyOrders_congr {day : ℤ} (h : B.loader.SameUntilOpen L' day) (w : Backtest)
    (hcond : ∀ w₁, runBefore B config day w = .ok ⟨⟩ w₁ → Unexposed B L' day w₁) :
    buyOrders (endState (run B config) w) day =
      buyOrders (endState (run (withLoader B L') config) w) day := by
  by_cases hother : config.symbols = [] ∨ day ∉ tradingDates B config
  · have hother' : config.symbols = [] ∨ day ∉ tradingDates (withLoader B L') config :=
      hother.imp_right fun hd hd' => hd ((mem_tradingDates_congr B L' config h).2 hd')
    rw [buyOrders_run B config (wp_runBody_other B config hother rfl),
      buyOrders_run (withLoader B L') config (wp_runBody_other (withLoader B L') config hother' rfl)]
  obtain ⟨hsym, hday⟩ := not_or.1 hother
  have hday : day ∈ tradingDates B config := not_not.1 hday
  have hday' := (mem_tradingDates_congr B L' config h).1 hday
  -- both runs do the same up to the end of the entries, or add no BUY order at all
  obtain ⟨X, hX, hX'⟩ : ∃ X,
      wp (do runBefore B config day; entriesOf B config day) (fun _ w' => buyOrders w' day = X)
        (fun _ w' => buyOrders w' day = X) w ∧
      wp (do runBefore (withLoader B L') config day; entriesOf (withLoader B L') config day)
        (fun _ w' => buyOrders w' day = X) (fun _ w' => buyOrders w' day = X) w := by
    have hbefore := runBefore_congr B L' config h w
    simp only [wp_bind]
    unfold wp
    rw [← hbefore]
    cases hrun : runBefore B config day w with
    | error e w₁ => exact ⟨buyOrders w₁ day, rfl, rfl⟩
    | ok a w₁ =>
      dsimp only
      rcases hcond w₁ hrun with hclose | hnone
      · have hentries := entriesOf_congr B L' config (w := w₁) h.opens hclose
        rw [← hentries]
        cases entriesOf B config day w₁ with
        | error e w₂ => exact ⟨buyOrders w₂ day, rfl, rfl⟩
        | ok a w₂ => exact ⟨buyOrders w₂ day, rfl, rfl⟩
      · refine ⟨buyOrders w₁ day, entriesOf_none B config hnone rfl,
          entriesOf_none (withLoader B L') config (fun signal hs ha => ?_) rfl⟩
        exact (h.opens signal.symbol).symm.trans (hnone signal hs ha)
  rw [buyOrders_run B config (wp_runBody B config hsym hday hX),
    buyOrders_run (withLoader B L') config (wp_runBody (withLoader B L') config hsym hday' hX')]

/-- A bar whose high and low span its open and close. -/
def bar (symbol : String) (date : ℤ) (openPrice close : Decimal) : DailyOHLCV :=
  { symbol, date, openPrice, high := max openPrice close, low := min openPrice close, close, volume := 10 }

/-- Three days of two symbols, with the closes of `A` on the second and the third day. -/
def threeDays (closeA₂ closeA₃ : Decimal) : List DailyOHLCV :=
  [bar "A" 1 1000 1000, bar "B" 1 500 500, bar "A" 2 1000 closeA₂, bar "B" 2 500 500,
   bar "A" 3 1000 closeA₃, bar "B" 3 500 500]

/-- The histories of the three days for two choices of the closes. -/
def threeDayLoader (closeA₂ closeA₃ : Decimal) : HistoricalDataLoader where
  rows := threeDays closeA₂ closeA₃
  sorted := by simp [threeDays, bar]
  unique := by
    show ([("A", 1), ("B", 1), ("A", 2), ("B", 2), ("A", 3), ("B", 3)] : List (String × ℤ)).Nodup
    decide

/-- `A` is decided on the first day and `B` on the second; one position may be held at a time. -/
def oneSlotBench (L : HistoricalDataLoader) : Bench :=
  replayBench L [buyDecision 1 "A" 1, buyDecision 2 "B" 2] { maxPortfolioPositions := 1 }

/-- Nothing is held when the second day starts: its BUY of `A` at 1001 won does not depend on its close. -/
theorem buyOrders_congr_second_day :
    let B := oneSlotBench (threeDayLoader 1000 1000)
    let L' := threeDayLoader 990 900
    let w : Backtest := ⟨{}, SimulatedBroker.new B.brokerConfig⟩
    buyOrders (endState (run B (replayConfig 1 3 ["A", "B"])) w) 2 = [("A", 1000, some 1001)] ∧
    buyOrders (endState (run (withLoader B L') (replayConfig 1 3 ["A", "B"])) w) 2 =
      [("A", 1000, some 1001)] := by
  intro B L' w
  have hsame : B.loader.SameUntilOpen L' 2 := ⟨by decide +kernel, fun s => by
    by_cases hA : "A" = s
    · subst hA; decide +kernel
    · by_cases hB : "B" = s
      · subst hB; decide +kernel
      · simp [HistoricalDataLoader.getOpenPrice, HistoricalDataLoader.getOhlcv, B, L', oneSlotBench,
          replayBench, threeDayLoader, threeDays, bar, hA, hB]⟩
  have hempty : (match runBefore B (replayConfig 1 3 ["A", "B"]) 2 w with
      | .ok _ w₁ => w₁.engine.positions.items.length + w₁.broker.positions.items.length
      | .error _ _ => 0) = 0 := by decide +kernel
  have h := buyOrders_congr B L' (replayConfig 1 3 ["A", "B"]) hsame w (fun w₁ hw₁ => .inl fun s hs => by
    rw [hw₁] at hempty
    have he := (Dict.items_eq_nil_iff _).1 (List.length_eq_zero_iff.1 (Nat.add_eq_zero_iff.1 hempty).1) s
    have hb := (Dict.items_eq_nil_iff _).1 (List.length_eq_zero_iff.1 (Nat.add_eq_zero_iff.1 hempty).2) s
    rcases hs with hs | hs
    · rw [(Dict.contains_eq_false_iff _ _).2 he] at hs; cases hs
    · unfold SimulatedBroker.openPosition at hs; rw [hb] at hs; cases hs)
  have hval : buyOrders (endState (run B (replayConfig 1 3 ["A", "B"])) w) 2 = [("A", 1000, some 1001)] := by
    decide +kernel
  exact ⟨hval, h.symm.trans hval⟩

/-- On the third day `A` is held. Its close of 900 won stops it out before the open is traded and
frees the slot for `B`; at a close of 1000 won `B` is not bought. -/
theorem close_decides_entries :
    let B := oneSlotBench (threeDayLoader 1000 1000)
    let L' := threeDayLoader 1000 900
    let w : Backtest := ⟨{}, SimulatedBroker.new B.brokerConfig⟩
    B.loader.SameUntilOpen L' 3 ∧
    buyOrders (endState (run B (replayConfig 1 3 ["A", "B"])) w) 3 = [] ∧
    buyOrders (endState (run (withLoader B L') (replayConfig 1 3 ["A", "B"])) w) 3 =
      [("B", 1979, some 501)] := by
  intro B L' w
  refine ⟨⟨by decide +kernel, fun s => ?_⟩, by decide +kernel, by decide +kernel⟩
  by_cases hA : "A" = s
  · subst hA; decide +kernel
  · by_cases hB : "B" = s
    · subst hB; decide +kernel
    · simp [HistoricalDataLoader.getOpenPrice, HistoricalDataLoader.getOhlcv, B, L', oneSlotBench,
        replayBench, threeDayLoader, threeDays, bar, hA, hB]

end BacktestEngine

end TradingAgent
