/-
The stored snapshots and the high-water mark. There is one row for each account and day, and a save writes
over the row of its day; the peak of an account is the largest total value among its rows. So the peak is
the running maximum of the saved states only as long as no save takes the largest total away.
-/
import TradingAgent.Strategy.Exit
import TradingAgent.Strategy.PortfolioState
import TradingAgent.Strategy.RiskManager
import Mathlib.Order.Bounds.Basic

namespace TradingAgent

/-- The table of the snapshots, by account and date, with the next free number. -/
structure SnapshotStore where
  rows : Dict (String × ℤ) PortfolioSnapshot := Dict.empty
  nextId : ℕ := 1

/-- The day of a time in UTC. -/
def utcDate (t : ℤ) : ℤ := t / 86400

namespace SnapshotStore

/-- The rows of an account. -/
def ofAccount (store : SnapshotStore) (accountId : String) : List PortfolioSnapshot :=
  (store.rows.items.filter (fun e => e.1.1 = accountId)).map Prod.snd

/-- Write the row of an account and day. An existing row keeps its number. -/
def upsert (store : SnapshotStore) (row : PortfolioSnapshot) : SnapshotStore :=
  let key := (row.accountId, row.snapshotDate)
  { rows := store.rows.set key { row with id := (store.rows.get? key).elim store.nextId (·.id) }
    nextId := store.nextId + 1 }

end SnapshotStore

namespace PortfolioStateService

/-- The largest stored total value of an account, zero if it has no rows. -/
def getPeakValue (store : SnapshotStore) (accountId : String) : Decimal :=
  ((store.ofAccount accountId).map (·.totalValue)).max?.getD 0

/-- The row of a state. Amounts have two decimals in the table, the drawdown four. -/
def snapshotOf (accountId : String) (state : PortfolioState) : PortfolioSnapshot :=
  { id := 0
    snapshotDate := utcDate state.timestamp
    totalValue := quantize2 state.totalValue
    cash := quantize2 state.cash
    invested := quantize2 state.invested
    unrealizedPnl := quantize2 state.unrealizedPnl
    realizedPnlDaily := 0
    peakValue := quantize2 state.peakValue
    drawdownPct := quantize4 state.drawdownPct
    positionsCount := state.positions.length
    tradeCountDaily := state.dailyTradeCount.toNat
    accountId }

def saveSnapshot (accountId : String) (store : SnapshotStore) (state : PortfolioState) : SnapshotStore :=
  store.upsert (snapshotOf accountId state)

/-- What the broker and the positions table say at a call. -/
structure Reading where
  balance : AccountBalance
  positions : List Position := []
  entriesToday : ℕ := 0
  now : ℤ

/-- The state of an account with the peak of its stored snapshots. -/
def currentState (master : StockMaster) (accountId : String) (store : SnapshotStore) (r : Reading) :
    PortfolioState :=
  getCurrentState master
    { accountId, balance := r.balance, positions := r.positions
      historicalPeak := getPeakValue store accountId, entriesToday := r.entriesToday } r.now

/-! ## Sequences of calls -/

/-- A call of the service: read the current state, or save one of the states read so far. -/
inductive Call
  | getCurrentState (r : Reading)
  | saveSnapshot (i : ℕ)

/-- The service with its table, the states it returned and those that were saved. -/
structure History where
  store : SnapshotStore := {}
  returned : List PortfolioState := []
  saved : List PortfolioState := []

section Calls

variable (master : StockMaster) (accountId : String)

def call (h : History) : Call → History
  | .getCurrentState r => { h with returned := h.returned ++ [currentState master accountId h.store r] }
  | .saveSnapshot i =>
    match h.returned[i]? with
    | none => h
    | some state =>
      { h with store := saveSnapshot accountId h.store state, saved := h.saved ++ [state] }

theorem call_saveSnapshot_none {h : History} {i : ℕ} (hi : h.returned[i]? = none) :
    call master accountId h (.saveSnapshot i) = h := by
  simp only [call, hi]

theorem call_saveSnapshot_some {h : History} {i : ℕ} {state : PortfolioState}
    (hi : h.returned[i]? = some state) :
    call master accountId h (.saveSnapshot i) =
      { h with store := saveSnapshot accountId h.store state, saved := h.saved ++ [state] } := by
  simp only [call, hi]

/-- The calls from an empty table on. -/
def calls (cs : List Call) : History := cs.foldl (call master accountId) {}

theorem calls_concat (cs : List Call) (c : Call) :
    calls master accountId (cs ++ [c]) = call master accountId (calls master accountId cs) c := by
  unfold calls
  rw [List.foldl_append, List.foldl_cons, List.foldl_nil]

end Calls

/-- The largest total value among the saved states, at least zero. -/
def highWater (saved : List PortfolioState) : Decimal := (saved.map (·.totalValue)).foldl max 0

theorem highWater_concat (saved : List PortfolioState) (state : PortfolioState) :
    highWater (saved ++ [state]) = max (highWater saved) state.totalValue := by
  unfold highWater
  rw [List.map_append, List.foldl_append, List.map_singleton, List.foldl_cons, List.foldl_nil]

/-! ## The peak of the rows -/

theorem mem_ofAccount_iff (store : SnapshotStore) (accountId : String) (row : PortfolioSnapshot) :
    row ∈ store.ofAccount accountId ↔ ∃ date, store.rows.get? (accountId, date) = some row := by
  unfold SnapshotStore.ofAccount
  rw [List.mem_map]
  constructor
  · rintro ⟨⟨⟨account, date⟩, row⟩, he, rfl⟩
    rw [List.mem_filter, decide_eq_true_eq, Dict.mem_items_iff] at he
    obtain ⟨hget, rfl⟩ := he
    exact ⟨date, hget⟩
  · rintro ⟨date, hget⟩
    refine ⟨((accountId, date), row), ?_, rfl⟩
    rw [List.mem_filter, decide_eq_true_eq, Dict.mem_items_iff]
    exact ⟨hget, rfl⟩

/-- The peak is the greatest total of the rows. -/
theorem isGreatest_getPeakValue {store : SnapshotStore} {accountId : String}
    (h : store.ofAccount accountId ≠ []) :
    IsGreatest {x | ∃ row ∈ store.ofAccount accountId, row.totalValue = x} (getPeakValue store accountId) := by
  unfold getPeakValue
  cases hmax : ((store.ofAccount accountId).map (·.totalValue)).max? with
  | none =>
    rw [List.max?_eq_none_iff, List.map_eq_nil_iff] at hmax
    exact absurd hmax h
  | some peak =>
    rw [List.max?_eq_some_iff] at hmax
    refine ⟨List.mem_map.1 hmax.1, ?_⟩
    rintro x ⟨row, hrow, rfl⟩
    exact hmax.2 _ (List.mem_map.2 ⟨row, hrow, rfl⟩)

theorem getPeakValue_of_nil {store : SnapshotStore} {accountId : String}
    (h : store.ofAccount accountId = []) : getPeakValue store accountId = 0 := by
  unfold getPeakValue
  rw [h]
  rfl

/-! ## What a save does to the peak -/

/-- A value stays covered by the rows when the state is saved: the written total or a row of another day
reaches it. -/
def Covered (accountId : String) (store : SnapshotStore) (state : PortfolioState) (x : Decimal) : Prop :=
  x ≤ quantize2 state.totalValue ∨
    ∃ date row, date ≠ utcDate state.timestamp ∧ store.rows.get? (accountId, date) = some row ∧
      x ≤ row.totalValue

/-- A save that loses no peak and invents none: the total of the row it writes over and the saved total stay
covered, rounding adds nothing above all rows, and a first row is not negative. -/
structure KeepsPeak (accountId : String) (store : SnapshotStore) (state : PortfolioState) : Prop where
  replaced : ∀ row, store.rows.get? (accountId, utcDate state.timestamp) = some row →
    Covered accountId store state row.totalValue
  saved : Covered accountId store state state.totalValue
  rounded : quantize2 state.totalValue ≤ state.totalValue ∨ quantize2 state.totalValue ≤ 0 ∨
    ∃ row ∈ store.ofAccount accountId, quantize2 state.totalValue ≤ row.totalValue
  first : store.ofAccount accountId = [] → 0 ≤ quantize2 state.totalValue

section Save

variable {accountId : String} {store : SnapshotStore} {state : PortfolioState}

variable (accountId store state)

theorem get?_saveSnapshot (date : ℤ) :
    (saveSnapshot accountId store state).rows.get? (accountId, date) =
      if date = utcDate state.timestamp then
        some { snapshotOf accountId state with
          id := (store.rows.get? (accountId, utcDate state.timestamp)).elim store.nextId (·.id) }
      else store.rows.get? (accountId, date) := by
  unfold saveSnapshot SnapshotStore.upsert
  rw [Dict.get?_set]
  simp only [snapshotOf, Prod.mk.injEq, true_and]

/-- After a save the peak is the greatest of the written total and the rows of the other days. -/
theorem isGreatest_getPeakValue_saveSnapshot :
    IsGreatest
      {x | x = quantize2 state.totalValue ∨ ∃ date row, date ≠ utcDate state.timestamp ∧
        store.rows.get? (accountId, date) = some row ∧ row.totalValue = x}
      (getPeakValue (saveSnapshot accountId store state) accountId) := by
  have hset : {x | ∃ row ∈ (saveSnapshot accountId store state).ofAccount accountId, row.totalValue = x} =
      {x | x = quantize2 state.totalValue ∨ ∃ date row, date ≠ utcDate state.timestamp ∧
        store.rows.get? (accountId, date) = some row ∧ row.totalValue = x} := by
    ext x
    constructor
    · rintro ⟨row, hrow, rfl⟩
      obtain ⟨date, hdate⟩ := (mem_ofAccount_iff _ _ _).1 hrow
      rw [get?_saveSnapshot] at hdate
      split at hdate
      · cases hdate
        exact .inl rfl
      · rename_i hne
        exact .inr ⟨date, row, hne, hdate, rfl⟩
    · rintro (rfl | ⟨date, row, hne, hrow, rfl⟩)
      · have hwritten := get?_saveSnapshot accountId store state (utcDate state.timestamp)
        rw [if_pos rfl] at hwritten
        exact ⟨_, (mem_ofAccount_iff _ _ _).2 ⟨_, hwritten⟩, rfl⟩
      · refine ⟨row, (mem_ofAccount_iff _ _ _).2 ⟨date, ?_⟩, rfl⟩
        rw [get?_saveSnapshot, if_neg hne, hrow]
  rw [← hset]
  apply isGreatest_getPeakValue
  intro hnil
  have hmem : quantize2 state.totalValue ∈
      {x | ∃ row ∈ (saveSnapshot accountId store state).ofAccount accountId, row.totalValue = x} := by
    rw [hset]
    exact .inl rfl
  obtain ⟨row, hrow, -⟩ := hmem
  rw [hnil] at hrow
  cases hrow

variable {accountId store state}

/-- What stays covered is at most the peak after the save. -/
theorem covered_iff (x : Decimal) :
    Covered accountId store state x ↔ x ≤ getPeakValue (saveSnapshot accountId store state) accountId := by
  obtain ⟨hmem, hub⟩ := isGreatest_getPeakValue_saveSnapshot accountId store state
  constructor
  · rintro (h | ⟨date, row, hne, hrow, h⟩)
    · exact h.trans (hub (.inl rfl))
    · exact h.trans (hub (.inr ⟨date, row, hne, hrow, rfl⟩))
  · intro h
    rcases hmem with hw | ⟨date, row, hne, hrow, hw⟩
    · exact .inl (hw ▸ h)
    · exact .inr ⟨date, row, hne, hrow, hw ▸ h⟩

theorem le_getPeakValue {date : ℤ} {row : PortfolioSnapshot}
    (h : store.rows.get? (accountId, date) = some row) : row.totalValue ≤ getPeakValue store accountId := by
  have hrow := (mem_ofAccount_iff store accountId row).2 ⟨date, h⟩
  exact (isGreatest_getPeakValue (List.ne_nil_of_mem hrow)).2 ⟨row, hrow, rfl⟩

/-- A save raises the peak to the saved total, and changes it in no other way, exactly if it keeps the peak. -/
theorem getPeakValue_saveSnapshot_iff (h0 : 0 ≤ getPeakValue store accountId) :
    getPeakValue (saveSnapshot accountId store state) accountId =
        max (getPeakValue store accountId) state.totalValue ↔
      KeepsPeak accountId store state := by
  have hgreatest := isGreatest_getPeakValue_saveSnapshot accountId store state
  constructor
  · intro hpeak
    refine ⟨fun row hrow => ?_, ?_, ?_, fun hnil => ?_⟩
    · rw [covered_iff, hpeak]
      exact (le_getPeakValue hrow).trans (le_max_left _ _)
    · rw [covered_iff, hpeak]
      exact le_max_right _ _
    · have hwritten : quantize2 state.totalValue ≤ max (getPeakValue store accountId) state.totalValue :=
        hpeak ▸ hgreatest.2 (.inl rfl)
      rcases le_max_iff.1 hwritten with h | h
      · by_cases hnil : store.ofAccount accountId = []
        · rw [getPeakValue_of_nil hnil] at h
          exact .inr (.inl h)
        · obtain ⟨row, hrow, hx⟩ := (isGreatest_getPeakValue hnil).1
          exact .inr (.inr ⟨row, hrow, hx ▸ h⟩)
      · exact .inl h
    · have hwritten : getPeakValue (saveSnapshot accountId store state) accountId = quantize2 state.totalValue := by
        rcases hgreatest.1 with h | ⟨date, row, -, hrow, -⟩
        · exact h
        · have := (mem_ofAccount_iff store accountId row).2 ⟨date, hrow⟩
          rw [hnil] at this
          cases this
      rw [← hwritten, hpeak]
      exact h0.trans (le_max_left _ _)
  · intro hk
    apply le_antisymm
    · rcases hgreatest.1 with h | ⟨date, row, -, hrow, h⟩
      · rw [h]
        rcases hk.rounded with h' | h' | ⟨row, hrow, h'⟩
        · exact h'.trans (le_max_right _ _)
        · exact (h'.trans h0).trans (le_max_left _ _)
        · obtain ⟨date, hdate⟩ := (mem_ofAccount_iff _ _ _).1 hrow
          exact (h'.trans (le_getPeakValue hdate)).trans (le_max_left _ _)
      · rw [← h]
        exact (le_getPeakValue hrow).trans (le_max_left _ _)
    · refine max_le ?_ ((covered_iff _).1 hk.saved)
      by_cases hnil : store.ofAccount accountId = []
      · rw [getPeakValue_of_nil hnil]
        exact (hk.first hnil).trans (hgreatest.2 (.inl rfl))
      · obtain ⟨row, hrow, hx⟩ := (isGreatest_getPeakValue hnil).1
        obtain ⟨date, hdate⟩ := (mem_ofAccount_iff _ _ _).1 hrow
        rw [← hx]
        by_cases hd : date = utcDate state.timestamp
        · exact (covered_iff _).1 (hk.replaced row (hd ▸ hdate))
        · exact hgreatest.2 (.inr ⟨date, row, hd, hdate, rfl⟩)

end Save

/-! ## The high-water mark along a run -/

/-- What a state owes to those saved before it: its peak is the running maximum, at least every saved total and
peak, its drawdown is measured from that peak, and so it is blocked whenever a saved peak would block it. -/
structure HighWaterMark (saved : List PortfolioState) (state : PortfolioState) : Prop where
  peak : state.peakValue = max (highWater saved) state.totalValue
  total_le : state.totalValue ≤ state.peakValue
  saved_le : ∀ s ∈ saved, s.totalValue ≤ state.peakValue ∧ s.peakValue ≤ state.peakValue
  drawdown : state.drawdownPct = (state.peakValue - state.totalValue) / state.peakValue * 100
  blocked : ∀ (cfg : Settings), ∀ s ∈ saved, 0 < s.peakValue → 0 ≤ state.totalValue →
    cfg.maxDrawdownPct ≤ (s.peakValue - state.totalValue) / s.peakValue * 100 →
    (AlgoRiskManager.checkMaxDrawdown cfg state).violation = some "MAX_DRAWDOWN"

/-- The table and the saved states agree on the peak, and no state has a peak of its own above it. -/
structure PeakKept (accountId : String) (h : History) : Prop where
  peak : getPeakValue h.store accountId = highWater h.saved
  returned : ∀ s ∈ h.returned, s.peakValue ≤ max (highWater h.saved) s.totalValue
  saved : ∀ s ∈ h.saved, s.totalValue ≤ highWater h.saved ∧ s.peakValue ≤ highWater h.saved

section Run

variable (master : StockMaster) (accountId : String)

/-- Every save of a run keeps the peak of the table it finds. -/
def KeepsPeaks (cs : List Call) : Prop :=
  ∀ pre i state, pre ++ [.saveSnapshot i] <+: cs →
    (calls master accountId pre).returned[i]? = some state →
    KeepsPeak accountId (calls master accountId pre).store state

theorem highWater_nonneg (saved : List PortfolioState) : 0 ≤ highWater saved := by
  induction saved using List.reverseRecOn with
  | nil => exact le_rfl
  | append_singleton saved s ih =>
    rw [highWater_concat]
    exact ih.trans (le_max_left _ _)

theorem drawdown_mono {p q t : Decimal} (hp : 0 < p) (hpq : p ≤ q) (ht : 0 ≤ t) :
    (p - t) / p * 100 ≤ (q - t) / q * 100 := by
  have hq : 0 < q := hp.trans_le hpq
  have hdiv : t / q ≤ t / p := div_le_div_of_nonneg_left ht hp hpq
  rw [sub_div, sub_div, div_self hp.ne', div_self hq.ne']
  linarith

variable {master accountId}

theorem PeakKept.highWaterMark {h : History} (hk : PeakKept accountId h) (r : Reading) :
    HighWaterMark h.saved (currentState master accountId h.store r) := by
  have hpeak : (currentState master accountId h.store r).peakValue =
      max (highWater h.saved) (currentState master accountId h.store r).totalValue := by
    rw [← hk.peak]
    rfl
  have hnonneg : 0 ≤ (currentState master accountId h.store r).peakValue := by
    rw [hpeak]
    exact (highWater_nonneg _).trans (le_max_left _ _)
  have hdrawdown : (currentState master accountId h.store r).drawdownPct =
      ((currentState master accountId h.store r).peakValue -
        (currentState master accountId h.store r).totalValue) /
        (currentState master accountId h.store r).peakValue * 100 := by
    rcases hnonneg.eq_or_lt with hzero | hpos
    · rw [← hzero, div_zero, zero_mul]
      exact if_neg (not_lt.2 hzero.ge)
    · exact if_pos hpos
  have hsaved : ∀ s ∈ h.saved, s.totalValue ≤ (currentState master accountId h.store r).peakValue ∧
      s.peakValue ≤ (currentState master accountId h.store r).peakValue := by
    intro s hs
    rw [hpeak]
    exact ⟨(hk.saved s hs).1.trans (le_max_left _ _), (hk.saved s hs).2.trans (le_max_left _ _)⟩
  refine ⟨hpeak, by rw [hpeak]; exact le_max_right _ _, hsaved, hdrawdown, ?_⟩
  intro cfg s hs hpos ht hlimit
  unfold AlgoRiskManager.checkMaxDrawdown
  rw [if_pos]
  rw [hdrawdown]
  exact hlimit.trans (drawdown_mono hpos (hsaved s hs).2 ht)

/-- A call keeps the agreement if the peak of the table follows the saved states. -/
theorem PeakKept.call {h : History} (hk : PeakKept accountId h) (c : Call)
    (hpeak : getPeakValue (call master accountId h c).store accountId =
      highWater (call master accountId h c).saved) :
    PeakKept accountId (call master accountId h c) := by
  cases c with
  | getCurrentState r =>
    refine ⟨hpeak, ?_, hk.saved⟩
    intro s hs
    rcases List.mem_append.1 hs with hs | hs
    · exact hk.returned s hs
    · rw [List.mem_singleton.1 hs]
      exact (hk.highWaterMark r).peak.le
  | saveSnapshot i =>
    cases hi : h.returned[i]? with
    | none =>
      rw [call_saveSnapshot_none master accountId hi]
      exact hk
    | some state =>
      rw [call_saveSnapshot_some master accountId hi] at hpeak ⊢
      have hmono : highWater h.saved ≤ highWater (h.saved ++ [state]) := by
        rw [highWater_concat]
        exact le_max_left _ _
      have hstate : max (highWater h.saved) state.totalValue = highWater (h.saved ++ [state]) :=
        (highWater_concat _ _).symm
      refine ⟨hpeak, fun s hs => (hk.returned s hs).trans (max_le_max hmono le_rfl), fun s hs => ?_⟩
      rcases List.mem_append.1 hs with hs | hs
      · exact ⟨(hk.saved s hs).1.trans hmono, (hk.saved s hs).2.trans hmono⟩
      · rw [List.mem_singleton.1 hs]
        refine ⟨(le_max_right _ _).trans hstate.le, ?_⟩
        exact (hk.returned state (List.mem_of_getElem? hi)).trans hstate.le

theorem peakKept_nil : PeakKept accountId (calls master accountId []) where
  peak := getPeakValue_of_nil rfl
  returned := fun _ hs => absurd hs List.not_mem_nil
  saved := fun _ hs => absurd hs List.not_mem_nil

/-- A save follows the saved states exactly if it keeps the peak. -/
theorem PeakKept.save_iff {h : History} (hk : PeakKept accountId h) {i : ℕ} {state : PortfolioState}
    (hi : h.returned[i]? = some state) :
    getPeakValue (PortfolioStateService.call master accountId h (.saveSnapshot i)).store accountId =
        highWater (PortfolioStateService.call master accountId h (.saveSnapshot i)).saved ↔
      KeepsPeak accountId h.store state := by
  rw [call_saveSnapshot_some master accountId hi, highWater_concat, ← hk.peak]
  exact getPeakValue_saveSnapshot_iff (hk.peak ▸ highWater_nonneg _)

theorem peakKept_of_keepsPeaks (cs : List Call) (h : KeepsPeaks master accountId cs) :
    PeakKept accountId (calls master accountId cs) := by
  induction cs using List.reverseRecOn with
  | nil => exact peakKept_nil
  | append_singleton cs c ih =>
    have hk := ih fun pre i state hpre => h pre i state (hpre.trans (List.prefix_append _ _))
    rw [calls_concat]
    apply hk.call
    cases c with
    | getCurrentState r => exact hk.peak
    | saveSnapshot i =>
      cases hi : (calls master accountId cs).returned[i]? with
      | none =>
        rw [call_saveSnapshot_none master accountId hi]
        exact hk.peak
      | some state => exact (hk.save_iff hi).2 (h cs i state (List.prefix_refl _) hi)

/-- Readings of every total pin the peak of the table down. -/
theorem peak_eq_of_highWaterMark {h : History}
    (hm : ∀ r, HighWaterMark h.saved (currentState master accountId h.store r)) :
    getPeakValue h.store accountId = highWater h.saved := by
  let balance : AccountBalance :=
    { totalAssets := min (getPeakValue h.store accountId) (highWater h.saved), cash := 0, invested := 0
      timestamp := none }
  have hread := (hm { balance, now := 0 }).peak
  change max (getPeakValue h.store accountId) (min (getPeakValue h.store accountId) (highWater h.saved)) =
    max (highWater h.saved) (min (getPeakValue h.store accountId) (highWater h.saved)) at hread
  rw [max_eq_left (min_le_left _ _), max_eq_left (min_le_right _ _)] at hread
  exact hread

variable (master accountId)

/-- Every state returned along a run carries the high-water mark of the states saved before it exactly if
every save of the run keeps the peak. -/
theorem highWaterMark_iff_keepsPeaks (cs : List Call) :
    (∀ pre, pre <+: cs → ∀ r,
        HighWaterMark (calls master accountId pre).saved
          (currentState master accountId (calls master accountId pre).store r)) ↔
      KeepsPeaks master accountId cs := by
  constructor
  · intro hm
    have hkept : ∀ pre, pre <+: cs → PeakKept accountId (calls master accountId pre) := by
      intro pre
      induction pre using List.reverseRecOn with
      | nil => exact fun _ => peakKept_nil
      | append_singleton pre c ih =>
        intro hpre
        have hk := ih ((List.prefix_append _ _).trans hpre)
        have hpeak := peak_eq_of_highWaterMark (hm _ hpre)
        rw [calls_concat] at hpeak ⊢
        exact hk.call c hpeak
    intro pre i state hpre hi
    have hpeak := peak_eq_of_highWaterMark (hm _ hpre)
    rw [calls_concat] at hpeak
    exact ((hkept pre ((List.prefix_append _ _).trans hpre)).save_iff hi).1 hpeak
  · intro hkeeps pre hpre r
    have hk := peakKept_of_keepsPeaks pre fun pre' i state h' => hkeeps pre' i state (h'.trans hpre)
    exact hk.highWaterMark r

/-- A reading of a total at a fixed time. -/
def readingOf (total : Decimal) : Reading :=
  { balance := { totalAssets := total, cash := total, invested := 0, timestamp := none }, now := 0 }

/-- Two snapshots of one day, of one million won and of 800,000. -/
def twoSnapshots : List Call :=
  [.getCurrentState (readingOf 1000000), .saveSnapshot 0, .getCurrentState (readingOf 800000), .saveSnapshot 1]

/-- The second snapshot erases the peak of the first, and with it the block that it had raised. -/
theorem second_snapshot_erases_peak :
    ¬ HighWaterMark (calls ⟨fun _ => none⟩ "default" twoSnapshots).saved
        (currentState ⟨fun _ => none⟩ "default" (calls ⟨fun _ => none⟩ "default" twoSnapshots).store
          (readingOf 800000)) ∧
      ((calls ⟨fun _ => none⟩ "default" twoSnapshots).saved.map (·.peakValue)) = [1000000, 1000000] ∧
      (currentState ⟨fun _ => none⟩ "default" (calls ⟨fun _ => none⟩ "default" twoSnapshots).store
        (readingOf 800000)).peakValue = 800000 ∧
      ((calls ⟨fun _ => none⟩ "default" twoSnapshots).saved.map
        (fun state => (AlgoRiskManager.checkMaxDrawdown {} state).violation)) = [none, some "MAX_DRAWDOWN"] ∧
      (AlgoRiskManager.checkMaxDrawdown {} (currentState ⟨fun _ => none⟩ "default"
        (calls ⟨fun _ => none⟩ "default" twoSnapshots).store (readingOf 800000))).violation = none :=
  ⟨fun h => absurd h.peak (by decide +kernel), by decide +kernel⟩

end Run

end PortfolioStateService

end TradingAgent
