/-
The table of financial statements over runs of syncs. An annual statement has no quarter, so the database
finds it in conflict with no other and every sync adds a row. The table has one row a year, and the analysis
statements of different years, exactly as long as no annual statement is synced a second time.
-/
import TradingAgent.Analysis.Fundamental
import TradingAgent.Data.Transparency

namespace TradingAgent

open Wp

namespace DartProvider

/-- A call of `sync_financials`, with what DART answers to it. -/
structure FinancialsCall where
  symbol : String
  fiscalYear : ℤ
  reportType : ReportType
  listing : Option (List CorpEntry)
  data : Except Exn (List AccountItem)

variable {T : Type} (S : Services T)

/-- The corporation code that a call works with. -/
def corpCodeOf (s : Store AnalysisDb T) (c : FinancialsCall) : String :=
  match RedisCache.get s.redis corpCodeCacheNs c.symbol with
  | some cached => S.toText cached
  | none => strip (((c.listing.getD []).find? (fun e => strip e.stockCode = c.symbol)).elim "" (·.corpCode))

/-- The statement that a call comes to store; one that does not fit its columns is refused. -/
def statementOf (s : Store AnalysisDb T) (c : FinancialsCall) : Option FinancialStatement :=
  match c.data with
  | .error _ => none
  | .ok items =>
    if corpCodeOf S s c = "" ∨ items = [] then none
    else (some (financialValue (corpCodeOf S s c) c.symbol c.fiscalYear c.reportType items)).filter
      FinancialStatement.fits

def sync (s : Store AnalysisDb T) (c : FinancialsCall) : Store AnalysisDb T :=
  left ((syncFinancials S c.symbol c.fiscalYear c.reportType c.listing c.data).run s)

variable {S}

theorem wp_resolveCorpCode_eq (c : FinancialsCall) (s : Store AnalysisDb T) :
    wp (resolveCorpCode S c.symbol c.listing)
      (fun code s' => code.getD "" = corpCodeOf S s c ∧ s'.db = s.db ∧ (corpCodeOf S s c = "" → s' = s))
      (fun _ _ => False) s := by
  unfold resolveCorpCode
  simp only [wp_bind, wp_get]
  cases hget : RedisCache.get s.redis corpCodeCacheNs c.symbol with
  | some cached =>
    have hcode : corpCodeOf S s c = S.toText cached := by
      unfold corpCodeOf
      rw [hget]
    rw [hcode]
    exact ⟨rfl, rfl, fun _ => rfl⟩
  | none =>
    have hcode : corpCodeOf S s c =
        strip (((c.listing.getD []).find? (fun e => strip e.stockCode = c.symbol)).elim "" (·.corpCode)) := by
      unfold corpCodeOf
      rw [hget]
    simp only [wp_ite, wp_pure, wp_bind, wp_modify]
    rw [← hcode]
    split
    · rename_i hempty
      exact ⟨hempty.symm, trivial, fun _ => trivial⟩
    · rename_i hne
      exact ⟨rfl, trivial, fun hempty => absurd hempty hne⟩

/-- A sync stores its statement, if it comes to one. Without a code it changes nothing. -/
theorem sync_spec (s : Store AnalysisDb T) (c : FinancialsCall) :
    (sync S s c).db.financialStatements =
      (statementOf S s c).elim s.db.financialStatements
        (Upsert.one financialConstraint s.db.financialStatements) ∧
      (corpCodeOf S s c = "" → sync S s c = s) := by
  refine left_of_wp (P := fun s' => s'.db.financialStatements =
    (statementOf S s c).elim s.db.financialStatements (Upsert.one financialConstraint s.db.financialStatements) ∧
      (corpCodeOf S s c = "" → s' = s)) ?_
  unfold syncFinancials
  rw [wp_bind]
  refine wp_mono (wp_resolveCorpCode_eq c s) ?_ fun _ _ h => h.elim
  rintro code s' ⟨hcode, hdb, hsame⟩
  simp only [wp_ite, wp_pure]
  rw [hcode]
  unfold statementOf
  split
  · rename_i hempty
    rw [hsame hempty]
    refine ⟨?_, fun _ => rfl⟩
    split
    · rfl
    · rw [if_pos (.inl hempty)]
      rfl
  rename_i hne
  cases hdata : c.data with
  | error e => exact ⟨by rw [hdb]; rfl, fun hempty => absurd hempty hne⟩
  | ok items =>
    simp only [MonadExcept.ofExcept, wp_bind, wp_pure, wp_ite]
    split
    · rename_i hnil
      rw [if_pos (.inr hnil), hdb]
      exact ⟨rfl, fun hempty => absurd hempty hne⟩
    · rename_i hitems
      rw [if_neg (not_or.2 ⟨hne, hitems⟩)]
      unfold storeFinancials
      simp only [wp_bind, wp_get]
      cases hfits : (financialValue (corpCodeOf S s c) c.symbol c.fiscalYear c.reportType items).fits with
      | true =>
        have hexec : S.execute financialConstraint FinancialStatement.fits s'.db.financialStatements
            [financialValue (corpCodeOf S s c) c.symbol c.fiscalYear c.reportType items] =
            .ok (Upsert.one financialConstraint s.db.financialStatements
              (financialValue (corpCodeOf S s c) c.symbol c.fiscalYear c.reportType items)) := by
          rw [Services.execute_eq_ok, hdb]
          exact ⟨List.forall_mem_singleton.2 hfits, if_pos (List.pairwise_singleton _ _)⟩
        rw [hexec, Option.filter_some, if_pos hfits]
        exact ⟨rfl, fun hempty => absurd hempty hne⟩
      | false =>
        have hexec : S.execute financialConstraint FinancialStatement.fits s'.db.financialStatements
            [financialValue (corpCodeOf S s c) c.symbol c.fiscalYear c.reportType items] =
            .error S.dataException := by
          refine if_neg fun hall => ?_
          rw [List.all_cons, hfits, Bool.false_and] at hall
          cases hall
        rw [hexec, Option.filter_some, hfits, if_neg Bool.false_ne_true]
        exact ⟨congrArg _ hdb, fun hempty => absurd hempty hne⟩

/-! ## The annual rows -/

/-- The annual rows of a symbol and a fiscal year. -/
def annualRows (db : AnalysisDb) (symbol : String) (fiscalYear : ℤ) : List FinancialStatement :=
  db.financialStatements.filter
    (fun row => row.symbol = symbol ∧ row.fiscalYear = fiscalYear ∧ row.reportType = .annual)

theorem statementOf_eq_some {s : Store AnalysisDb T} {c : FinancialsCall} {v : FinancialStatement}
    (h : statementOf S s c = some v) :
    ∃ items, c.data = .ok items ∧ corpCodeOf S s c ≠ "" ∧
      v = financialValue (corpCodeOf S s c) c.symbol c.fiscalYear c.reportType items ∧ v.fits = true := by
  unfold statementOf at h
  split at h
  · cases h
  · rename_i items hdata
    split at h
    · cases h
    · rename_i hne
      obtain ⟨hv, hfits⟩ := Option.filter_eq_some_iff.1 h
      cases hv
      exact ⟨items, hdata, (not_or.1 hne).1, rfl, hfits⟩

/-- A sync of an annual statement adds a row to those of its symbol and year. -/
theorem annualRows_sync_annual {s : Store AnalysisDb T} {c : FinancialsCall} {v : FinancialStatement}
    (h : statementOf S s c = some v) (hannual : c.reportType = .annual) (symbol : String) (fiscalYear : ℤ) :
    annualRows (sync S s c).db symbol fiscalYear = annualRows s.db symbol fiscalYear ++
      if c.symbol = symbol ∧ c.fiscalYear = fiscalYear then [v] else [] := by
  obtain ⟨items, -, -, rfl, -⟩ := statementOf_eq_some h
  unfold annualRows
  rw [(sync_spec s c).1, h, Option.elim_some, Upsert.one_of_key_eq_none, List.filter_append,
    List.filter_singleton]
  · refine congrArg _ ?_
    by_cases hkey : c.symbol = symbol ∧ c.fiscalYear = fiscalYear
    · rw [if_pos hkey, decide_eq_true ⟨hkey.1, hkey.2, hannual⟩, cond_true]
    · rw [if_neg hkey, decide_eq_false fun hrow => hkey ⟨hrow.1, hrow.2.1⟩, cond_false]
  · rw [hannual]
    rfl

/-- The other syncs leave the annual rows alone. -/
theorem annualRows_sync_other {s : Store AnalysisDb T} {c : FinancialsCall}
    (h : c.reportType = .annual → statementOf S s c = none) (symbol : String) (fiscalYear : ℤ) :
    annualRows (sync S s c).db symbol fiscalYear = annualRows s.db symbol fiscalYear := by
  unfold annualRows
  rw [(sync_spec s c).1]
  cases hv : statementOf S s c with
  | none => rfl
  | some v =>
    obtain ⟨items, -, -, hvalue, -⟩ := statementOf_eq_some hv
    have htype : v.reportType ≠ .annual := by
      intro htype
      rw [hvalue] at htype
      rw [h htype] at hv
      cases hv
    refine Upsert.filter_one ⟨fun row _ hconf => .inr ?_, fun _ => decide_eq_false fun hrow => htype hrow.2.2⟩
    -- a row in conflict is of the same type of report
    obtain ⟨k, hk⟩ := Option.ne_none_iff_exists'.1 hconf.1
    have hrow : row.reportType = v.reportType := by
      obtain ⟨_, _, hnew⟩ := Option.map_eq_some_iff.1 hk
      obtain ⟨_, _, hold⟩ := Option.map_eq_some_iff.1 (hconf.2.trans hk)
      exact congrArg (·.2.2.2) (hold.trans hnew.symm)
    have hother : ¬ (row.symbol = symbol ∧ row.fiscalYear = fiscalYear ∧ row.reportType = .annual) :=
      fun hannual => htype (hrow.symm.trans hannual.2.2)
    exact ⟨decide_eq_false hother, decide_eq_false hother⟩

/-- A sync that comes to no statement comes to none again. -/
theorem statementOf_sync_eq_none {s : Store AnalysisDb T} {c : FinancialsCall} (h : statementOf S s c = none) :
    statementOf S (sync S s c) c = none := by
  by_contra hagain
  obtain ⟨v, hv⟩ := Option.ne_none_iff_exists'.1 hagain
  obtain ⟨items, hdata, hcode, rfl, hfits⟩ := statementOf_eq_some hv
  unfold statementOf at h hv
  rw [hdata] at h hv
  dsimp only at h hv
  split at hv
  · cases hv
  rename_i hne
  split at h
  · rename_i hempty
    rcases hempty with hempty | hnil
    · rw [(sync_spec s c).2 hempty] at hcode
      exact hcode hempty
    · exact hne (.inr hnil)
  · -- whether a statement fits does not depend on its code
    have hfits' : (financialValue (corpCodeOf S s c) c.symbol c.fiscalYear c.reportType items).fits = true := hfits
    rw [Option.filter_some, if_pos hfits'] at h
    cases h

/-- A sync whose statement has a quarter, or that stores none, leaves the table as it is when it comes again. -/
theorem sync_sync {s : Store AnalysisDb T} {c : FinancialsCall}
    (h : c.reportType = .annual → statementOf S (sync S s c) c = none) :
    (sync S (sync S s c) c).db.financialStatements = (sync S s c).db.financialStatements := by
  rw [(sync_spec (sync S s c) c).1]
  cases hagain : statementOf S (sync S s c) c with
  | none => rfl
  | some again =>
    obtain ⟨items, hdata, hcode, rfl, -⟩ := statementOf_eq_some hagain
    have hquarter : fiscalQuarter c.reportType ≠ none := by
      intro hnone
      cases htype : c.reportType with
      | annual =>
        rw [h htype] at hagain
        cases hagain
      | semiAnnual | quarterly =>
        rw [htype] at hnone
        cases hnone
    cases hfirst : statementOf S s c with
    | none =>
      rw [statementOf_sync_eq_none hfirst] at hagain
      cases hagain
    | some v =>
      obtain ⟨items', hdata', -, rfl, -⟩ := statementOf_eq_some hfirst
      obtain rfl : items = items' := Except.ok.inj (hdata.symm.trans hdata')
      rw [(sync_spec s c).1, hfirst]
      exact Upsert.one_one (by simpa [financialConstraint, financialValue] using hquarter) rfl (fun _ => rfl) rfl

/-! ## Runs -/

/-- The database and the cache, with the annual statement last synced for each symbol and fiscal year, which no
step reads. -/
structure Synced (T : Type) where
  store : Store AnalysisDb T
  last : Dict (String × ℤ) FinancialStatement := Dict.empty

variable (S)

def Synced.step (s : Synced T) (c : FinancialsCall) : Synced T where
  store := sync S s.store c
  last := match statementOf S s.store c with
    | some v => if c.reportType = .annual then s.last.set (c.symbol, c.fiscalYear) v else s.last
    | none => s.last

/-- Where a run stands after so many calls. The table is empty at the beginning. -/
def synced (db : AnalysisDb) (redis : Redis T) (calls : List FinancialsCall) (k : ℕ) : Synced T :=
  Async.runSteps (Synced.step S) (calls.take k) { store := ⟨{ db with financialStatements := [] }, redis⟩ }

/-- An annual statement comes to be stored only if there is none of its symbol and year. -/
def Fresh (s : Synced T) (c : FinancialsCall) : Prop :=
  c.reportType = .annual → (statementOf S s.store c).isSome = true →
    annualRows s.store.db c.symbol c.fiscalYear = []

instance (s : Synced T) (c : FinancialsCall) : Decidable (Fresh S s c) := inferInstanceAs (Decidable (_ → _ → _))

variable {S}

/-- The annual rows are those of the last syncs, one for each symbol and year. -/
def Synced.OnePerYear (s : Synced T) : Prop :=
  ∀ symbol fiscalYear, annualRows s.store.db symbol fiscalYear = (s.last.get? (symbol, fiscalYear)).toList

theorem Synced.OnePerYear.step {s : Synced T} (h : s.OnePerYear) {c : FinancialsCall} (hfresh : Fresh S s c) :
    (s.step S c).OnePerYear := by
  intro symbol fiscalYear
  by_cases hannual : c.reportType = .annual
  · unfold Synced.step
    dsimp only
    cases hv : statementOf S s.store c with
    | none =>
      rw [annualRows_sync_other fun _ => hv]
      exact h symbol fiscalYear
    | some v =>
      have hnone := hfresh hannual (by rw [hv]; rfl)
      rw [annualRows_sync_annual hv hannual]
      dsimp only
      rw [if_pos hannual, Dict.get?_set]
      by_cases hkey : c.symbol = symbol ∧ c.fiscalYear = fiscalYear
      · obtain ⟨rfl, rfl⟩ := hkey
        rw [hnone, if_pos ⟨rfl, rfl⟩, if_pos rfl]
        rfl
      · rw [if_neg hkey, if_neg fun heq => hkey ⟨(congrArg Prod.fst heq).symm, (congrArg Prod.snd heq).symm⟩,
          List.append_nil]
        exact h symbol fiscalYear
  · have hlast : (s.step S c).last = s.last := by
      unfold Synced.step
      dsimp only
      cases statementOf S s.store c with
      | none => rfl
      | some v => exact if_neg hannual
    change annualRows (sync S s.store c).db symbol fiscalYear = ((s.step S c).last.get? _).toList
    rw [annualRows_sync_other fun hc => absurd hc hannual, hlast]
    exact h symbol fiscalYear

/-- Two annual rows of one symbol and year are one too many. -/
theorem Synced.OnePerYear.fresh {s : Synced T} {c : FinancialsCall} (h : (s.step S c).OnePerYear) :
    Fresh S s c := by
  intro hannual hstored
  obtain ⟨v, hv⟩ := Option.isSome_iff_exists.1 hstored
  have hrows := congrArg List.length (h c.symbol c.fiscalYear)
  change (annualRows (sync S s.store c).db _ _).length = _ at hrows
  rw [annualRows_sync_annual hv hannual, if_pos ⟨rfl, rfl⟩, List.length_append, List.length_singleton] at hrows
  have hle : (((s.step S c).last.get? (c.symbol, c.fiscalYear)).toList).length ≤ 1 := by
    cases (s.step S c).last.get? (c.symbol, c.fiscalYear) <;> simp
  exact List.eq_nil_of_length_eq_zero (by omega)

/-- Where there is one row a year, the statements of a symbol are of different years. -/
theorem Synced.OnePerYear.nodup {s : Synced T} (h : s.OnePerYear) (symbol : String) :
    ((FundamentalAnalyzer.annualRowsOf s.store.db symbol).map (·.fiscalYear)).Nodup := by
  rw [List.nodup_iff_count_le_one]
  intro fiscalYear
  have hrows : ((FundamentalAnalyzer.annualRowsOf s.store.db symbol).map (·.fiscalYear)).count fiscalYear =
      (annualRows s.store.db symbol fiscalYear).length := by
    unfold FundamentalAnalyzer.annualRowsOf annualRows List.count
    rw [List.countP_map, List.countP_eq_length_filter, List.filter_filter]
    refine congrArg List.length (List.filter_congr fun row _ => ?_)
    simp only [Function.comp, Bool.decide_and, ← Bool.beq_eq_decide_eq]
    grind
  rw [hrows, h symbol fiscalYear]
  cases s.last.get? (symbol, fiscalYear) <;> simp

/-- There is one annual row for each symbol and year, with what was last synced; the statements of the analysis
are of different years, the latest first, and growth is computed between different years. -/
structure Synced.Unique (S : Services T) (s : Synced T) : Prop where
  onePerYear : s.OnePerYear
  descending : ∀ symbol limit, (FundamentalAnalyzer.fetchStatements S s.store.db symbol limit).Pairwise
    (fun a b => b.fiscalYear < a.fiscalYear)
  growth : ∀ symbol limit,
    ∀ p ∈ FundamentalAnalyzer.growthPairs (FundamentalAnalyzer.fetchStatements S s.store.db symbol limit),
      p.2.fiscalYear < p.1.fiscalYear

theorem Synced.OnePerYear.unique {s : Synced T} (h : s.OnePerYear) : s.Unique S where
  onePerYear := h
  descending symbol limit := FundamentalAnalyzer.fetchStatements_pairwise (h.nodup symbol) limit
  growth symbol limit := FundamentalAnalyzer.growthPairs_years
    (FundamentalAnalyzer.fetchStatements_pairwise (h.nodup symbol) limit)

/-- Along a run the annual rows are unique everywhere, and a sync repeated at once changes no row, exactly if no
annual statement comes to be stored for a symbol and year that have one. -/
theorem unique_iff_fresh (S : Services T) (db : AnalysisDb) (redis : Redis T) (calls : List FinancialsCall) :
    ((∀ k, (synced S db redis calls k).Unique S) ∧
      ∀ k c, calls[k]? = some c → calls[k + 1]? = some c →
        (synced S db redis calls (k + 2)).store.db.financialStatements =
          (synced S db redis calls (k + 1)).store.db.financialStatements) ↔
      Async.Along (Synced.step S) (Fresh S) calls { store := ⟨{ db with financialStatements := [] }, redis⟩ } := by
  constructor
  · rintro ⟨hunique, -⟩
    rw [Async.along_iff]
    intro k c hc
    have hnext := (hunique (k + 1)).onePerYear
    unfold synced at hnext
    rw [Async.runSteps_take_succ hc] at hnext
    exact hnext.fresh
  · intro h
    refine ⟨fun k => ?_, fun k c hc hagain => ?_⟩
    · refine (Async.along_keeps (I := Synced.OnePerYear) (fun _ _ hs => hs.step) h ?_ k).unique
      exact fun _ _ => rfl
    · have hfresh := Async.along_iff.1 h (k + 1) c hagain
      unfold synced
      rw [Async.runSteps_take_succ hagain]
      rw [Async.runSteps_take_succ hc] at hfresh ⊢
      refine sync_sync fun hannual => ?_
      by_contra hstored
      obtain ⟨v, hv⟩ := Option.ne_none_iff_exists'.1 fun hnone => hstored (statementOf_sync_eq_none hnone)
      have hnil := hfresh hannual (Option.isSome_iff_ne_none.2 hstored)
      change annualRows (sync S _ c).db _ _ = [] at hnil
      rw [annualRows_sync_annual hv hannual, if_pos ⟨rfl, rfl⟩] at hnil
      exact List.append_ne_nil_of_right_ne_nil _ (List.cons_ne_nil _ _) hnil

/-- The annual report of 2025, with nothing but the revenue. -/
def annual2025 : FinancialsCall where
  symbol := "005930"
  fiscalYear := 2025
  reportType := .annual
  listing := some [{ stockCode := "005930", corpCode := "00126380" }]
  data := .ok [{ accountNm := some "매출액", thstrmAmount := some "300,870" }]

/-- Synced twice the report has two rows, and growth is computed between them. -/
theorem annual2025_not_unique :
    ¬ ((∀ k, (synced Providers.services {} Dict.empty [annual2025, annual2025] k).Unique Providers.services) ∧
      ∀ k c, [annual2025, annual2025][k]? = some c → [annual2025, annual2025][k + 1]? = some c →
        (synced Providers.services {} Dict.empty [annual2025, annual2025] (k + 2)).store.db.financialStatements =
          (synced Providers.services {} Dict.empty [annual2025, annual2025] (k + 1)).store.db.financialStatements) ∧
    (FundamentalAnalyzer.growthPairs (FundamentalAnalyzer.fetchStatements Providers.services
      (synced Providers.services {} Dict.empty [annual2025, annual2025] 2).store.db "005930")).map
        (fun p => (p.1.fiscalYear, p.2.fiscalYear)) = [(2025, 2025)] := by
  constructor
  · rintro ⟨hunique, -⟩
    exact absurd ((hunique 2).onePerYear "005930" 2025) (by decide +kernel)
  · decide +kernel

end DartProvider

end TradingAgent
