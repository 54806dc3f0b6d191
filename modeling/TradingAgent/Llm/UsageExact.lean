/-
What the usage table says after every run of routed calls side by side. Each call inserts at most one row for each of
its answers, and misses one only if the recording failed or was cut off. The rows of the table, the costs of a month
and the summary by provider are the sums of what all calls inserted. Once the costs of a month have used up the
budget, no more calls are admitted to a second model in that month.
-/
import TradingAgent.Llm.UsageLedger

namespace TradingAgent

open Upsert LLMUsage

/-! ## The steps of a routed call -/

namespace RoutedCall

variable {monthlyBudgetUsd budgetWarningPct : Decimal} {s s' : UsageLedger} {call call' : RoutedCall}

/-- What a step does. -/
inductive Move (monthlyBudgetUsd : Decimal) (s : UsageLedger) (call : RoutedCall) : UsageLedger → RoutedCall → Prop
  | idle : Move monthlyBudgetUsd s call s call
  | answer (usage : ModelUsage) (unsure : Bool) (row : LLMUsage) (hstage : call.stage = .asking)
      (hrow : row = LLMUsage.ofUsage s.today call.agentType false usage) :
      Move monthlyBudgetUsd s call s (call.answered row (.recording row unsure))
  | answerAgain (usage : ModelUsage) (row : LLMUsage) (hstage : call.stage = .escalating)
      (hrow : row = LLMUsage.ofUsage s.today call.agentType true usage) :
      Move monthlyBudgetUsd s call s (call.answered row (.recordingEscalation row))
  | insert (row : LLMUsage) (stage : RouteStage) (hstage : (∃ unsure, call.stage = .recording row unsure ∧
        (stage = .done ∨ stage = .checking s.today)) ∨ (call.stage = .recordingEscalation row ∧ stage = .done)) :
      Move monthlyBudgetUsd s call (s.recordUsage row) { call with inserted := call.inserted ++ [row], stage }
  | insertFails (applied : Bool) (row : LLMUsage) (stage : RouteStage)
      (hstage : (∃ unsure, call.stage = .recording row unsure ∧ (stage = .done ∨ stage = .checking s.today)) ∨
        (call.stage = .recordingEscalation row ∧ stage = .done)) :
      Move monthlyBudgetUsd s call (call.recordFails s applied row stage).1 (call.recordFails s applied row stage).2
  | admitted (today : ℤ) (hstage : call.stage = .checking today)
      (hbudget : ¬ (0 < monthlyBudgetUsd ∧ monthlyBudgetUsd ≤ s.currentCost today)) :
      Move monthlyBudgetUsd s call s { call with stage := .escalating, admitted := true }
  | finish (hstage : call.stage = .asking ∨ (∃ today, call.stage = .checking today) ∨ call.stage = .escalating) :
      Move monthlyBudgetUsd s call s (call.move .done)

theorem afterFirst_cases (s : UsageLedger) (unsure : Bool) :
    afterFirst s unsure = .done ∨ afterFirst s unsure = .checking s.today := by
  cases unsure with
  | true => exact .inr rfl
  | false => exact .inl rfl

theorem checkBudget_move (monthlyBudgetUsd budgetWarningPct : Decimal) (s : UsageLedger) (call : RoutedCall) {today : ℤ}
    (hstage : call.stage = .checking today) :
    Move monthlyBudgetUsd s call s (call.checkBudget monthlyBudgetUsd budgetWarningPct s today) := by
  unfold checkBudget
  split
  · rename_i status hstatus
    have hiff := CostTracker.escalationDisabled_iff hstatus
    cases hstatus
    split
    · exact .finish (.inr (.inl ⟨today, hstage⟩))
    · rename_i henabled
      exact .admitted today hstage fun hbudget => henabled (hiff.2 hbudget)
  · exact .finish (.inr (.inl ⟨today, hstage⟩))

theorem step_move (monthlyBudgetUsd budgetWarningPct : Decimal) (s : UsageLedger) (call : RoutedCall)
    (choice : RouteChoice) : Move monthlyBudgetUsd s call
      (call.step monthlyBudgetUsd budgetWarningPct s call.stage choice).1
      (call.step monthlyBudgetUsd budgetWarningPct s call.stage choice).2 := by
  cases hstage : call.stage with
  | asking =>
    cases choice with
    | answers usage unsure => exact .answer usage unsure _ hstage rfl
    | returns => exact .idle
    | _ => exact .finish (.inl hstage)
  | recording row unsure =>
    cases choice with
    | answers usage unsure' => exact .idle
    | returns => exact .insert row _ (.inl ⟨unsure, hstage, afterFirst_cases s unsure⟩)
    | raises applied => exact .insertFails applied row _ (.inl ⟨unsure, hstage, afterFirst_cases s unsure⟩)
    | ends applied => exact .insertFails applied row _ (.inl ⟨unsure, hstage, .inl rfl⟩)
  | checking today =>
    cases choice with
    | answers usage unsure => exact .idle
    | returns => exact checkBudget_move monthlyBudgetUsd budgetWarningPct s call hstage
    | _ => exact .finish (.inr (.inl ⟨today, hstage⟩))
  | escalating =>
    cases choice with
    | answers usage unsure => exact .answerAgain usage _ hstage rfl
    | returns => exact .idle
    | _ => exact .finish (.inr (.inr hstage))
  | recordingEscalation row =>
    cases choice with
    | answers usage unsure => exact .idle
    | returns => exact .insert row _ (.inr ⟨hstage, rfl⟩)
    | raises applied => exact .insertFails applied row _ (.inr ⟨hstage, rfl⟩)
    | ends applied => exact .insertFails applied row _ (.inr ⟨hstage, rfl⟩)
  | done => exact .idle

/-! ## What a call inserts -/

/-- The rows inserted are among those due, and are all of them unless a recording failed. -/
structure Paid (call : RoutedCall) (due : List LLMUsage) : Prop where
  once : call.inserted.Sublist due
  all : call.troubled = false → call.inserted = due

theorem Paid.insert {due due' : List LLMUsage} (h : Paid call due) (row : LLMUsage) (stage : RouteStage)
    (hdue : due' = due ++ [row]) : Paid { call with inserted := call.inserted ++ [row], stage } due' := by
  subst hdue
  exact ⟨h.once.append_right [row], fun htroubled => by rw [h.all htroubled]⟩

theorem Paid.recordFails {due due' : List LLMUsage} (h : Paid call due) (applied : Bool) (row : LLMUsage)
    (stage : RouteStage) (hdue : due' = due ++ [row]) : Paid (call.recordFails s applied row stage).2 due' := by
  refine ⟨?_, fun htroubled => by cases htroubled⟩
  cases applied with
  | true => exact (h.insert row stage hdue).once
  | false =>
    rw [hdue]
    exact h.once.trans (List.sublist_append_left due [row])

/-- What holds of a call at its stage: it has one answer before it is admitted to a second model. -/
def Due (call : RoutedCall) : Prop :=
  match call.stage with
  | .asking => call.due = [] ∧ Paid call [] ∧ call.admitted = false
  | .recording row _ => call.due = [row] ∧ Paid call [] ∧ call.admitted = false
  | .checking _ => call.due.length = 1 ∧ Paid call call.due ∧ call.admitted = false
  | .escalating => call.due.length = 1 ∧ Paid call call.due ∧ call.admitted = true
  | .recordingEscalation row => ∃ first, call.due = [first, row] ∧ Paid call [first] ∧ call.admitted = true
  | .done => call.due.length ≤ 2 ∧ (call.due.length = 2 → call.admitted = true) ∧ Paid call call.due

/-- A call is billed for its answers: at most two, the second one only if it was admitted. Each is inserted at most
once, and all are when the call is done unless a recording failed or was cut off. -/
structure Billed (call : RoutedCall) : Prop where
  answers : call.due.length ≤ 2 ∧ (call.due.length = 2 → call.admitted = true)
  once : call.inserted.Sublist call.due
  all : call.stage = .done → call.troubled = false → call.inserted = call.due

theorem Due.billed (h : Due call) : Billed call := by
  unfold Due at h
  split at h <;> rename_i hstage
  · obtain ⟨hdue, hpaid, -⟩ := h
    refine ⟨by simp [hdue], hdue ▸ hpaid.once, fun hdone => ?_⟩
    rw [hstage] at hdone
    cases hdone
  · obtain ⟨hdue, hpaid, -⟩ := h
    refine ⟨by simp [hdue], ?_, fun hdone => ?_⟩
    · rw [hdue]
      exact hpaid.once.trans (List.nil_sublist _)
    · rw [hstage] at hdone
      cases hdone
  · obtain ⟨hdue, hpaid, -⟩ := h
    refine ⟨by omega, hpaid.once, fun hdone => ?_⟩
    rw [hstage] at hdone
    cases hdone
  · obtain ⟨hdue, hpaid, -⟩ := h
    refine ⟨by omega, hpaid.once, fun hdone => ?_⟩
    rw [hstage] at hdone
    cases hdone
  · obtain ⟨first, hdue, hpaid, hadmitted⟩ := h
    refine ⟨⟨by simp [hdue], fun _ => hadmitted⟩, ?_, fun hdone => ?_⟩
    · rw [hdue]
      exact hpaid.once.trans (List.sublist_append_left [first] [_])
    · rw [hstage] at hdone
      cases hdone
  · exact ⟨⟨h.1, h.2.1⟩, h.2.2.once, fun _ => h.2.2.all⟩

theorem Move.due (hmove : Move monthlyBudgetUsd s call s' call') (h : Due call) : Due call' := by
  have hall := h
  unfold Due at h
  cases hmove with
  | idle => exact hall
  | answer usage unsure row hstage hrow =>
    rw [hstage] at h
    obtain ⟨hdue, hpaid, hadmitted⟩ := h
    exact ⟨by simp [answered, hdue], ⟨hpaid.once, hpaid.all⟩, hadmitted⟩
  | answerAgain usage row hstage hrow =>
    rw [hstage] at h
    obtain ⟨hdue, hpaid, hadmitted⟩ := h
    obtain ⟨first, hfirst⟩ := List.length_eq_one_iff.1 hdue
    rw [hfirst] at hpaid
    exact ⟨first, by simp [answered, hfirst], ⟨hpaid.once, hpaid.all⟩, hadmitted⟩
  | insert row stage hstage =>
    rcases hstage with ⟨unsure, hstage, hnext⟩ | ⟨hstage, rfl⟩
    · rw [hstage] at h
      obtain ⟨hdue, hpaid, hadmitted⟩ := h
      have hpaid' := hpaid.insert row stage hdue
      have hlength : call.due.length = 1 := by simp [hdue]
      rcases hnext with rfl | rfl
      · exact ⟨by simp [hdue], by simp [hdue], hpaid'⟩
      · exact ⟨hlength, hpaid', hadmitted⟩
    · rw [hstage] at h
      obtain ⟨first, hdue, hpaid, hadmitted⟩ := h
      have hpaid' := hpaid.insert row .done hdue
      exact ⟨by simp [hdue], fun _ => hadmitted, hpaid'⟩
  | insertFails applied row stage hstage =>
    have hdue' : (call.recordFails s applied row stage).2.due = call.due := by cases applied <;> rfl
    have hadmitted' : (call.recordFails s applied row stage).2.admitted = call.admitted := by cases applied <;> rfl
    have hstage' : (call.recordFails s applied row stage).2.stage = stage := by cases applied <;> rfl
    unfold Due
    rw [hstage', hdue', hadmitted']
    rcases hstage with ⟨unsure, hstage, hnext⟩ | ⟨hstage, rfl⟩
    · rw [hstage] at h
      obtain ⟨hdue, hpaid, hadmitted⟩ := h
      have hpaid' : Paid (call.recordFails s applied row stage).2 call.due := hpaid.recordFails applied row stage hdue
      have hlength : call.due.length = 1 := by simp [hdue]
      rcases hnext with rfl | rfl
      · exact ⟨by omega, by omega, hpaid'⟩
      · exact ⟨hlength, hpaid', hadmitted⟩
    · rw [hstage] at h
      obtain ⟨first, hdue, hpaid, hadmitted⟩ := h
      have hpaid' : Paid (call.recordFails s applied row .done).2 call.due := hpaid.recordFails applied row .done hdue
      exact ⟨by simp [hdue], fun _ => hadmitted, hpaid'⟩
  | admitted today hstage hbudget =>
    rw [hstage] at h
    exact ⟨h.1, ⟨h.2.1.once, h.2.1.all⟩, rfl⟩
  | finish hstage =>
    rcases hstage with hstage | ⟨today, hstage⟩ | hstage
    · rw [hstage] at h
      obtain ⟨hdue, hpaid, -⟩ := h
      rw [← hdue] at hpaid
      exact ⟨by simp [move, hdue], by simp [move, hdue], ⟨hpaid.once, hpaid.all⟩⟩
    · rw [hstage] at h
      obtain ⟨hdue, hpaid, -⟩ := h
      have hlength : (call.move .done).due.length = 1 := hdue
      exact ⟨by omega, by omega, ⟨hpaid.once, hpaid.all⟩⟩
    · rw [hstage] at h
      obtain ⟨hdue, hpaid, -⟩ := h
      have hlength : (call.move .done).due.length = 1 := hdue
      exact ⟨by omega, by omega, ⟨hpaid.once, hpaid.all⟩⟩

end RoutedCall

/-! ## The rows as sums -/

namespace UsageLedger

/-- What every row says that is inserted. -/
structure Sent (s : UsageLedger) (row : LLMUsage) : Prop where
  one : row.callCount = 1
  escalation : row.escalationCount = 0 ∨ row.escalationCount = 1
  cost : 0 ≤ row.costUsd
  past : row.date ≤ s.today

theorem sent_ofUsage (s : UsageLedger) (agentType : String) (isEscalation : Bool) (usage : ModelUsage) :
    Sent s (LLMUsage.ofUsage s.today agentType isEscalation usage) := by
  refine ⟨rfl, ?_, ofUsage_cost_nonneg _ _ _ _, le_rfl⟩
  cases isEscalation with
  | true => exact .inr rfl
  | false => exact .inl rfl

theorem Sent.mono {s s' : UsageLedger} {row : LLMUsage} (h : Sent s row) (hle : s.today ≤ s'.today) : Sent s' row :=
  ⟨h.one, h.escalation, h.cost, h.past.trans hle⟩

/-- A selection by date and provider goes by the key. -/
theorem byKey_date (q : ℤ → LLMProviderType → Bool) : ByKey uqLlmUsageDaily fun row => q row.date row.provider := by
  intro a b hab
  have hkey : (a.date, a.provider, a.model, a.agentType) = (b.date, b.provider, b.model, b.agentType) :=
    Option.some.inj hab
  simp only [Prod.mk.injEq] at hkey
  dsimp only
  rw [hkey.1, hkey.2.1]

theorem byKey_inMonth (year : ℤ) (month : ℕ) : ByKey uqLlmUsageDaily (inMonth year month) :=
  byKey_date fun date _ => Calendar.ofDate year month 1 ≤ date ∧ date < lastDay year month

theorem byKey_inMonth_provider (year : ℤ) (month : ℕ) (provider : LLMProviderType) :
    ByKey uqLlmUsageDaily fun row => decide (inMonth year month row ∧ row.provider = provider) :=
  byKey_date fun date p =>
    decide ((decide (Calendar.ofDate year month 1 ≤ date ∧ date < lastDay year month) : Bool) = true ∧ p = provider)

/-- The table is what the insertions make it. -/
structure Filled (s : UsageLedger) : Prop where
  rows : s.rows = s.inserted.foldl (one uqLlmUsageDaily) []
  sent : ∀ row ∈ s.inserted, Sent s row

theorem Filled.total_eq {s : UsageLedger} (h : Filled s) {M : Type} [AddCommMonoid M] {f : LLMUsage → M}
    {p : LLMUsage → Bool} (hf : Adds uqLlmUsageDaily f) (hp : ByKey uqLlmUsageDaily p) :
    total f p s.rows = total f p s.inserted := by
  rw [h.rows]
  exact total_filled hf hp s.inserted

/-- A row adds up the rows that were inserted under its key. -/
structure AddsUp (row : LLMUsage) (mine : List LLMUsage) : Prop where
  some : mine ≠ []
  tokensIn : row.tokensIn = (mine.map (·.tokensIn)).sum
  tokensOut : row.tokensOut = (mine.map (·.tokensOut)).sum
  costUsd : row.costUsd = (mine.map (·.costUsd)).sum
  callCount : row.callCount = mine.length
  escalationCount : row.escalationCount = (mine.filter (·.escalationCount = 1)).length

theorem sum_callCount {s : UsageLedger} : ∀ {l : List LLMUsage}, (∀ row ∈ l, Sent s row) →
    (l.map (·.callCount)).sum = l.length
  | [], _ => rfl
  | row :: l, h => by
    rw [List.map_cons, List.sum_cons, sum_callCount fun row hrow => h row (List.mem_cons_of_mem _ hrow),
      (h row List.mem_cons_self).one, List.length_cons]
    push_cast
    ring

theorem sum_escalationCount {s : UsageLedger} : ∀ {l : List LLMUsage}, (∀ row ∈ l, Sent s row) →
    (l.map (·.escalationCount)).sum = (l.filter (·.escalationCount = 1)).length
  | [], _ => rfl
  | row :: l, h => by
    rw [List.map_cons, List.sum_cons, sum_escalationCount fun row hrow => h row (List.mem_cons_of_mem _ hrow),
      List.filter_cons]
    rcases (h row List.mem_cons_self).escalation with hzero | hone
    · simp [hzero]
    · simp [hone, add_comm]

theorem Filled.addsUp {s : UsageLedger} (h : Filled s) {row : LLMUsage} (hrow : row ∈ s.rows) :
    AddsUp row (s.inserted.filter fun v => decide (uqLlmUsageDaily.key v = uqLlmUsageDaily.key row)) := by
  rw [h.rows] at hrow
  have hsent : ∀ v ∈ s.inserted.filter fun v => decide (uqLlmUsageDaily.key v = uqLlmUsageDaily.key row), Sent s v :=
    fun v hv => h.sent v (List.mem_filter.1 hv).1
  refine ⟨?_, ?_, ?_, ?_, ?_, ?_⟩
  · obtain ⟨v, hv, hkey⟩ := (exists_key_filled_iff (row.date, row.provider, row.model, row.agentType) s.inserted).1
      ⟨row, hrow, rfl⟩
    exact List.ne_nil_of_mem (List.mem_filter.2 ⟨hv, decide_eq_true hkey⟩)
  · exact eq_total_of_mem (fun _ _ _ => rfl) hrow rfl
  · exact eq_total_of_mem (fun _ _ _ => rfl) hrow rfl
  · exact eq_total_of_mem (fun _ _ _ => rfl) hrow rfl
  · rw [← sum_callCount hsent]
    exact eq_total_of_mem (f := fun row : LLMUsage => row.callCount) (fun _ _ _ => rfl) hrow rfl
  · rw [← sum_escalationCount hsent]
    exact eq_total_of_mem (f := fun row : LLMUsage => row.escalationCount) (fun _ _ _ => rfl) hrow rfl

theorem AddsUp.perm {row : LLMUsage} {mine mine' : List LLMUsage} (h : AddsUp row mine) (hperm : mine.Perm mine') :
    AddsUp row mine' := by
  refine ⟨fun hnil => h.some ?_, h.tokensIn.trans (hperm.map _).sum_eq, h.tokensOut.trans (hperm.map _).sum_eq,
    h.costUsd.trans (hperm.map _).sum_eq, ?_, ?_⟩
  · rw [hnil] at hperm
    exact hperm.eq_nil
  · rw [h.callCount, hperm.length_eq]
  · rw [h.escalationCount, (hperm.filter _).length_eq]

/-! ## The summary of a month -/

/-- A summary adds up what was inserted in its month. -/
structure Summarizes (inserted : List LLMUsage) (year : ℤ) (month : ℕ) (summary : MonthlySummary) : Prop where
  cost : summary.totalCostUsd = total (·.costUsd) (inMonth year month) inserted
  tokensIn : summary.totalTokensIn = total (·.tokensIn) (inMonth year month) inserted
  tokensOut : summary.totalTokensOut = total (·.tokensOut) (inMonth year month) inserted
  calls : summary.totalCalls = total (·.callCount) (inMonth year month) inserted
  escalations : summary.totalEscalations = total (·.escalationCount) (inMonth year month) inserted

/-- A summary adds up what was inserted in its month for each provider that was called. -/
structure SummarizesProviders (inserted : List LLMUsage) (year : ℤ) (month : ℕ) (summary : MonthlySummary) : Prop where
  providers : ∀ provider, summary.byProvider.get? provider =
    if ∃ v ∈ inserted, inMonth year month v ∧ v.provider = provider then some {
      costUsd := total (·.costUsd) (fun v => decide (inMonth year month v ∧ v.provider = provider)) inserted
      callCount := total (·.callCount) (fun v => decide (inMonth year month v ∧ v.provider = provider)) inserted }
    else none
  cost : (summary.byProvider.values.map (·.costUsd)).sum = total (·.costUsd) (inMonth year month) inserted
  calls : (summary.byProvider.values.map (·.callCount)).sum = total (·.callCount) (inMonth year month) inserted

theorem Summarizes.perm {inserted inserted' : List LLMUsage} {year : ℤ} {month : ℕ} {summary : MonthlySummary}
    (h : Summarizes inserted year month summary) (hperm : inserted.Perm inserted') :
    Summarizes inserted' year month summary :=
  ⟨h.cost.trans (total_perm hperm), h.tokensIn.trans (total_perm hperm), h.tokensOut.trans (total_perm hperm),
    h.calls.trans (total_perm hperm), h.escalations.trans (total_perm hperm)⟩

theorem SummarizesProviders.perm {inserted inserted' : List LLMUsage} {year : ℤ} {month : ℕ}
    {summary : MonthlySummary} (h : SummarizesProviders inserted year month summary)
    (hperm : inserted.Perm inserted') : SummarizesProviders inserted' year month summary := by
  refine ⟨fun provider => ?_, h.cost.trans (total_perm hperm), h.calls.trans (total_perm hperm)⟩
  rw [h.providers, total_perm hperm, total_perm hperm]
  simp only [hperm.mem_iff]

theorem sum_filter_provider {M : Type} [AddCommMonoid M] (f : LLMUsage → M) (year : ℤ) (month : ℕ)
    (provider : LLMProviderType) (rows : List LLMUsage) :
    (((rows.filter (inMonth year month)).filter fun row => row.provider = provider).map f).sum =
      total f (fun v => decide (inMonth year month v ∧ v.provider = provider)) rows := by
  unfold total
  rw [List.filter_filter]
  congr 2
  refine List.filter_congr fun row _ => ?_
  rw [Bool.and_comm, Bool.decide_and, Bool.decide_eq_true]

theorem Filled.summarizes {s : UsageLedger} (h : Filled s) (next : UsageLedger) (year : ℤ) (month : ℕ) :
    Summarizes s.inserted year month (s.getMonthlySummary next year month) := by
  have hmonth := byKey_inMonth year month
  exact ⟨h.total_eq (fun _ _ _ => rfl) hmonth, h.total_eq (fun _ _ _ => rfl) hmonth,
    h.total_eq (fun _ _ _ => rfl) hmonth, h.total_eq (fun _ _ _ => rfl) hmonth,
    h.total_eq (fun _ _ _ => rfl) hmonth⟩

theorem Filled.summarizesProviders {s : UsageLedger} (h : Filled s) (first : UsageLedger) (year : ℤ) (month : ℕ) :
    SummarizesProviders s.inserted year month (first.getMonthlySummary s year month) := by
  have hmonth := byKey_inMonth year month
  refine ⟨fun provider => ?_, ?_, ?_⟩
  · have hprovider := byKey_inMonth_provider year month provider
    have hmem : provider ∈ (s.rows.filter (inMonth year month)).map (·.provider) ↔
        ∃ v ∈ s.inserted, inMonth year month v ∧ v.provider = provider := by
      have hfilled := exists_filled_iff hprovider (fun row => Option.some_ne_none _) s.inserted
      rw [← h.rows] at hfilled
      simp only [decide_eq_true_eq] at hfilled
      rw [← hfilled, List.mem_map]
      simp only [List.mem_filter, and_assoc]
    unfold getMonthlySummary
    dsimp only
    rw [Dict.get?_mapValues, Groups.get?_group]
    by_cases hcalled : ∃ v ∈ s.inserted, inMonth year month v ∧ v.provider = provider
    · rw [if_pos (hmem.2 hcalled), if_pos hcalled, Option.map_some, sum_filter_provider, sum_filter_provider,
        h.total_eq (fun _ _ _ => rfl) hprovider, h.total_eq (fun _ _ _ => rfl) hprovider]
    · rw [if_neg (fun hin => hcalled (hmem.1 hin)), if_neg hcalled]
      rfl
  · unfold getMonthlySummary
    dsimp only
    rw [Dict.sum_values, Dict.sum_mapValues]
    exact (Groups.sum_group _ _ _).trans (h.total_eq (f := (·.costUsd)) (fun _ _ _ => rfl) hmonth)
  · unfold getMonthlySummary
    dsimp only
    rw [Dict.sum_values, Dict.sum_mapValues]
    exact (Groups.sum_group _ _ _).trans (h.total_eq (f := (·.callCount)) (fun _ _ _ => rfl) hmonth)

theorem Filled.currentCost_eq {s : UsageLedger} (h : Filled s) (today : ℤ) :
    s.currentCost today = total (·.costUsd) (fun row => decide (firstOfMonth today ≤ row.date)) s.inserted :=
  h.total_eq (fun _ _ _ => rfl) (byKey_date fun date _ => decide (firstOfMonth today ≤ date))

/-- The costs that the budget is held against are those of the summary of the month. -/
theorem Filled.currentCost_eq_summary {s : UsageLedger} (h : Filled s) (next : UsageLedger) : s.currentCost s.today =
    (s.getMonthlySummary next (Calendar.yearOf s.today) (Calendar.monthOf s.today)).totalCostUsd := by
  obtain ⟨hm, -, -, hend⟩ := Calendar.monthOf_spec s.today
  have hlast : s.today < lastDay (Calendar.yearOf s.today) (Calendar.monthOf s.today) := by
    unfold lastDay
    split
    · rename_i hdecember
      rw [hdecember] at hend
      rw [Calendar.ofDate_next_year]
      exact hend
    · rw [Calendar.ofDate_next_month _ hm]
      exact hend
  rw [h.currentCost_eq, (h.summarizes next _ _).cost]
  unfold total
  congr 2
  refine List.filter_congr fun row hrow => ?_
  have hpast := (h.sent row hrow).past
  unfold inMonth firstOfMonth
  rw [decide_eq_decide]
  exact (and_iff_left (lt_of_le_of_lt hpast hlast)).symm

/-! ## Every run of the calls -/

/-- The row that a stage inserts is one that may be inserted, and a check is for a day that has come. -/
structure Ready (s : UsageLedger) (call : RoutedCall) : Prop where
  recording : ∀ row unsure, call.stage = .recording row unsure → Sent s row
  escalation : ∀ row, call.stage = .recordingEscalation row → Sent s row
  checking : ∀ today, call.stage = .checking today → today ≤ s.today

theorem Ready.mono {s s' : UsageLedger} {call : RoutedCall} (h : Ready s call) (hle : s.today ≤ s'.today) :
    Ready s' call :=
  ⟨fun row unsure hstage => (h.recording row unsure hstage).mono hle,
    fun row hstage => (h.escalation row hstage).mono hle, fun today hstage => (h.checking today hstage).trans hle⟩

theorem ready_of_done {s : UsageLedger} {call : RoutedCall} (h : call.stage = .done) : Ready s call := by
  refine ⟨fun row unsure hstage => ?_, fun row hstage => ?_, fun today hstage => ?_⟩
  all_goals
    rw [h] at hstage
    cases hstage

theorem Filled.recordUsage {s : UsageLedger} (h : Filled s) {row : LLMUsage} (hrow : Sent s row) :
    Filled (s.recordUsage row) := by
  refine ⟨?_, fun v hv => ?_⟩
  · show one uqLlmUsageDaily s.rows row = (s.inserted ++ [row]).foldl (one uqLlmUsageDaily) []
    rw [List.foldl_append, ← h.rows]
    rfl
  · have hsent : Sent s v := by
      rcases List.mem_append.1 hv with hv | hv
      · exact h.sent v hv
      · rw [List.mem_singleton.1 hv]
        exact hrow
    exact hsent.mono le_rfl

section Step

variable {monthlyBudgetUsd : Decimal} {s s' : UsageLedger} {call call' : RoutedCall}

theorem today_of_move (h : RoutedCall.Move monthlyBudgetUsd s call s' call') : s'.today = s.today := by
  cases h with
  | insertFails applied row stage hstage => cases applied <;> rfl
  | _ => rfl

/-- The row that a call inserts, or fails to. -/
theorem Ready.sent (h : Ready s call) {row : LLMUsage} {stage : RouteStage}
    (hstage : (∃ unsure, call.stage = .recording row unsure ∧ (stage = .done ∨ stage = .checking s.today)) ∨
      (call.stage = .recordingEscalation row ∧ stage = .done)) : Sent s row := by
  rcases hstage with ⟨unsure, hstage, -⟩ | ⟨hstage, -⟩
  · exact h.recording row unsure hstage
  · exact h.escalation row hstage

theorem filled_of_move (h : RoutedCall.Move monthlyBudgetUsd s call s' call') (hs : Filled s) (hcall : Ready s call) :
    Filled s' := by
  cases h with
  | insert row stage hstage => exact hs.recordUsage (hcall.sent hstage)
  | insertFails applied row stage hstage =>
    cases applied with
    | true => exact hs.recordUsage (hcall.sent hstage)
    | false => exact hs
  | _ => exact hs

theorem ready_of_next {stage : RouteStage} (hnext : stage = .done ∨ stage = .checking s.today)
    (hstage : call'.stage = stage) (htoday : s'.today = s.today) : Ready s' call' := by
  rcases hnext with rfl | rfl
  · exact ready_of_done hstage
  · refine ⟨fun row unsure h => ?_, fun row h => ?_, fun today h => ?_⟩
    · rw [hstage] at h
      cases h
    · rw [hstage] at h
      cases h
    · rw [hstage] at h
      cases h
      exact htoday.ge

theorem ready_of_move (h : RoutedCall.Move monthlyBudgetUsd s call s' call') (hcall : Ready s call) :
    Ready s' call' := by
  have htoday := today_of_move h
  cases h with
  | idle => exact hcall
  | answer usage unsure row hstage hrow =>
    refine ⟨fun row' unsure' h => ?_, fun row' h => ?_, fun today h => ?_⟩
    · cases h
      rw [hrow]
      exact sent_ofUsage s call.agentType false usage
    · cases h
    · cases h
  | answerAgain usage row hstage hrow =>
    refine ⟨fun row' unsure' h => ?_, fun row' h => ?_, fun today h => ?_⟩
    · cases h
    · cases h
      rw [hrow]
      exact sent_ofUsage s call.agentType true usage
    · cases h
  | insert row stage hstage =>
    rcases hstage with ⟨unsure, -, hnext⟩ | ⟨-, hnext⟩
    · exact ready_of_next hnext rfl htoday
    · exact ready_of_next (.inl hnext) rfl htoday
  | insertFails applied row stage hstage =>
    have hstage' : (call.recordFails s applied row stage).2.stage = stage := by cases applied <;> rfl
    rcases hstage with ⟨unsure, -, hnext⟩ | ⟨-, hnext⟩
    · exact ready_of_next hnext hstage' htoday
    · exact ready_of_next (.inl hnext) hstage' htoday
  | admitted today hstage hbudget =>
    refine ⟨fun row unsure h => ?_, fun row h => ?_, fun today h => ?_⟩ <;> cases h
  | finish hstage => exact ready_of_done rfl

end Step

variable {monthlyBudgetUsd budgetWarningPct : Decimal}

theorem usage_invariant : Pool.Invariant (system monthlyBudgetUsd budgetWarningPct) Filled
    (fun s call => Ready s call ∧ RoutedCall.Due call) (fun _ _ => True) where
  start agentType s call _ h := by
    cases h
    refine ⟨⟨⟨fun _ _ h => ?_, fun _ h => ?_, fun _ h => ?_⟩, rfl, ⟨List.Sublist.refl _, fun _ => rfl⟩, rfl⟩,
      fun _ _ => ⟨trivial, trivial⟩⟩ <;> cases h
  env days s h := by
    have hle : s.today ≤ s.today + days := by omega
    exact ⟨⟨h.rows, fun row hrow => (h.sent row hrow).mono hle⟩, fun call hcall => ⟨hcall.1.mono hle, hcall.2⟩⟩
  step choice s call h hcall := by
    have hmove := RoutedCall.step_move monthlyBudgetUsd budgetWarningPct s call choice
    exact ⟨filled_of_move hmove h hcall.1, ready_of_move hmove hcall.1, hmove.due hcall.2⟩
  others choice s call other _ _ hother _ _ := by
    have hmove := RoutedCall.step_move monthlyBudgetUsd budgetWarningPct s call choice
    exact ⟨⟨hother.1.mono (today_of_move hmove).ge, hother.2⟩, trivial, trivial⟩

theorem usage_collects : Pool.Collects (system monthlyBudgetUsd budgetWarningPct) Filled
    (fun s call => Ready s call ∧ RoutedCall.Due call) UsageLedger.inserted RoutedCall.inserted where
  start agentType s call h := by
    cases h
    rfl
  env _ _ := rfl
  step choice s call _ _ := by
    have hmove := RoutedCall.step_move monthlyBudgetUsd budgetWarningPct s call choice
    show ∃ new, (call.step monthlyBudgetUsd budgetWarningPct s call.stage choice).1.inserted = s.inserted ++ new ∧
      (call.step monthlyBudgetUsd budgetWarningPct s call.stage choice).2.inserted = call.inserted ++ new
    generalize call.step monthlyBudgetUsd budgetWarningPct s call.stage choice = next at hmove ⊢
    obtain ⟨s', call'⟩ := next
    dsimp only at hmove ⊢
    cases hmove with
    | insert row stage hstage => exact ⟨[row], rfl, rfl⟩
    | insertFails applied row stage hstage =>
      cases applied with
      | true => exact ⟨[row], rfl, rfl⟩
      | false => exact ⟨[], (List.append_nil _).symm, (List.append_nil _).symm⟩
    | _ => exact ⟨[], (List.append_nil _).symm, (List.append_nil _).symm⟩

/-- The table is exact: each call is billed for its answers, each row adds up what the calls inserted under its key,
which no other row has, every month is summarised by what the calls inserted when the statement for the whole or that
for the providers found the table, and the budget is held against the summary of the month. -/
structure UsageExact (p : Pool.State UsageLedger RoutedCall) : Prop where
  billed : ∀ call ∈ p.tasks, RoutedCall.Billed call
  rows : ∀ row ∈ p.shared.rows, AddsUp row ((p.tasks.flatMap RoutedCall.inserted).filter fun v =>
    decide (uqLlmUsageDaily.key v = uqLlmUsageDaily.key row))
  apart : p.shared.rows.Pairwise fun row row' => uqLlmUsageDaily.key row ≠ uqLlmUsageDaily.key row'
  kept : ∀ call ∈ p.tasks, ∀ v ∈ call.inserted, ∃ row ∈ p.shared.rows, uqLlmUsageDaily.key row = uqLlmUsageDaily.key v
  months : ∀ (next : UsageLedger) (year : ℤ) (month : ℕ), Summarizes (p.tasks.flatMap RoutedCall.inserted) year month
    (p.shared.getMonthlySummary next year month)
  providers : ∀ (first : UsageLedger) (year : ℤ) (month : ℕ), SummarizesProviders
    (p.tasks.flatMap RoutedCall.inserted) year month (first.getMonthlySummary p.shared year month)
  budget : ∀ next : UsageLedger, p.shared.currentCost p.shared.today = (p.shared.getMonthlySummary next
    (Calendar.yearOf p.shared.today) (Calendar.monthOf p.shared.today)).totalCostUsd

/-- However routed calls interleave, and whichever of their recordings fail, the table is exact. -/
theorem usage_exact (monthlyBudgetUsd budgetWarningPct : Decimal) (today : ℤ)
    (events : List (Pool.Event String ℕ RouteChoice)) :
    UsageExact ((system monthlyBudgetUsd budgetWarningPct).run events ⟨{ today }, []⟩) := by
  have hstart : Pool.Holds Filled (fun s call => Ready s call ∧ RoutedCall.Due call) (fun _ _ => True)
      (⟨{ today }, []⟩ : Pool.State UsageLedger RoutedCall) :=
    Pool.holds_nil ⟨rfl, fun row hrow => (by cases hrow)⟩
  have hholds := (@usage_invariant monthlyBudgetUsd budgetWarningPct).run hstart events
  have hperm := (@usage_collects monthlyBudgetUsd budgetWarningPct).run usage_invariant hstart (List.Perm.refl _) events
  generalize (system monthlyBudgetUsd budgetWarningPct).run events ⟨{ today }, []⟩ = p at hholds hperm
  have hfilled := hholds.shared
  refine ⟨fun call hcall => ?_, fun row hrow => (hfilled.addsUp hrow).perm (hperm.filter _), ?_,
    fun call hcall v hv => ?_, fun next year month => (hfilled.summarizes next year month).perm hperm,
    fun first year month => (hfilled.summarizesProviders first year month).perm hperm,
    hfilled.currentCost_eq_summary⟩
  · obtain ⟨i, hi⟩ := List.getElem?_of_mem hcall
    exact (hholds.tasks i call hi).2.billed
  · rw [hfilled.rows]
    refine (pairwise_foldl_one List.Pairwise.nil).imp fun {a b} hab hkey => hab ⟨?_, hkey.symm⟩
    exact Option.some_ne_none _
  · have hmem : v ∈ p.shared.inserted := hperm.mem_iff.2 (List.mem_flatMap.2 ⟨call, hcall, hv⟩)
    rw [hfilled.rows]
    exact (exists_key_filled_iff (v.date, v.provider, v.model, v.agentType) _).2 ⟨v, hmem, rfl⟩

/-! ## The budget of a month -/

theorem firstOfMonth_mono {a b : ℤ} (h : Calendar.monthIndex a ≤ Calendar.monthIndex b) :
    firstOfMonth a ≤ firstOfMonth b := by
  obtain ⟨ha, ha12, -, -⟩ := Calendar.monthOf_spec a
  obtain ⟨hb, hb12, -, -⟩ := Calendar.monthOf_spec b
  unfold firstOfMonth
  by_cases hsame : Calendar.yearOf a = Calendar.yearOf b ∧ Calendar.monthOf a = Calendar.monthOf b
  · rw [hsame.1, hsame.2]
  · have hbefore : Calendar.yearOf a < Calendar.yearOf b ∨
        Calendar.yearOf a = Calendar.yearOf b ∧ Calendar.monthOf a < Calendar.monthOf b := by
      unfold Calendar.monthIndex at h
      omega
    have hle := Calendar.ofDate_first_add_le ha ha12 hbefore
    have hdays := (Calendar.daysInMonth_bounds (Calendar.yearOf a) (Calendar.monthOf a)).1
    omega

/-- A wider selection costs no less. -/
theorem total_cost_mono {p q : LLMUsage → Bool} (hpq : ∀ row, p row = true → q row = true) :
    ∀ {rows : List LLMUsage}, (∀ row ∈ rows, 0 ≤ row.costUsd) → total (·.costUsd) p rows ≤ total (·.costUsd) q rows
  | [], _ => le_rfl
  | row :: rows, h => by
    have hcost := h row List.mem_cons_self
    have hrest := total_cost_mono hpq fun row hrow => h row (List.mem_cons_of_mem _ hrow)
    have hfirst : (if p row then row.costUsd else 0) ≤ if q row then row.costUsd else 0 := by
      split
      · rename_i hp
        rw [if_pos (hpq row hp)]
      · split
        · exact hcost
        · exact le_rfl
    rw [total_cons, total_cons]
    exact add_le_add hfirst hrest

/-- From an earlier month on the costs are no less. -/
theorem Filled.currentCost_mono {s : UsageLedger} (h : Filled s) {a b : ℤ}
    (hmonth : Calendar.monthIndex a ≤ Calendar.monthIndex b) : s.currentCost b ≤ s.currentCost a := by
  have hfirst := firstOfMonth_mono hmonth
  rw [h.currentCost_eq, h.currentCost_eq]
  refine total_cost_mono (fun row hrow => ?_) fun row hrow => (h.sent row hrow).cost
  rw [decide_eq_true_eq] at hrow ⊢
  exact hfirst.trans hrow

/-- An insertion takes nothing from the costs. -/
theorem Filled.currentCost_le {s s' : UsageLedger} (h : Filled s) (h' : Filled s') (today : ℤ) {new : List LLMUsage}
    (hnew : s'.inserted = s.inserted ++ new) : s.currentCost today ≤ s'.currentCost today := by
  have hcost : ∀ row ∈ new, 0 ≤ row.costUsd := fun row hrow =>
    (h'.sent row (by rw [hnew]; exact List.mem_append_right _ hrow)).cost
  have hadded : 0 ≤ total (·.costUsd) (fun row => decide (firstOfMonth today ≤ row.date)) new := by
    have hnone : total (·.costUsd) (fun _ => false) new = 0 := by simp [total]
    rw [← hnone]
    exact total_cost_mono (fun row hrow => by cases hrow) hcost
  rw [h.currentCost_eq, h'.currentCost_eq, hnew, total_append]
  exact le_add_of_nonneg_right hadded

/-- What a run keeps once the budget of a month is used up. -/
structure UsedUp (monthlyBudgetUsd : Decimal) (p q : Pool.State UsageLedger RoutedCall) : Prop where
  holds : Pool.Holds Filled (fun s call => Ready s call ∧ RoutedCall.Due call) (fun _ _ => True) q
  later : p.shared.today ≤ q.shared.today
  cost : monthlyBudgetUsd ≤ q.shared.currentCost p.shared.today
  admitted : Calendar.monthIndex q.shared.today = Calendar.monthIndex p.shared.today →
    ∀ (i : ℕ) (call' : RoutedCall), q.tasks[i]? = some call' → call'.admitted = true →
      ∃ call, p.tasks[i]? = some call ∧ call.admitted = true

theorem admitted_of_move {s s' : UsageLedger} {call call' : RoutedCall}
    (h : RoutedCall.Move monthlyBudgetUsd s call s' call') (hadmitted : call'.admitted = true) :
    call.admitted = true ∨ ∃ today, call.stage = .checking today ∧
      ¬ (0 < monthlyBudgetUsd ∧ monthlyBudgetUsd ≤ s.currentCost today) := by
  cases h with
  | admitted today hstage hbudget => exact .inr ⟨today, hstage, hbudget⟩
  | insertFails applied row stage hstage => cases applied <;> exact .inl hadmitted
  | _ => exact .inl hadmitted

theorem inserted_of_move {s s' : UsageLedger} {call call' : RoutedCall}
    (h : RoutedCall.Move monthlyBudgetUsd s call s' call') : ∃ new, s'.inserted = s.inserted ++ new := by
  cases h with
  | insert row stage hstage => exact ⟨[row], rfl⟩
  | insertFails applied row stage hstage =>
    cases applied with
    | true => exact ⟨[row], rfl⟩
    | false => exact ⟨[], (List.append_nil _).symm⟩
  | _ => exact ⟨[], (List.append_nil _).symm⟩

theorem UsedUp.move {p q q' : Pool.State UsageLedger RoutedCall} (hpos : 0 < monthlyBudgetUsd)
    (h : UsedUp monthlyBudgetUsd p q) (hmove : (system monthlyBudgetUsd budgetWarningPct).Move q q') :
    UsedUp monthlyBudgetUsd p q' := by
  have hholds := usage_invariant.move q q' h.holds hmove
  cases hmove with
  | idle => exact h
  | start agentType call hstart =>
    refine ⟨hholds, h.later, h.cost, fun hmonth i call' hcall' hadmitted => ?_⟩
    rcases Pool.getElem?_append_cases hcall' with hcall' | ⟨-, rfl⟩
    · exact h.admitted hmonth i call' hcall' hadmitted
    · cases hstart
      cases hadmitted
  | env days =>
    have hle : q.shared.today ≤ q.shared.today + (days : ℤ) := by omega
    refine ⟨hholds, h.later.trans hle, h.cost, fun hmonth i call' hcall' hadmitted => ?_⟩
    -- the month before the days passed lies between the same two months
    have hfirst := Calendar.monthIndex_mono h.later
    have hsecond : Calendar.monthIndex q.shared.today ≤ Calendar.monthIndex (q.shared.today + (days : ℤ)) :=
      Calendar.monthIndex_mono hle
    have hsame : Calendar.monthIndex (q.shared.today + (days : ℤ)) = Calendar.monthIndex p.shared.today := hmonth
    exact h.admitted (by omega) i call' hcall' hadmitted
  | step j choice call hcall =>
    have hstep := RoutedCall.step_move monthlyBudgetUsd budgetWarningPct q.shared call choice
    have htoday : ((system monthlyBudgetUsd budgetWarningPct).step choice q.shared call).1.today = q.shared.today :=
      today_of_move hstep
    obtain ⟨new, hnew⟩ := inserted_of_move hstep
    refine ⟨hholds, ?_, h.cost.trans (h.holds.shared.currentCost_le hholds.shared _ hnew),
      fun hmonth i call' hcall' hadmitted => ?_⟩
    · dsimp only
      rw [htoday]
      exact h.later
    · dsimp only at hmonth
      rw [htoday] at hmonth
      rcases Pool.getElem?_set_cases hcall' with ⟨rfl, rfl⟩ | ⟨-, hcall'⟩
      · rcases admitted_of_move hstep hadmitted with hbefore | ⟨today, hstage, hbudget⟩
        · exact h.admitted hmonth i call hcall hbefore
        · -- the check is for a day of this month or an earlier one
          have hday := (h.holds.tasks i call hcall).1.checking today hstage
          have hindex := Calendar.monthIndex_mono hday
          have hmore := h.holds.shared.currentCost_mono (hindex.trans hmonth.le)
          exact absurd ⟨hpos, h.cost.trans hmore⟩ hbudget
      · exact h.admitted hmonth i call' hcall' hadmitted

/-- Once the costs of a month have used up the budget, no call is admitted to a second model in that month that was
not admitted before, however the calls interleave. -/
theorem escalations_latched (monthlyBudgetUsd budgetWarningPct : Decimal) (today : ℤ)
    (before after : List (Pool.Event String ℕ RouteChoice)) :
    let p := (system monthlyBudgetUsd budgetWarningPct).run before ⟨{ today }, []⟩
    let q := (system monthlyBudgetUsd budgetWarningPct).run after p
    0 < monthlyBudgetUsd → monthlyBudgetUsd ≤ p.shared.currentCost p.shared.today →
    Calendar.monthIndex q.shared.today = Calendar.monthIndex p.shared.today →
    ∀ (i : ℕ) (call' : RoutedCall), q.tasks[i]? = some call' → call'.admitted = true →
      ∃ call, p.tasks[i]? = some call ∧ call.admitted = true := by
  intro p q hpos hcost hmonth
  have hholds := (@usage_invariant monthlyBudgetUsd budgetWarningPct).run (p := ⟨{ today }, []⟩)
    (Pool.holds_nil ⟨rfl, fun row hrow => (by cases hrow)⟩) before
  have hused : UsedUp monthlyBudgetUsd p q := Pool.run_keeps (fun _ _ h hmove => h.move hpos hmove)
    ⟨hholds, le_rfl, hcost, fun _ i call' hcall' hadmitted => ⟨call', hcall', hadmitted⟩⟩ after
  exact hused.admitted hmonth

/-- The usage of an expensive answer. -/
def hundredUsd : ModelUsage :=
  { provider := .openai, model := "gpt-4o", tokensIn := 1000, tokensOut := 10, costUsd := 100 }

/-- A first call uses up the budget before its own check, and a second one comes after it. -/
theorem escalations_latched_two :
    let p := (system 100 80).run [.start "trader", .step 0 (.answers hundredUsd true), .step 0 .returns]
      ⟨{ today := 20000 }, []⟩
    let q := (system 100 80).run [.start "stock_analyst", .step 1 (.answers hundredUsd true), .step 1 .returns,
      .step 0 .returns, .step 1 .returns] p
    (q.shared.rows.map fun row => (row.agentType, row.costUsd)) = [("trader", 100), ("stock_analyst", 100)] ∧
      ∀ (i : ℕ) (call' : RoutedCall), q.tasks[i]? = some call' → call'.admitted = true →
        ∃ call, p.tasks[i]? = some call ∧ call.admitted = true := by
  refine ⟨by decide +kernel, ?_⟩
  exact escalations_latched 100 80 20000 _ _ (by norm_num) (by decide +kernel) (by decide +kernel)

end UsageLedger

end TradingAgent
