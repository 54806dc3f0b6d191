/-
What the silence of the monitor means. A check that is due sends an alert unless it finds a marker of its subject and
day; a marker stands for a delivered alert as long as no alert that was not delivered has left one.
-/
import TradingAgent.Scheduler.Monitor
import TradingAgent.Lib.Keys

namespace TradingAgent

open Wp

/-! ## Subjects -/

theorem MonitoringAlertType.colon_notMem_value (type : MonitoringAlertType) : ':' ∉ type.value.toList := by
  cases type with
  | stopLossProximity => decide +kernel
  | sectorConcentration => decide +kernel
  | llmBudget => decide +kernel
  | portfolioDrawdown => decide +kernel

theorem MonitoringAlertType.value_injective : Function.Injective MonitoringAlertType.value := by
  intro a b h
  cases a with
  | stopLossProximity => cases b with
    | stopLossProximity => rfl
    | _ => exact absurd h (by decide +kernel)
  | sectorConcentration => cases b with
    | sectorConcentration => rfl
    | _ => exact absurd h (by decide +kernel)
  | llmBudget => cases b with
    | llmBudget => rfl
    | _ => exact absurd h (by decide +kernel)
  | portfolioDrawdown => cases b with
    | portfolioDrawdown => rfl
    | _ => exact absurd h (by decide +kernel)

/-- What an alert is about. The budget is that of all accounts. -/
inductive AlertSubject
  | stopLoss (accountId symbol : String)
  | sector (accountId name : String)
  | llmBudget
  | drawdown (accountId : String)
  deriving DecidableEq

namespace AlertSubject

/-- The key of the marker of a subject on a day. -/
def dedupKey (day : PyDate) : AlertSubject → String
  | stopLoss accountId symbol => "stop_loss_proximity:" ++ accountId ++ ":" ++ symbol ++ ":" ++ day.isoformat
  | sector accountId name => "sector_concentration:" ++ accountId ++ ":" ++ name ++ ":" ++ day.isoformat
  | llmBudget => "llm_budget:monthly:" ++ day.isoformat
  | drawdown accountId => "portfolio_drawdown:" ++ accountId ++ ":portfolio:" ++ day.isoformat

/-- The type of the alerts about a subject, with which its key starts. -/
def alertType : AlertSubject → MonitoringAlertType
  | stopLoss _ _ => .stopLossProximity
  | sector _ _ => .sectorConcentration
  | llmBudget => .llmBudget
  | drawdown _ => .portfolioDrawdown

/-- The part of a key between the first colon and the last. -/
def name : AlertSubject → String
  | stopLoss accountId symbol => accountId ++ ":" ++ symbol
  | sector accountId name => accountId ++ ":" ++ name
  | llmBudget => "monthly"
  | drawdown accountId => accountId ++ ":" ++ "portfolio"

/-- The account of a subject has no colon. -/
def Plain : AlertSubject → Prop
  | stopLoss accountId _ => ':' ∉ accountId.toList
  | sector accountId _ => ':' ∉ accountId.toList
  | llmBudget => True
  | drawdown accountId => ':' ∉ accountId.toList

theorem dedupKey_eq (day : PyDate) (subject : AlertSubject) :
    subject.dedupKey day = subject.alertType.value ++ ":" ++ subject.name ++ ":" ++ day.isoformat := by
  have hstop : "stop_loss_proximity:" = "stop_loss_proximity" ++ ":" := by decide +kernel
  have hsector : "sector_concentration:" = "sector_concentration" ++ ":" := by decide +kernel
  have hbudget : "llm_budget:monthly:" = "llm_budget" ++ ":" ++ "monthly" ++ ":" := by decide +kernel
  have hdrawdown : "portfolio_drawdown:" = "portfolio_drawdown" ++ ":" := by decide +kernel
  have hportfolio : ":portfolio:" = ":" ++ "portfolio" ++ ":" := by decide +kernel
  unfold dedupKey alertType name MonitoringAlertType.value
  cases subject with
  | stopLoss accountId symbol => simp only [hstop, String.append_assoc]
  | sector accountId name => simp only [hsector, String.append_assoc]
  | llmBudget => simp only [hbudget, String.append_assoc]
  | drawdown accountId => simp only [hdrawdown, hportfolio, String.append_assoc]

/-- Two texts joined by a colon are the same only if their parts are, provided the colon is the first. -/
theorem join_inj {a b x y : String} (ha : ':' ∉ a.toList) (hb : ':' ∉ b.toList)
    (h : a ++ ":" ++ x = b ++ ":" ++ y) : a = b ∧ x = y := by
  have hlist : a.toList ++ ':' :: x.toList = b.toList ++ ':' :: y.toList := by
    have := congrArg String.toList h
    simpa using this
  obtain ⟨hab, hxy⟩ := Keys.cons_append_inj ha hb hlist
  exact ⟨String.toList_inj.1 hab, String.toList_inj.1 hxy⟩

/-- A subject is read off its kind and name. -/
theorem eq_of_name {a b : AlertSubject} (ha : a.Plain) (hb : b.Plain) (htype : a.alertType = b.alertType)
    (hname : a.name = b.name) : a = b := by
  cases a with
  | stopLoss accountId symbol =>
    cases b with
    | stopLoss accountId' symbol' =>
      obtain ⟨rfl, rfl⟩ := join_inj ha hb hname
      rfl
    | sector => cases htype
    | llmBudget => cases htype
    | drawdown => cases htype
  | sector accountId name =>
    cases b with
    | stopLoss => cases htype
    | sector accountId' name' =>
      obtain ⟨rfl, rfl⟩ := join_inj ha hb hname
      rfl
    | llmBudget => cases htype
    | drawdown => cases htype
  | llmBudget =>
    cases b with
    | stopLoss => cases htype
    | sector => cases htype
    | llmBudget => rfl
    | drawdown => cases htype
  | drawdown accountId =>
    cases b with
    | stopLoss => cases htype
    | sector => cases htype
    | llmBudget => cases htype
    | drawdown accountId' =>
      obtain ⟨rfl, -⟩ := join_inj ha hb hname
      rfl

/-- Different subjects and days have different keys. -/
theorem dedupKey_inj {a b : AlertSubject} {day day' : PyDate} (ha : a.Plain) (hb : b.Plain)
    (h : a.dedupKey day = b.dedupKey day') : a = b ∧ day = day' := by
  rw [dedupKey_eq, dedupKey_eq] at h
  obtain ⟨hfront, hday⟩ := Keys.join_inj (PyDate.colon_notMem_isoformat day) (PyDate.colon_notMem_isoformat day') h
  obtain ⟨hvalue, hname⟩ := join_inj (MonitoringAlertType.colon_notMem_value _)
    (MonitoringAlertType.colon_notMem_value _) hfront
  exact ⟨eq_of_name ha hb (MonitoringAlertType.value_injective hvalue) hname, PyDate.isoformat_injective hday⟩

end AlertSubject

/-- The subject of an alert. -/
def Sent.subject (s : Sent) : AlertSubject :=
  match s.alert.alertType with
  | .stopLossProximity => .stopLoss s.accountId (s.alert.symbol.getD "")
  | .sectorConcentration => .sector s.accountId (s.alert.symbol.getD "")
  | .llmBudget => .llmBudget
  | .portfolioDrawdown => .drawdown s.accountId

namespace TradingMonitor

variable (m : TradingMonitor) (env : MonitorEnv)

/-! ## What a check owes -/

/-- The data of a check is there, and its condition holds. -/
def Due : CheckSite → AlertSubject → Prop
  | .position i, subject => ∃ positions pos current, env.positions = .ok positions ∧ positions[i]? = some pos ∧
      0 < pos.stopLossPrice ∧ env.price i = .ok current ∧ 0 < current ∧
      distancePct current pos.stopLossPrice ≤ m.stopLossProximityPct ∧ subject = .stopLoss m.accountId pos.symbol
  | .sector name, subject => ∃ state allocation, env.sectorState = .ok state ∧
      state.sectorAllocations.get? name = some allocation ∧ m.sectorWeightWarnPct < allocation ∧
      subject = .sector m.accountId name
  | .llmBudget, subject => ∃ budget, env.cost.getBudgetStatus = .ok budget ∧
      m.llmBudgetWarnPct ≤ budget.usagePercent ∧ subject = .llmBudget
  | .drawdown, subject => ∃ state, env.drawdownState = .ok state ∧ m.maxDrawdownPct ≤ state.drawdownPct ∧
      subject = .drawdown m.accountId

/-- An alert about a subject that arrived on the day of a check and less than the lifetime of a marker before it. -/
def Recent (site : CheckSite) (subject : AlertSubject) (s : Sent) : Prop :=
  s.subject = subject ∧ s.day = env.today site ∧ env.now site < s.time + alertTtl

/-- Between two states a check hands an alert to the bot, or one has been delivered already. -/
def Answered (site : CheckSite) (subject : AlertSubject) (w w' : Alerts) : Prop :=
  (∃ new, w'.sent = w.sent ++ new ∧ ∃ s ∈ new, s.site = site) ∨
    ∃ s ∈ w'.sent, s.delivered = true ∧ Recent env site subject s

/-- No alert that does not arrive leaves a marker, and none raises more than the bot catches. -/
def NothingLost : Prop :=
  ∀ site, TelegramBot.delivers m.botDisabled (env.send site) = true ∨
    (∃ messageId, TelegramBot.sendMessage m.botDisabled (env.send site) = .ok messageId) ∧ env.cacheWritten site = false

/-- Every marker stands for an alert that was delivered. -/
structure Backed (w : Alerts) : Prop where
  marker : ∀ key ends, w.cache.get? key = some ends → ∃ s ∈ w.sent, s.delivered = true ∧
    key = RedisCache.makeKey alertNs (s.subject.dedupKey s.day) ∧ ends = s.time + alertTtl
  plain : ∀ s ∈ w.sent, s.subject.Plain

/-- Between two states every check that is due hands an alert to the bot, or its subject has been reported. -/
structure Step (due : CheckSite → AlertSubject → Prop) (w w' : Alerts) : Prop where
  backed : Backed w'
  grows : w.sent <+: w'.sent
  answered : ∀ site subject, due site subject → Answered env site subject w w'

variable {m env} {w w' : Alerts}

/-! ## Steps -/

theorem Answered.mono {site : CheckSite} {subject : AlertSubject} {w₀ w₁ : Alerts}
    (h : Answered env site subject w w') (hbefore : w₀.sent <+: w.sent) (hafter : w'.sent <+: w₁.sent) :
    Answered env site subject w₀ w₁ := by
  obtain ⟨before, hbefore⟩ := hbefore
  obtain ⟨after, hafter⟩ := hafter
  rcases h with ⟨new, hnew, s, hs, hsite⟩ | ⟨s, hs, hdelivered⟩
  · refine .inl ⟨before ++ new ++ after, ?_, s, by simp [hs], hsite⟩
    rw [← hafter, hnew, ← hbefore]
    simp
  · exact .inr ⟨s, hafter ▸ List.mem_append_left after hs, hdelivered⟩

theorem Step.refl {due : CheckSite → AlertSubject → Prop} (h : Backed w) (hnone : ∀ site subject, ¬ due site subject) :
    Step env due w w :=
  ⟨h, List.prefix_refl _, fun site subject hdue => absurd hdue (hnone site subject)⟩

theorem Step.trans {due due' : CheckSite → AlertSubject → Prop} {w₁ : Alerts} (h : Step env due w w')
    (h' : Step env due' w' w₁) : Step env (fun site subject => due site subject ∨ due' site subject) w w₁ := by
  refine ⟨h'.backed, h.grows.trans h'.grows, fun site subject hdue => ?_⟩
  rcases hdue with hdue | hdue
  · exact (h.answered site subject hdue).mono (List.prefix_refl _) h'.grows
  · exact (h'.answered site subject hdue).mono h.grows (List.prefix_refl _)

theorem Step.imp {due due' : CheckSite → AlertSubject → Prop} (h : Step env due w w')
    (hdue : ∀ site subject, due' site subject → due site subject) : Step env due' w w' :=
  ⟨h.backed, h.grows, fun site subject h' => h.answered site subject (hdue site subject h')⟩

/-- An alert that is handed to the bot answers its check. -/
theorem Step.of_sent {due : CheckSite → AlertSubject → Prop} {s : Sent} (h : Backed w')
    (hsent : w'.sent = w.sent ++ [s])
    (hdue : ∀ site subject, due site subject → s.site = site) : Step env due w w' :=
  ⟨h, ⟨[s], hsent.symm⟩, fun site subject hd => .inl ⟨[s], hsent, s, List.mem_singleton_self s, hdue site subject hd⟩⟩

/-! ## Markers -/

theorem markAlertSent_spec (site : CheckSite) (dedupKey : String) (w : Alerts) :
    wp (markAlertSent env site dedupKey) (fun _ w' => w'.sent = w.sent ∧
      (w'.cache = w.cache ∨ env.cacheWritten site = true ∧
        w'.cache = RedisCache.set w.cache alertNs dedupKey (env.now site + alertTtl))) (fun _ _ => False) w := by
  unfold markAlertSent
  rw [wp_tryCatch]
  dsimp only
  rw [wp_ite]
  cases hset : env.cacheSet site with
  | none =>
    split
    · rename_i hwritten
      exact ⟨rfl, .inr ⟨hwritten, rfl⟩⟩
    · exact ⟨rfl, .inl rfl⟩
  | some e =>
    split
    · rename_i hwritten
      exact ⟨rfl, .inr ⟨hwritten, rfl⟩⟩
    · exact ⟨rfl, .inl rfl⟩

/-- A marker that is found stands for an alert about its subject that was delivered. -/
theorem isAlertSentToday_spec (h : Backed w) (site : CheckSite) {subject : AlertSubject} (hplain : subject.Plain)
    {dedupKey : String} (hkey : dedupKey = subject.dedupKey (env.today site)) :
    wp (isAlertSentToday env site dedupKey) (fun found w' => w' = w ∧ (found = true →
      ∃ s ∈ w.sent, s.delivered = true ∧ Recent env site subject s)) (fun _ _ => False) w := by
  unfold isAlertSentToday
  rw [wp_tryCatch]
  cases env.cacheGet site with
  | some e => exact ⟨rfl, fun hfound => by cases hfound⟩
  | none =>
    refine ⟨rfl, fun hfound => ?_⟩
    unfold RedisCache.get at hfound
    obtain ⟨ends, hends, hlt⟩ := (Option.any_eq_true _ _).1 hfound
    obtain ⟨s, hs, hdelivered, heq, htime⟩ := h.marker _ _ hends
    rw [hkey] at heq
    obtain ⟨hsubject, hday⟩ := AlertSubject.dedupKey_inj hplain (h.plain s hs) (RedisCache.makeKey_inj heq)
    exact ⟨s, hs, hdelivered, hsubject.symm, hday.symm, htime ▸ of_decide_eq_true hlt⟩

/-- One alert more, and a marker only if it was delivered. -/
theorem backed_concat (h : Backed w) {s : Sent} (hplain : s.subject.Plain) (hsent : w'.sent = w.sent ++ [s])
    (hcache : w'.cache = w.cache ∨ s.delivered = true ∧
      w'.cache = RedisCache.set w.cache alertNs (s.subject.dedupKey s.day) (s.time + alertTtl)) : Backed w' := by
  have hold : ∀ key ends, w.cache.get? key = some ends → ∃ s ∈ w'.sent, s.delivered = true ∧
      key = RedisCache.makeKey alertNs (s.subject.dedupKey s.day) ∧ ends = s.time + alertTtl := by
    intro key ends hget
    obtain ⟨s', hs', hmarker⟩ := h.marker key ends hget
    exact ⟨s', hsent ▸ List.mem_append_left _ hs', hmarker⟩
  constructor
  · intro key ends hget
    rcases hcache with hcache | ⟨hdelivered, hcache⟩
    · exact hold key ends (hcache ▸ hget)
    · rw [hcache] at hget
      unfold RedisCache.set at hget
      rw [Dict.get?_set] at hget
      split at hget
      · rename_i hkey
        exact ⟨s, hsent ▸ List.mem_append_right _ (List.mem_singleton_self s), hdelivered, hkey,
          (Option.some.inj hget).symm⟩
      · exact hold key ends hget
  · intro s' hs'
    rw [hsent] at hs'
    rcases List.mem_append.1 hs' with hs' | hs'
    · exact h.plain s' hs'
    · rw [List.mem_singleton.1 hs']
      exact hplain

/-! ## The checks -/

/-- An alert is handed to the bot, and its marker is backed. -/
theorem raiseAlert_spec (hcareful : NothingLost m env) (h : Backed w) {site : CheckSite} {alert : MonitoringAlert}
    {subject : AlertSubject} (hplain : subject.Plain) {dedupKey : String}
    (hkey : dedupKey = subject.dedupKey (env.today site))
    (hsubject : ∀ delivered, Sent.subject ⟨site, m.accountId, alert, env.today site, env.now site, delivered⟩ =
      subject) :
    wp (m.raiseAlert env site dedupKey alert) (fun _ w' => Step env (fun site' _ => site' = site) w w')
      (fun _ _ => False) w := by
  let s : Sent := ⟨site, m.accountId, alert, env.today site, env.now site,
    TelegramBot.delivers m.botDisabled (env.send site)⟩
  have hsend : ∃ messageId, TelegramBot.sendMessage m.botDisabled (env.send site) = .ok messageId := by
    rcases hcareful site with hdelivers | ⟨hok, -⟩
    · unfold TelegramBot.sendMessage
      split
      · exact ⟨_, rfl⟩
      · cases hsending : env.send site with
        | delivered messageId => exact ⟨_, rfl⟩
        | apiError => exact ⟨_, rfl⟩
        | raised e =>
          rw [hsending] at hdelivers
          cases hdelivers
    · exact hok
  obtain ⟨messageId, hsend⟩ := hsend
  unfold raiseAlert sendAlert
  rw [wp_bind, wp_bind, wp_modify, hsend]
  dsimp only
  rw [wp_pure, wp_bind]
  refine wp_mono (markAlertSent_spec site dedupKey _) (fun _ w' hmark => ?_) fun _ _ hfalse => hfalse
  obtain ⟨hsent, hcache⟩ := hmark
  have hcache' : w'.cache = w.cache ∨ s.delivered = true ∧
      w'.cache = RedisCache.set w.cache alertNs (s.subject.dedupKey s.day) (s.time + alertTtl) := by
    rcases hcache with hcache | ⟨hwritten, hcache⟩
    · exact .inl hcache
    · refine .inr ⟨?_, ?_⟩
      · rcases hcareful site with hdelivers | ⟨-, hnot⟩
        · exact hdelivers
        · rw [hwritten] at hnot
          cases hnot
      · rw [hcache, hkey, show s.subject = subject from hsubject _]
  have hbacked := backed_concat h (show s.subject.Plain from (hsubject _).symm ▸ hplain) hsent hcache'
  exact .of_sent hbacked hsent fun site' _ hsite => hsite.symm

/-- A check that looks for its marker first and sends an alert if there is none. -/
theorem isAlertSentToday_bind_spec {α : Type} (h : Backed w) (site : CheckSite) {subject : AlertSubject}
    (hplain : subject.Plain) {dedupKey : String} (hkey : dedupKey = subject.dedupKey (env.today site))
    {due : CheckSite → AlertSubject → Prop}
    (hdue : ∀ site' subject', due site' subject' → site' = site ∧ subject' = subject)
    {suppressed x : M α}
    (hsuppressed : wp suppressed (fun _ w' => w' = w) (fun _ _ => False) w)
    (hx : wp x (fun _ w' => Step env due w w') (fun _ _ => False) w) :
    wp (do if ← isAlertSentToday env site dedupKey then suppressed else x) (fun _ w' => Step env due w w')
      (fun _ _ => False) w := by
  rw [wp_bind]
  refine wp_mono (isAlertSentToday_spec h site hplain hkey) (fun found w' hfound => ?_) fun _ _ hfalse => hfalse
  obtain ⟨rfl, hfound⟩ := hfound
  rw [wp_ite]
  split
  · rename_i htrue
    refine wp_mono hsuppressed (fun _ w' hw' => ?_) fun _ _ hfalse => hfalse
    rw [hw']
    refine ⟨h, List.prefix_refl _, fun site' subject' hd => ?_⟩
    obtain ⟨rfl, rfl⟩ := hdue site' subject' hd
    exact .inr (hfound htrue)
  · exact hx

/-- The loop over the checks of a list. -/
theorem collect_spec {ι : Type} {items : List ι} {f : ι → M (Option MonitoringAlert)}
    {due : ι → CheckSite → AlertSubject → Prop}
    (hf : ∀ x ∈ items, ∀ w, Backed w → wp (f x) (fun _ w' => Step env (due x) w w') (fun _ _ => False) w)
    (h : Backed w) :
    wp (collect (items.map f)) (fun _ w' => Step env (fun site subject => ∃ x ∈ items, due x site subject) w w')
      (fun _ _ => False) w := by
  induction items generalizing w with
  | nil => exact .refl h fun site subject hdue => by simp at hdue
  | cons x items ih =>
    rw [List.map_cons, collect, wp_bind]
    refine wp_mono (hf x List.mem_cons_self w h) (fun _ w₁ h₁ => ?_) fun _ _ hfalse => hfalse
    rw [wp_bind]
    refine wp_mono (ih (fun y hy => hf y (List.mem_cons_of_mem x hy)) h₁.backed) (fun _ w₂ h₂ => ?_)
      fun _ _ hfalse => hfalse
    refine (h₁.trans h₂).imp fun site subject hdue => ?_
    obtain ⟨y, hy, hdue⟩ := hdue
    rcases List.mem_cons.1 hy with rfl | hy
    · exact .inl hdue
    · exact .inr ⟨y, hy, hdue⟩

section Checks

variable (m env)

/-- The condition of a position at its price. -/
def DuePosition (i : ℕ) (pos : PositionRecord) (site : CheckSite) (subject : AlertSubject) : Prop :=
  site = .position i ∧ subject = .stopLoss m.accountId pos.symbol ∧ 0 < pos.stopLossPrice ∧
    ∃ current, env.price i = .ok current ∧ 0 < current ∧ distancePct current pos.stopLossPrice ≤ m.stopLossProximityPct

/-- The condition of a sector. -/
def DueSector (sector : String) (allocation : Decimal) (site : CheckSite) (subject : AlertSubject) : Prop :=
  site = .sector sector ∧ subject = .sector m.accountId sector ∧ m.sectorWeightWarnPct < allocation

variable {m env} (hcareful : NothingLost m env) (hid : ':' ∉ m.accountId.toList)

include hcareful hid

theorem checkPosition_spec (h : Backed w) (i : ℕ) (pos : PositionRecord) :
    wp (m.checkPosition env i pos) (fun _ w' => Step env (DuePosition m env i pos) w w') (fun _ _ => False) w := by
  unfold checkPosition
  dsimp only
  rw [wp_ite]
  split
  · rename_i hstop
    exact .refl h fun site subject hdue => absurd hdue.2.2.1 (not_lt.2 hstop)
  have hplain : (AlertSubject.stopLoss m.accountId pos.symbol).Plain := hid
  refine isAlertSentToday_bind_spec h (.position i) hplain rfl
    (fun site subject hdue => ⟨hdue.1, hdue.2.1⟩) rfl ?_
  cases hprice : env.price i with
  | error e =>
    refine .refl h fun site subject hdue => ?_
    obtain ⟨-, -, -, current, hcurrent, -⟩ := hdue
    rw [hprice] at hcurrent
    cases hcurrent
  | ok current =>
    dsimp only
    rw [wp_ite]
    split
    · rename_i hzero
      refine .refl h fun site subject hdue => ?_
      obtain ⟨-, -, -, current', hcurrent, hpos, -⟩ := hdue
      rw [hprice] at hcurrent
      cases hcurrent
      exact absurd hpos (not_lt.2 hzero)
    rw [wp_ite]
    split
    · refine wp_mono (raiseAlert_spec hcareful h hplain rfl fun _ => rfl) (fun _ w' h' => ?_) fun _ _ hfalse => hfalse
      exact h'.imp fun site subject hdue => hdue.1
    · rename_i hfar
      refine .refl h fun site subject hdue => ?_
      obtain ⟨-, -, -, current', hcurrent, -, hnear⟩ := hdue
      rw [hprice] at hcurrent
      cases hcurrent
      exact hfar hnear

theorem checkSector_spec (h : Backed w) (sector : String) (allocation : Decimal) :
    wp (m.checkSector env sector allocation) (fun _ w' => Step env (DueSector m sector allocation) w w')
      (fun _ _ => False) w := by
  unfold checkSector
  dsimp only
  rw [wp_ite]
  split
  · rename_i hle
    exact .refl h fun site subject hdue => absurd hdue.2.2 (not_lt.2 hle)
  have hplain : (AlertSubject.sector m.accountId sector).Plain := hid
  refine isAlertSentToday_bind_spec h (.sector sector) hplain rfl
    (fun site subject hdue => ⟨hdue.1, hdue.2.1⟩) rfl ?_
  refine wp_mono (raiseAlert_spec hcareful h hplain rfl fun _ => rfl) (fun _ w' h' => ?_) fun _ _ hfalse => hfalse
  exact h'.imp fun site subject hdue => hdue.1

theorem checkStopLossProximity_spec (h : Backed w) :
    wp (orSkip (m.checkStopLossProximity env)) (fun _ w' => Step env
      (fun site subject => (∃ i, site = .position i) ∧ Due m env site subject) w w') (fun _ _ => False) w := by
  unfold orSkip checkStopLossProximity
  rw [wp_tryCatch, wp_bind]
  cases hpositions : env.positions with
  | error e =>
    refine .refl h fun site subject hdue => ?_
    obtain ⟨⟨i, rfl⟩, positions, pos, current, hok, -⟩ := hdue
    rw [hpositions] at hok
    cases hok
  | ok positions =>
    show wp (collect (positions.zipIdx.map (fun p => m.checkPosition env p.2 p.1))) _ _ w
    refine wp_mono (collect_spec (fun p _ w h => checkPosition_spec hcareful hid h p.2 p.1) h) (fun _ w' h' => ?_)
      fun _ _ hfalse => hfalse.elim
    refine h'.imp fun site subject hdue => ?_
    obtain ⟨⟨i, rfl⟩, positions', pos, current, hok, hpos, hstop, hprice, hcurrent, hnear, hsubject⟩ := hdue
    rw [hpositions] at hok
    cases hok
    exact ⟨(pos, i), List.mk_mem_zipIdx_iff_getElem?.2 hpos, rfl, hsubject, hstop, current, hprice, hcurrent, hnear⟩

theorem checkSectorConcentration_spec (h : Backed w) :
    wp (orSkip (m.checkSectorConcentration env)) (fun _ w' => Step env
      (fun site subject => (∃ name, site = .sector name) ∧ Due m env site subject) w w') (fun _ _ => False) w := by
  unfold orSkip checkSectorConcentration
  rw [wp_tryCatch, wp_bind]
  cases hstate : env.sectorState with
  | error e =>
    refine .refl h fun site subject hdue => ?_
    obtain ⟨⟨name, rfl⟩, state, allocation, hok, -⟩ := hdue
    rw [hstate] at hok
    cases hok
  | ok state =>
    show wp (collect (state.sectorAllocations.items.map (fun e => m.checkSector env e.1 e.2))) _ _ w
    refine wp_mono (collect_spec (fun e _ w h => checkSector_spec hcareful hid h e.1 e.2) h) (fun _ w' h' => ?_)
      fun _ _ hfalse => hfalse.elim
    refine h'.imp fun site subject hdue => ?_
    obtain ⟨⟨name, rfl⟩, state', allocation, hok, hget, hlt, hsubject⟩ := hdue
    rw [hstate] at hok
    cases hok
    exact ⟨(name, allocation), (Dict.mem_items_iff _ _ _).2 hget, rfl, hsubject, hlt⟩

omit hid in
theorem checkLlmBudget_spec (h : Backed w) :
    wp (orSkip (m.checkLlmBudget env)) (fun _ w' => Step env
      (fun site subject => site = .llmBudget ∧ Due m env site subject) w w') (fun _ _ => False) w := by
  unfold orSkip checkLlmBudget
  rw [wp_tryCatch, wp_bind]
  cases hbudget : env.cost.getBudgetStatus with
  | error e =>
    refine .refl h fun site subject hdue => ?_
    obtain ⟨rfl, budget, hok, -⟩ := hdue
    rw [hbudget] at hok
    cases hok
  | ok budget =>
    show wp (if budget.usagePercent < m.llmBudgetWarnPct then pure [] else _) _ _ w
    rw [wp_ite]
    split
    · rename_i hlow
      refine .refl h fun site subject hdue => ?_
      obtain ⟨rfl, budget', hok, hhigh, -⟩ := hdue
      rw [hbudget] at hok
      cases hok
      exact absurd hlow (not_lt.2 hhigh)
    have hplain : AlertSubject.llmBudget.Plain := trivial
    refine wp_mono (isAlertSentToday_bind_spec h .llmBudget hplain rfl ?_ rfl ?_)
      (fun _ w' h' => h') fun _ _ hfalse => hfalse.elim
    · rintro site subject ⟨rfl, budget', -, -, hsubject⟩
      exact ⟨rfl, hsubject⟩
    · rw [wp_bind]
      refine wp_mono (raiseAlert_spec hcareful h hplain rfl fun _ => rfl) (fun _ w' h' => ?_)
        fun _ _ hfalse => hfalse
      exact h'.imp fun site subject hdue => hdue.1

theorem checkPortfolioDrawdown_spec (h : Backed w) :
    wp (orSkip (m.checkPortfolioDrawdown env)) (fun _ w' => Step env
      (fun site subject => site = .drawdown ∧ Due m env site subject) w w') (fun _ _ => False) w := by
  unfold orSkip checkPortfolioDrawdown
  rw [wp_tryCatch, wp_bind]
  cases hstate : env.drawdownState with
  | error e =>
    refine .refl h fun site subject hdue => ?_
    obtain ⟨rfl, state, hok, -⟩ := hdue
    rw [hstate] at hok
    cases hok
  | ok state =>
    show wp (if state.drawdownPct < m.maxDrawdownPct then pure [] else _) _ _ w
    rw [wp_ite]
    split
    · rename_i hlow
      refine .refl h fun site subject hdue => ?_
      obtain ⟨rfl, state', hok, hhigh, -⟩ := hdue
      rw [hstate] at hok
      cases hok
      exact absurd hlow (not_lt.2 hhigh)
    have hplain : (AlertSubject.drawdown m.accountId).Plain := hid
    refine wp_mono (isAlertSentToday_bind_spec h .drawdown hplain rfl ?_ rfl ?_)
      (fun _ w' h' => h') fun _ _ hfalse => hfalse.elim
    · rintro site subject ⟨rfl, state', -, -, hsubject⟩
      exact ⟨rfl, hsubject⟩
    · rw [wp_bind]
      refine wp_mono (raiseAlert_spec hcareful h hplain rfl fun _ => rfl) (fun _ w' h' => ?_)
        fun _ _ hfalse => hfalse
      exact h'.imp fun site subject hdue => hdue.1

/-- One call of `check_all` answers every check that is due. -/
theorem checkAll_spec (h : Backed w) :
    wp (m.checkAll env) (fun _ w' => Step env (Due m env) w w') (fun _ _ => False) w := by
  unfold checkAll
  rw [wp_bind]
  refine wp_mono (checkStopLossProximity_spec hcareful hid h) (fun _ w₁ h₁ => ?_) fun _ _ hfalse => hfalse
  rw [wp_bind]
  refine wp_mono (checkSectorConcentration_spec hcareful hid h₁.backed) (fun _ w₂ h₂ => ?_) fun _ _ hfalse => hfalse
  rw [wp_bind]
  refine wp_mono (checkLlmBudget_spec hcareful h₂.backed) (fun _ w₃ h₃ => ?_) fun _ _ hfalse => hfalse
  rw [wp_bind]
  refine wp_mono (checkPortfolioDrawdown_spec hcareful hid h₃.backed) (fun _ w₄ h₄ => ?_) fun _ _ hfalse => hfalse
  rw [wp_pure]
  refine (((h₁.trans h₂).trans h₃).trans h₄).imp fun site subject hdue => ?_
  cases site with
  | position i => exact .inl (.inl (.inl ⟨⟨i, rfl⟩, hdue⟩))
  | sector name => exact .inl (.inl (.inr ⟨⟨name, rfl⟩, hdue⟩))
  | llmBudget => exact .inl (.inr ⟨rfl, hdue⟩)
  | drawdown => exact .inr ⟨rfl, hdue⟩

end Checks

/-! ## Runs -/

end TradingMonitor

/-- A call of `check_all` on the monitor of an account, and which entries Redis has kept until then. -/
structure MonitorCall where
  monitor : TradingMonitor
  env : MonitorEnv
  keeps : String → Bool := fun _ => true

namespace MonitorCall

open TradingMonitor

def run (w : Alerts) (c : MonitorCall) : Alerts :=
  match c.monitor.checkAll c.env { w with cache := w.cache.dropKeys (fun key => !c.keeps key) } with
  | .ok _ w' => w'
  | .error _ w' => w'

/-- The calls of the monitors of all accounts, one after the other. -/
def runAll (calls : List MonitorCall) : Alerts := calls.foldl run {}

theorem runAll_concat (calls : List MonitorCall) (c : MonitorCall) : runAll (calls ++ [c]) = run (runAll calls) c := by
  unfold runAll
  rw [List.foldl_append]
  rfl

/-- Losing entries leaves the others backed. -/
theorem backed_dropKeys {w : Alerts} (h : Backed w) (lost : String → Bool) :
    Backed { w with cache := w.cache.dropKeys lost } := by
  refine ⟨fun key ends hget => ?_, h.plain⟩
  dsimp only at hget
  rw [Dict.get?_dropKeys] at hget
  split at hget
  · cases hget
  · exact h.marker key ends hget

theorem run_step {w : Alerts} (h : Backed w) {c : MonitorCall} (hid : ':' ∉ c.monitor.accountId.toList)
    (hcareful : NothingLost c.monitor c.env) : TradingMonitor.Step c.env (Due c.monitor c.env) w (run w c) := by
  have hspec := checkAll_spec hcareful hid (backed_dropKeys h (fun key => !c.keeps key))
  unfold run
  unfold wp at hspec
  split at hspec
  · rename_i hrun
    rw [hrun]
    exact ⟨hspec.backed, hspec.grows, hspec.answered⟩
  · exact hspec.elim

theorem backed_runAll {calls : List MonitorCall} (hid : ∀ c ∈ calls, ':' ∉ c.monitor.accountId.toList)
    (hcareful : ∀ c ∈ calls, NothingLost c.monitor c.env) : Backed (runAll calls) := by
  induction calls using List.reverseRecOn with
  | nil =>
    constructor
    · intro key ends hget
      cases hget
    · intro s hs
      cases hs
  | append_singleton calls c ih =>
    rw [runAll_concat]
    have hprev := ih (fun c hc => hid c (List.mem_append_left _ hc)) fun c hc => hcareful c (List.mem_append_left _ hc)
    exact (run_step hprev (hid c (by simp)) (hcareful c (by simp))).backed

/-- As long as no alert that did not arrive leaves a marker, a check that is due hands an alert to the bot or its
subject was reported on the same day; it does so again after alerts that did not arrive. -/
theorem checkAll_answers {calls : List MonitorCall} (hid : ∀ c ∈ calls, ':' ∉ c.monitor.accountId.toList)
    (hcareful : ∀ c ∈ calls, NothingLost c.monitor c.env) {pre post : List MonitorCall} {c : MonitorCall}
    (h : calls = pre ++ c :: post) {site : CheckSite} {subject : AlertSubject}
    (hdue : Due c.monitor c.env site subject) :
    Answered c.env site subject (runAll pre) (runAll (pre ++ [c])) ∧
      ((∀ s ∈ (runAll (pre ++ [c])).sent, Recent c.env site subject s → s.delivered = false) →
        ∃ new, (runAll (pre ++ [c])).sent = (runAll pre).sent ++ new ∧ ∃ s ∈ new, s.site = site) := by
  have hmem : ∀ d ∈ pre, d ∈ calls := fun d hd => h ▸ List.mem_append_left _ hd
  have hc : c ∈ calls := h ▸ List.mem_append_right _ List.mem_cons_self
  have hprev := backed_runAll (fun d hd => hid d (hmem d hd)) fun d hd => hcareful d (hmem d hd)
  have hanswered := (run_step hprev (hid c hc) (hcareful c hc)).answered site subject hdue
  rw [runAll_concat]
  refine ⟨hanswered, fun hfailed => ?_⟩
  rcases hanswered with hnew | ⟨s, hs, hdelivered, hrecent⟩
  · exact hnew
  · rw [hfailed s hs hrecent] at hdelivered
    cases hdelivered

/-! ## A position near its stop loss -/

/-- A check of a position two percent above its stop loss, with one outcome for every message. -/
def near (send : Sending) (now : ℤ) : MonitorCall where
  monitor := { accountId := "default" }
  env := {
    today := fun _ => ⟨2026, 3, 2, by decide⟩
    now := fun _ => now
    positions := .ok [{ id := 1, symbol := "A", strategyType := .swing, quantity := 1, avgCost := 110, entryPrice := 110
                        entryDate := 0, stopLossPrice := 98 }]
    price := fun _ => .ok 100
    sectorState := .ok { totalValue := 100, cash := 0 }
    cost := { currentCost := .ok 0, monthlyBudgetUsd := 50, budgetWarningPct := 80 }
    drawdownState := .ok { totalValue := 100, cash := 0 }
    cacheGet := fun _ => none
    cacheWritten := fun _ => true
    cacheSet := fun _ => none
    send := fun _ => send
    format1 := fun _ => "2.0" }

theorem due_near (send : Sending) (now : ℤ) :
    Due (near send now).monitor (near send now).env (.position 0) (.stopLoss "default" "A") :=
  ⟨_, _, 100, rfl, rfl, by norm_num, rfl, by norm_num, by unfold distancePct near; norm_num, rfl⟩

/-- The second check of a day is answered by the alert that the first one delivered. -/
theorem checkAll_answers_near :
    Answered (near (.delivered 2) 300).env (.position 0) (.stopLoss "default" "A") (runAll [near (.delivered 1) 0])
      (runAll ([near (.delivered 1) 0] ++ [near (.delivered 2) 300])) := by
  refine (@checkAll_answers [near (.delivered 1) 0, near (.delivered 2) 300] ?_ ?_ [near (.delivered 1) 0] [] _ rfl _ _
    (due_near _ _)).1
  · intro c hc
    rcases List.mem_pair.1 hc with rfl | rfl
    · decide +kernel
    · decide +kernel
  · intro c hc
    rcases List.mem_pair.1 hc with rfl | rfl
    · exact fun site => .inl rfl
    · exact fun site => .inl rfl

/-- After an alert that Telegram refused, the second check of the day is silent. -/
theorem not_checkAll_answers :
    Due (near (.delivered 2) 300).monitor (near (.delivered 2) 300).env (.position 0) (.stopLoss "default" "A") ∧
      ¬ Answered (near (.delivered 2) 300).env (.position 0) (.stopLoss "default" "A") (runAll [near .apiError 0])
        (runAll ([near .apiError 0] ++ [near (.delivered 2) 300])) := by
  have hsilent : (runAll ([near .apiError 0] ++ [near (.delivered 2) 300])).sent =
      (runAll [near .apiError 0]).sent := by
    decide +kernel
  have hlost : ∀ s ∈ (runAll [near .apiError 0]).sent, s.delivered = false := by decide +kernel
  refine ⟨due_near _ _, fun hanswered => ?_⟩
  rcases hanswered with ⟨new, hnew, s, hs, -⟩ | ⟨s, hs, hdelivered, -⟩
  · rw [hsilent] at hnew
    rw [List.self_eq_append_right.1 hnew] at hs
    cases hs
  · rw [hsilent] at hs
    rw [hlost s hs] at hdelivered
    cases hdelivered

end MonitorCall

end TradingAgent
