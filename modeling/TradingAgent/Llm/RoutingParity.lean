/-
The two ways through the router escalate alike. Where the providers answer a request for structured output as they
answer the chat, both make the same calls, record the same usage and choose the same answer; what a chat request
does is given exactly, with the calls and the usage of runs that fail.
-/
import TradingAgent.Llm.Escalation

namespace TradingAgent

open Wp

/-! ## The same answers -/

/-- A call without what only chats have. -/
def ProviderCall.plain (request : ProviderCall) : ProviderCall := { request with tools := [], maxTokens := none }

/-- A chat and a request for structured output with the same answer: the same usage and the same confidence. -/
structure SameAnswer {α : Type} (extractConfidence : LLMResponse → Option Confidence)
    (confidenceField : α → Option Confidence) (response : LLMResponse) (answer : StructuredAnswer α) : Prop where
  tokensIn : response.tokensIn = answer.tokensIn
  tokensOut : response.tokensOut = answer.tokensOut
  costUsd : response.costUsd = answer.costUsd
  confidence : extractConfidence response = confidenceField answer.parsed

/-- Both fail alike, or have the same answer. -/
def SameOutcome {α : Type} (extractConfidence : LLMResponse → Option Confidence)
    (confidenceField : α → Option Confidence) : Except Exn LLMResponse → Except Exn (StructuredAnswer α) → Prop
  | .ok response, .ok answer => SameAnswer extractConfidence confidenceField response answer
  | .error e, .error e' => e = e'
  | _, _ => False

/-- The providers answer a request for structured output as they answer the chat. -/
def ModelAnswers.Same {α : Type} (A : ModelAnswers α) (extractConfidence : LLMResponse → Option Confidence)
    (confidenceField : α → Option Confidence) : Prop :=
  ∀ number request, SameOutcome extractConfidence confidenceField (A.chat number request)
    (A.structuredOutput number request.plain)

/-- The answers to one call, as a chat and as structured output. -/
def ModelAnswers.AnswersOf {α : Type} (A : ModelAnswers α) (number : ℕ) (response : LLMResponse)
    (answer : StructuredAnswer α) : Prop :=
  ∃ request, A.chat number request = .ok response ∧ A.structuredOutput number request.plain = .ok answer

/-- The same providers, the same calls up to what only chats have, and the same usage. -/
structure SameEffects (s t : RouterState) : Prop where
  providers : s.providers = t.providers
  calls : s.calls.map ProviderCall.plain = t.calls.map ProviderCall.plain
  usage : s.usage = t.usage

theorem SameEffects.length {s t : RouterState} (h : SameEffects s t) : s.calls.length = t.calls.length := by
  have hlen := congrArg List.length h.calls
  rwa [List.length_map, List.length_map] at hlen

namespace LLMRouter

variable {α : Type} (R : LLMRouter) (A : ModelAnswers α) (cost : List UsageEntry → CostTracker)
  (extractConfidence : LLMResponse → Option Confidence) (confidenceField : α → Option Confidence)
  (agentType : String)

/-- Both ways return the answers of the same call, with the same flag: the first answer without a second call, the
first answer after a second call, or the second answer. -/
inductive SameChoice (number : ℕ) : RoutingResult → α × RoutingResult → Prop
  | primary {response : LLMResponse} {answer : StructuredAnswer α} (config : AgentModelConfig) (modelId : String)
      (provider : LLMProviderType) (h : A.AnswersOf number response answer) :
      SameChoice number { response, configUsed := config }
        (answer.parsed, { response := syntheticResponse A modelId provider answer, configUsed := config })
  | kept {response : LLMResponse} {answer : StructuredAnswer α} (config : AgentModelConfig) (modelId : String)
      (provider : LLMProviderType) (h : A.AnswersOf number response answer) :
      SameChoice number { response, escalated := true, primaryResponse := some response, configUsed := config }
        (answer.parsed, { response := syntheticResponse A modelId provider answer, escalated := true
                          primaryResponse := some (syntheticResponse A modelId provider answer)
                          configUsed := config })
  | replaced {response escResponse : LLMResponse} {answer escAnswer : StructuredAnswer α} (config : AgentModelConfig)
      (modelId escModelId : String) (provider escProvider : LLMProviderType)
      (h : A.AnswersOf number response answer) (hesc : A.AnswersOf (number + 1) escResponse escAnswer) :
      SameChoice number
        { response := escResponse, escalated := true, primaryResponse := some response, configUsed := config }
        (escAnswer.parsed, { response := syntheticResponse A escModelId escProvider escAnswer, escalated := true
                             primaryResponse := some (syntheticResponse A modelId provider answer)
                             configUsed := config })

/-! ## What a run does -/

/-- The call of a chat request to a model. -/
def chatCall (messages : List LLMMessage) (temperature : Decimal) (tools : List String) (maxTokens : Option ℕ)
    (model : String) : ProviderCall := { model, messages, temperature, tools, maxTokens }

/-- The entry for the answer of a model. -/
def usageOf (model : String) (response : LLMResponse) (isEscalation : Bool) : Except Exn UsageEntry := do
  let (provider, modelId) ← parseModelString model
  pure { provider, model := modelId, agentType := if agentType = "" then "__system__" else agentType
         tokensIn := response.tokensIn, tokensOut := response.tokensOut, costUsd := response.costUsd, isEscalation }

/-- The state has grown by these calls and these entries. -/
def Grows (s s' : RouterState) (calls : List ProviderCall) (usage : List UsageEntry) : Prop :=
  s'.calls = s.calls ++ calls ∧ s'.usage = s.usage ++ usage

variable (callTo : String → ProviderCall)

/-- The first model was asked and has answered. -/
structure FirstAnswer (s : RouterState) (config : AgentModelConfig) (response : LLMResponse) (entry : UsageEntry) :
    Prop where
  configured : R.getAgentConfig agentType = .ok config
  active : config.isActive = true
  answer : A.chat s.calls.length (callTo config.primaryModel) = .ok response
  entry : usageOf agentType config.primaryModel response false = .ok entry

/-- The answer is to be had from a second model: the mode asks for it, the confidence is below the threshold, and
the budget allows it. -/
structure Escalates (config : AgentModelConfig) (response : LLMResponse) (usage : List UsageEntry)
    (escalationModel : String) : Prop where
  mode : config.routingMode = .escalation
  model : config.escalationModel = some escalationModel
  named : escalationModel ≠ ""
  below : ∃ confidence threshold, extractConfidence response = some confidence ∧
    config.confidenceThreshold = some threshold ∧ confidence.lt (.finite threshold) = .ok true
  budget : ∃ status, (cost usage).getBudgetStatus = .ok status ∧ status.escalationDisabled = false

/-- The second answer has a higher confidence. -/
def MoreConfident (response escResponse : LLMResponse) : Prop :=
  ∃ confidence escConfidence, extractConfidence response = some confidence ∧
    extractConfidence escResponse = some escConfidence ∧ confidence.lt escConfidence = .ok true

/-- The result of a run that returns. Every call has one entry; the first answer counts, unless the second one is
more confident. -/
inductive Routed (s s' : RouterState) : RoutingResult → Prop
  | primary {config : AgentModelConfig} {response : LLMResponse} {entry : UsageEntry}
      (first : FirstAnswer R A agentType callTo s config response entry)
      (stays : ∀ model, ¬ Escalates cost extractConfidence config response (s.usage ++ [entry]) model)
      (grows : Grows s s' [callTo config.primaryModel] [entry]) :
      Routed s s' { response, configUsed := config }
  | escalated {config : AgentModelConfig} {response escResponse : LLMResponse} {entry escEntry : UsageEntry}
      {model : String} (chosen : LLMResponse)
      (first : FirstAnswer R A agentType callTo s config response entry)
      (escalates : Escalates cost extractConfidence config response (s.usage ++ [entry]) model)
      (answer : A.chat (s.calls.length + 1) (callTo model) = .ok escResponse)
      (recorded : usageOf agentType model escResponse true = .ok escEntry)
      (choice : MoreConfident extractConfidence response escResponse ∧ chosen = escResponse ∨
        ¬ MoreConfident extractConfidence response escResponse ∧ chosen = response)
      (grows : Grows s s' [callTo config.primaryModel, callTo model] [entry, escEntry]) :
      Routed s s' { response := chosen, escalated := true, primaryResponse := some response, configUsed := config }

/-- How far a run came that fails: every call but one that was not answered has its entry. -/
inductive Failed (s s' : RouterState) (e : Exn) : Prop
  | before (grows : Grows s s' [] [])
  | firstUnanswered (config : AgentModelConfig)
      (unanswered : A.chat s.calls.length (callTo config.primaryModel) = .error e)
      (grows : Grows s s' [callTo config.primaryModel] [])
  | afterFirst {config : AgentModelConfig} {response : LLMResponse} {entry : UsageEntry}
      (first : FirstAnswer R A agentType callTo s config response entry)
      (grows : Grows s s' [callTo config.primaryModel] [entry])
  | secondUnanswered {config : AgentModelConfig} {response : LLMResponse} {entry : UsageEntry} {model : String}
      (first : FirstAnswer R A agentType callTo s config response entry)
      (escalates : Escalates cost extractConfidence config response (s.usage ++ [entry]) model)
      (unanswered : A.chat (s.calls.length + 1) (callTo model) = .error e)
      (grows : Grows s s' [callTo config.primaryModel, callTo model] [entry])
  | afterSecond {config : AgentModelConfig} {response escResponse : LLMResponse} {entry escEntry : UsageEntry}
      {model : String}
      (first : FirstAnswer R A agentType callTo s config response entry)
      (escalates : Escalates cost extractConfidence config response (s.usage ++ [entry]) model)
      (answer : A.chat (s.calls.length + 1) (callTo model) = .ok escResponse)
      (recorded : usageOf agentType model escResponse true = .ok escEntry)
      (grows : Grows s s' [callTo config.primaryModel, callTo model] [entry, escEntry])

/-! ## The steps of a run -/

variable {R A cost extractConfidence confidenceField agentType callTo} {β : Type} {s : RouterState}

theorem Grows.trans {s₁ s₂ s₃ : RouterState} {calls calls' : List ProviderCall} {usage usage' : List UsageEntry}
    (h : Grows s₁ s₂ calls usage) (h' : Grows s₂ s₃ calls' usage') :
    Grows s₁ s₃ (calls ++ calls') (usage ++ usage') := by
  obtain ⟨hc, hu⟩ := h
  obtain ⟨hc', hu'⟩ := h'
  exact ⟨by rw [hc', hc, List.append_assoc], by rw [hu', hu, List.append_assoc]⟩

theorem Grows.rfl (s : RouterState) : Grows s s [] [] := ⟨(List.append_nil _).symm, (List.append_nil _).symm⟩

theorem wp_liftExcept {x : Except Exn β} {Q : β → RouterState → Prop} {F : Exn → RouterState → Prop}
    (hok : ∀ a, x = .ok a → Q a s) (herr : ∀ e, x = .error e → F e s) : wp (liftExcept x) Q F s := by
  cases x with
  | ok a => exact hok a (Eq.refl _)
  | error e => exact herr e (Eq.refl _)

@[simp] theorem wp_liftExcept_ok {a : β} {Q : β → RouterState → Prop} {F : Exn → RouterState → Prop} :
    wp (liftExcept (.ok a)) Q F s = Q a s := Eq.refl _

/-- A provider that is there has a model string that can be read; getting one changes no call and no usage. -/
theorem wp_providerOf {model : String} {Q : String → RouterState → Prop} {F : Exn → RouterState → Prop}
    (hok : ∀ provider modelId s', parseModelString model = .ok (provider, modelId) → Grows s s' [] [] → Q modelId s')
    (herr : ∀ e s', Grows s s' [] [] → F e s') : wp (R.providerOf model) Q F s := by
  unfold providerOf
  simp only [wp_bind, wp_get]
  split
  · rename_i modelId hget
    obtain ⟨provider, hparse⟩ := s.parses model modelId hget
    exact hok provider modelId s hparse (Grows.rfl s)
  · cases hparse : parseModelString model with
    | error e =>
      rw [R.createProvider_of_error hparse]
      exact herr e s (Grows.rfl s)
    | ok parsed =>
      obtain ⟨provider, modelId⟩ := parsed
      rw [R.createProvider_of_ok hparse]
      simp only [wp_bind, wp_modify, wp_pure]
      refine wp_liftExcept (fun _ _ => ?_) fun e _ => herr e s (Grows.rfl s)
      exact hok provider modelId _ hparse (Grows.rfl s)

theorem wp_call {answer : ℕ → ProviderCall → Except Exn β} {request : ProviderCall}
    {Q : β → RouterState → Prop} {F : Exn → RouterState → Prop}
    (hok : ∀ a s', answer s.calls.length request = .ok a → Grows s s' [request] [] → Q a s')
    (herr : ∀ e s', answer s.calls.length request = .error e → Grows s s' [request] [] → F e s') :
    wp (call answer request) Q F s := by
  unfold call
  simp only [wp_bind, wp_get, wp_modify]
  refine wp_liftExcept (fun a ha => hok a _ ha ?_) fun e he => herr e _ he ?_
  · exact ⟨Eq.refl _, (List.append_nil _).symm⟩
  · exact ⟨Eq.refl _, (List.append_nil _).symm⟩

theorem wp_recordUsage {entry : UsageEntry} {Q : PUnit → RouterState → Prop} {F : Exn → RouterState → Prop}
    (h : ∀ s', Grows s s' [] [{ entry with
      agentType := if entry.agentType = "" then "__system__" else entry.agentType }] → Q ⟨⟩ s') :
    wp (recordUsage entry) Q F s := h _ ⟨(List.append_nil _).symm, Eq.refl _⟩

theorem wp_getBudget {Q : BudgetStatus → RouterState → Prop} {F : Exn → RouterState → Prop}
    (hok : ∀ status, (cost s.usage).getBudgetStatus = .ok status → Q status s) (herr : ∀ e, F e s) :
    wp (getBudget cost) Q F s := by
  unfold getBudget
  simp only [wp_bind, wp_get]
  exact wp_liftExcept hok fun e _ => herr e

/-! ## Chat requests -/

section Chat

variable {messages : List LLMMessage} {temperature : Decimal} {tools : List String} {maxTokens : Option ℕ}

/-- The second call: the more confident answer is returned. -/
theorem wp_routeEscalation {config : AgentModelConfig} {response : LLMResponse} {entry : UsageEntry}
    {confidence : Confidence} {model : String} {s₁ : RouterState}
    (first : FirstAnswer R A agentType (chatCall messages temperature tools maxTokens) s config response entry)
    (escalates : Escalates cost extractConfidence config response (s.usage ++ [entry]) model)
    (hconfidence : extractConfidence response = some confidence)
    (hgrows : Grows s s₁ [chatCall messages temperature tools maxTokens config.primaryModel] [entry]) :
    wp (R.routeEscalation A agentType messages temperature tools maxTokens extractConfidence config response
        confidence model)
      (fun result s' => Routed R A cost extractConfidence agentType
        (chatCall messages temperature tools maxTokens) s s' result)
      (fun e s' => Failed R A cost extractConfidence agentType
        (chatCall messages temperature tools maxTokens) s s' e) s₁ := by
  have hlength : s₁.calls.length = s.calls.length + 1 := by simp [hgrows.1]
  unfold routeEscalation
  simp only [wp_bind]
  refine wp_providerOf (fun provider modelId s₂ hparse hg₂ => ?_)
    fun e s₂ hg₂ => .afterFirst first (hgrows.trans hg₂)
  have hgrows₂ := hgrows.trans hg₂
  have hlength₂ : s₂.calls.length = s.calls.length + 1 := by rw [hg₂.1, List.append_nil, hlength]
  refine wp_call (fun escResponse s₃ hanswer hg₃ => ?_) fun e s₃ hanswer hg₃ => ?_
  · rw [hlength₂] at hanswer
    rw [hparse, wp_liftExcept_ok]
    refine wp_recordUsage fun s₄ hg₄ => ?_
    have hgrows₄ := (hgrows₂.trans hg₃).trans hg₄
    have hrecorded : ∃ escEntry, usageOf agentType model escResponse true = .ok escEntry ∧
        Grows s s₄ [chatCall messages temperature tools maxTokens config.primaryModel,
          chatCall messages temperature tools maxTokens model] [entry, escEntry] := by
      unfold usageOf
      rw [hparse]
      exact ⟨_, rfl, hgrows₄⟩
    obtain ⟨escEntry, hrecorded, hgrows₄⟩ := hrecorded
    cases hesc : extractConfidence escResponse with
    | none =>
      refine .escalated response first escalates hanswer hrecorded (.inr ⟨?_, rfl⟩) hgrows₄
      rintro ⟨_, _, _, hsome, _⟩
      rw [hesc] at hsome
      cases hsome
    | some escConfidence =>
      simp only [wp_bind]
      refine wp_liftExcept (fun more hmore => ?_) fun e _ =>
        .afterSecond first escalates hanswer hrecorded hgrows₄
      cases more with
      | true =>
        exact .escalated escResponse first escalates hanswer hrecorded
          (.inl ⟨⟨confidence, escConfidence, hconfidence, hesc, hmore⟩, rfl⟩) hgrows₄
      | false =>
        refine .escalated response first escalates hanswer hrecorded (.inr ⟨?_, rfl⟩) hgrows₄
        rintro ⟨c, escC, hc, hescC, hlt⟩
        rw [hconfidence] at hc
        rw [hesc] at hescC
        cases hc
        cases hescC
        rw [hmore] at hlt
        cases hlt
  · rw [hlength₂] at hanswer
    exact .secondUnanswered first escalates hanswer (hgrows₂.trans hg₃)

/-- The rest of a chat request, after the first answer. -/
theorem wp_checkEscalation {config : AgentModelConfig} {response : LLMResponse} {entry : UsageEntry}
    {s₁ : RouterState}
    (first : FirstAnswer R A agentType (chatCall messages temperature tools maxTokens) s config response entry)
    (hgrows : Grows s s₁ [chatCall messages temperature tools maxTokens config.primaryModel] [entry]) :
    wp (R.checkEscalation A cost agentType messages temperature tools maxTokens (some extractConfidence) config
        response)
      (fun result s' => Routed R A cost extractConfidence agentType
        (chatCall messages temperature tools maxTokens) s s' result)
      (fun e s' => Failed R A cost extractConfidence agentType
        (chatCall messages temperature tools maxTokens) s s' e) s₁ := by
  have hstays : (∀ model, ¬ Escalates cost extractConfidence config response (s.usage ++ [entry]) model) →
      Routed R A cost extractConfidence agentType (chatCall messages temperature tools maxTokens) s s₁
        { response, configUsed := config } := fun stays => .primary first stays hgrows
  unfold checkEscalation
  split
  · rename_i model threshold extract hmodel hthreshold hextract
    cases hextract
    split
    · rename_i hmode
      split
      · rename_i hnone
        apply hstays
        rintro _ ⟨_, _, _, ⟨c, _, hc, _⟩, _⟩
        rw [hnone] at hc
        cases hc
      · rename_i confidence hconfidence
        simp only [wp_bind]
        refine wp_liftExcept (fun below hbelow => ?_) fun e _ => .afterFirst first hgrows
        split
        · rename_i htrue
          simp only [wp_bind]
          refine wp_getBudget (fun status hstatus => ?_) fun e => .afterFirst first hgrows
          rw [hgrows.2] at hstatus
          split
          · rename_i hdisabled
            apply hstays
            rintro _ ⟨_, _, _, _, status', hstatus', hallowed⟩
            rw [hstatus] at hstatus'
            cases hstatus'
            rw [hdisabled] at hallowed
            cases hallowed
          · rename_i hdisabled
            have hescalates : Escalates cost extractConfidence config response (s.usage ++ [entry]) model :=
              ⟨hmode.1, hmodel, hmode.2, ⟨confidence, threshold, hconfidence, hthreshold, by rw [hbelow, htrue]⟩,
                status, hstatus, eq_false_of_ne_true hdisabled⟩
            exact wp_routeEscalation first hescalates hconfidence hgrows
        · rename_i hnot
          apply hstays
          rintro _ ⟨_, _, _, ⟨c, t, hc, ht, hlt⟩, _⟩
          rw [hconfidence] at hc
          rw [hthreshold] at ht
          cases hc
          cases ht
          rw [hbelow] at hlt
          cases hlt
          exact hnot rfl
    · rename_i hmode
      apply hstays
      rintro other ⟨hm, hsome, hne, _, _⟩
      rw [hmodel] at hsome
      cases hsome
      exact hmode ⟨hm, hne⟩
  · rename_i hno
    apply hstays
    rintro model ⟨_, hsome, _, ⟨_, threshold, _, hthreshold, _⟩, _⟩
    exact hno model threshold extractConfidence hsome hthreshold rfl

/-- What a chat request does. -/
theorem wp_route (s : RouterState) :
    wp (R.route A cost agentType messages temperature tools maxTokens (some extractConfidence))
      (fun result s' => Routed R A cost extractConfidence agentType
        (chatCall messages temperature tools maxTokens) s s' result)
      (fun e s' => Failed R A cost extractConfidence agentType
        (chatCall messages temperature tools maxTokens) s s' e) s := by
  unfold route
  simp only [wp_bind]
  refine wp_liftExcept (fun config hconfig => ?_) fun e _ => .before (Grows.rfl s)
  split
  · exact .before (Grows.rfl s)
  rename_i hactive
  simp only [wp_bind]
  refine wp_providerOf (fun provider modelId s₁ hparse hg₁ => ?_) fun e s₁ hg₁ => .before hg₁
  have hlength₁ : s₁.calls.length = s.calls.length := by rw [hg₁.1, List.append_nil]
  refine wp_call (fun response s₂ hanswer hg₂ => ?_) fun e s₂ hanswer hg₂ => ?_
  · rw [hlength₁] at hanswer
    rw [hparse, wp_liftExcept_ok]
    refine wp_recordUsage fun s₃ hg₃ => ?_
    have hgrows := (hg₁.trans hg₂).trans hg₃
    have hfirst : ∃ entry, FirstAnswer R A agentType (chatCall messages temperature tools maxTokens) s config
        response entry ∧ Grows s s₃ [chatCall messages temperature tools maxTokens config.primaryModel] [entry] := by
      refine ⟨_, ⟨hconfig, eq_true_of_ne_false hactive, hanswer, ?_⟩, hgrows⟩
      unfold usageOf
      rw [hparse]
      rfl
    obtain ⟨entry, first, hgrows⟩ := hfirst
    exact wp_checkEscalation first hgrows
  · rw [hlength₁] at hanswer
    exact .firstUnanswered config hanswer (hg₁.trans hg₂)

end Chat

/-- The first answer is never more confident than the one that counts. -/
theorem Routed.not_moreConfident {s s' : RouterState} {result : RoutingResult}
    (h : Routed R A cost extractConfidence agentType callTo s s' result) :
    ∀ primary ∈ result.primaryResponse, ¬ MoreConfident extractConfidence result.response primary := by
  rintro primary hprimary ⟨c, c', hc, hc', hlt⟩
  cases h with
  | primary => cases hprimary
  | escalated chosen first escalates answer recorded choice =>
    cases hprimary
    rcases choice with ⟨⟨b, b', hb, hb', hmore⟩, rfl⟩ | ⟨_, rfl⟩
    · rw [hb] at hc'
      rw [hb'] at hc
      cases hc
      cases hc'
      exact Confidence.not_lt_of_lt hmore hlt
    · rw [hc] at hc'
      cases hc'
      exact Confidence.not_lt_of_lt hlt hlt

/-! ## Both ways step by step -/

/-- The same effects, after this many calls. -/
def SameAt (number : ℕ) (s t : RouterState) : Prop := SameEffects s t ∧ s.calls.length = number

theorem corresponds_liftExcept {S : RouterState → RouterState → Prop} {x : Except Exn β} {s t : RouterState}
    (h : S s t) : Corresponds S (fun a b => a = b ∧ x = .ok a) (liftExcept x s) (liftExcept x t) := by
  cases x with
  | ok a => exact ⟨⟨Eq.refl _, Eq.refl _⟩, h⟩
  | error e => exact ⟨Eq.refl _, h⟩

theorem corresponds_providerOf {number : ℕ} {model : String} {s t : RouterState} (h : SameAt number s t) :
    Corresponds (SameAt number) (fun a b => a = b) (R.providerOf model s) (R.providerOf model t) := by
  unfold providerOf
  refine corresponds_bind (related_get s t h) (fun _ _ h => h) fun a b hab s t h => ?_
  rw [hab.1.providers]
  cases b.providers.get? model with
  | some modelId => exact ⟨Eq.refl _, h⟩
  | none =>
    cases hparse : parseModelString model with
    | error e =>
      dsimp only
      rw [R.createProvider_of_error hparse]
      exact ⟨Eq.refl _, h⟩
    | ok parsed =>
      dsimp only
      rw [R.createProvider_of_ok hparse]
      refine corresponds_bind (corresponds_liftExcept h) (fun _ _ h => h) fun _ _ _ s t h => ?_
      refine ⟨Eq.refl _, ⟨?_, h.1.calls, h.1.usage⟩, h.2⟩
      exact congrArg (fun d => Dict.set d model parsed.2) h.1.providers

theorem corresponds_call {number : ℕ} (request : ProviderCall) {s t : RouterState}
    (hA : A.Same extractConfidence confidenceField) (h : SameAt number s t) :
    Corresponds (SameAt (number + 1))
      (fun response answer => SameAnswer extractConfidence confidenceField response answer ∧
        A.chat number request = .ok response ∧ A.structuredOutput number request.plain = .ok answer)
      (call A.chat request s) (call A.structuredOutput request.plain t) := by
  obtain ⟨hst, rfl⟩ := h
  have hsame := hA s.calls.length request
  show Corresponds _ _ (liftExcept (A.chat s.calls.length request) _)
    (liftExcept (A.structuredOutput t.calls.length request.plain) _)
  rw [← hst.length]
  have hnext : ∀ s' t' : RouterState, s' = { s with calls := s.calls ++ [request] } →
      t' = { t with calls := t.calls ++ [request.plain] } → SameAt (s.calls.length + 1) s' t' := by
    rintro _ _ rfl rfl
    refine ⟨⟨hst.providers, ?_, hst.usage⟩, List.length_append⟩
    rw [List.map_append, List.map_append, hst.calls]
    rfl
  cases hchat : A.chat s.calls.length request with
  | ok response =>
    cases hanswer : A.structuredOutput s.calls.length request.plain with
    | ok answer =>
      rw [hchat, hanswer] at hsame
      exact ⟨⟨hsame, Eq.refl _, Eq.refl _⟩, hnext _ _ (Eq.refl _) (Eq.refl _)⟩
    | error e =>
      rw [hchat, hanswer] at hsame
      exact hsame.elim
  | error e =>
    cases hanswer : A.structuredOutput s.calls.length request.plain with
    | ok answer =>
      rw [hchat, hanswer] at hsame
      exact hsame.elim
    | error e' =>
      rw [hchat, hanswer] at hsame
      exact ⟨hsame, hnext _ _ (Eq.refl _) (Eq.refl _)⟩

theorem corresponds_recordUsage {number : ℕ} {entry : UsageEntry} {s t : RouterState} (h : SameAt number s t) :
    Corresponds (SameAt number) (fun _ _ => True) (recordUsage entry s) (recordUsage entry t) :=
  ⟨trivial, ⟨h.1.providers, h.1.calls, congrArg (· ++ [_]) h.1.usage⟩, h.2⟩

theorem corresponds_getBudget {number : ℕ} {s t : RouterState} (h : SameAt number s t) :
    Corresponds (SameAt number) (fun a b => a = b) (getBudget cost s) (getBudget cost t) := by
  unfold getBudget
  refine corresponds_bind (related_get s t h) (fun _ _ h => h) fun a b hab s t h => ?_
  rw [hab.1.usage]
  exact (corresponds_liftExcept h).mono (fun _ _ h => h) fun _ _ hv => hv.1

/-! ## Both ways -/

section Both

variable {messages : List LLMMessage} {temperature : Decimal} {tools : List String} {maxTokens : Option ℕ}

/-- The answers of the second call are chosen alike. -/
theorem corresponds_routeEscalation {number : ℕ} {config : AgentModelConfig} {response : LLMResponse}
    {answer : StructuredAnswer α} {confidence : Confidence} {model modelId : String} {provider : LLMProviderType}
    {s t : RouterState} (hA : A.Same extractConfidence confidenceField) (hfirst : A.AnswersOf number response answer)
    (h : SameAt (number + 1) s t) :
    Corresponds SameEffects (SameChoice A number)
      (R.routeEscalation A agentType messages temperature tools maxTokens extractConfidence config response
        confidence model s)
      (R.routeStructuredEscalation A agentType messages temperature confidenceField config answer.parsed
        (syntheticResponse A modelId provider answer) confidence model t) := by
  unfold routeEscalation routeStructuredEscalation
  refine corresponds_bind (corresponds_providerOf h) (fun _ _ h => h.1) fun escModelId _ heq s t h => ?_
  cases heq
  refine corresponds_bind (corresponds_call (chatCall messages temperature tools maxTokens model) hA h)
    (fun _ _ h => h.1) fun escResponse escAnswer hesc s t h => ?_
  obtain ⟨hsame, hchat, hanswer⟩ := hesc
  have hsecond : A.AnswersOf (number + 1) escResponse escAnswer := ⟨_, hchat, hanswer⟩
  refine corresponds_bind (corresponds_liftExcept h) (fun _ _ h => h.1) fun parsed _ heq s t h => ?_
  obtain ⟨rfl, hparsed⟩ := heq
  obtain ⟨escProvider, escId⟩ := parsed
  dsimp only
  rw [hsame.tokensIn, hsame.tokensOut, hsame.costUsd, hsame.confidence]
  refine corresponds_bind (corresponds_recordUsage h) (fun _ _ h => h.1) fun _ _ _ s t h => ?_
  cases confidenceField escAnswer.parsed with
  | none => exact ⟨.kept config modelId provider hfirst, h.1⟩
  | some escConfidence =>
    refine corresponds_bind (corresponds_liftExcept h) (fun _ _ h => h.1) fun more _ heq s t h => ?_
    obtain ⟨rfl, _⟩ := heq
    cases more with
    | true => exact ⟨.replaced config modelId escModelId provider escProvider hfirst hsecond, h.1⟩
    | false => exact ⟨.kept config modelId provider hfirst, h.1⟩

/-- Whether a second model is asked is decided alike. -/
theorem corresponds_checkEscalation {number : ℕ} {config : AgentModelConfig} {response : LLMResponse}
    {answer : StructuredAnswer α} {modelId : String} {provider : LLMProviderType} {s t : RouterState}
    (hA : A.Same extractConfidence confidenceField) (hfirst : A.AnswersOf number response answer)
    (hsame : SameAnswer extractConfidence confidenceField response answer) (h : SameAt (number + 1) s t) :
    Corresponds SameEffects (SameChoice A number)
      (R.checkEscalation A cost agentType messages temperature tools maxTokens (some extractConfidence) config
        response s)
      (R.checkStructuredEscalation A cost agentType messages temperature confidenceField config answer.parsed
        (syntheticResponse A modelId provider answer) t) := by
  have hstays : SameChoice A number { response, configUsed := config }
      (answer.parsed, { response := syntheticResponse A modelId provider answer, configUsed := config }) :=
    .primary config modelId provider hfirst
  unfold checkEscalation checkStructuredEscalation
  cases config.escalationModel with
  | none => exact ⟨hstays, h.1⟩
  | some model =>
    cases config.confidenceThreshold with
    | none => exact ⟨hstays, h.1⟩
    | some threshold =>
      dsimp only
      rw [hsame.confidence]
      split
      · cases confidenceField answer.parsed with
        | none => exact ⟨hstays, h.1⟩
        | some confidence =>
          refine corresponds_bind (corresponds_liftExcept h) (fun _ _ h => h.1) fun below _ heq s t h => ?_
          obtain ⟨rfl, _⟩ := heq
          split
          · refine corresponds_bind (corresponds_getBudget h) (fun _ _ h => h.1) fun budget _ heq s t h => ?_
            cases heq
            split
            · exact ⟨hstays, h.1⟩
            · exact corresponds_routeEscalation hA hfirst h
          · exact ⟨hstays, h.1⟩
      · exact ⟨hstays, h.1⟩

theorem corresponds_route {s t : RouterState} (hA : A.Same extractConfidence confidenceField)
    (h : SameEffects s t) :
    Corresponds SameEffects (SameChoice A s.calls.length)
      (R.route A cost agentType messages temperature tools maxTokens (some extractConfidence) s)
      (R.routeStructuredCalls A cost agentType messages temperature confidenceField t) := by
  have hat : SameAt s.calls.length s t := ⟨h, rfl⟩
  generalize s.calls.length = number at hat ⊢
  unfold route routeStructuredCalls
  refine corresponds_bind (corresponds_liftExcept hat) (fun _ _ h => h.1) fun config _ heq s t h => ?_
  obtain ⟨rfl, _⟩ := heq
  split
  · exact ⟨rfl, h.1⟩
  · refine corresponds_bind (corresponds_providerOf h) (fun _ _ h => h.1) fun modelId _ heq s t h => ?_
    cases heq
    refine corresponds_bind
      (corresponds_call (chatCall messages temperature tools maxTokens config.primaryModel) hA h)
      (fun _ _ h => h.1) fun response answer hfirst s t h => ?_
    obtain ⟨hsame, hchat, hanswer⟩ := hfirst
    have hfirst : A.AnswersOf number response answer := ⟨_, hchat, hanswer⟩
    refine corresponds_bind (corresponds_liftExcept h) (fun _ _ h => h.1) fun parsed _ heq s t h => ?_
    obtain ⟨rfl, _⟩ := heq
    obtain ⟨provider, _⟩ := parsed
    dsimp only
    rw [hsame.tokensIn, hsame.tokensOut, hsame.costUsd]
    refine corresponds_bind (corresponds_recordUsage h) (fun _ _ h => h.1) fun _ _ _ s t h => ?_
    exact corresponds_checkEscalation hA hfirst hsame h

/-- A chat request and a request for structured output with the same answers have corresponding runs: they fail
alike, or choose the same answer with the same flag, and they make the same calls and record the same usage. What
that is, the chat request shows: one entry for each answered call, a second call only where the answer escalates,
and an answer that is not less confident than the first one. -/
theorem route_alike {s t : RouterState} (hA : A.Same extractConfidence confidenceField) (h : SameEffects s t) :
    Corresponds SameEffects (SameChoice A s.calls.length)
      (R.route A cost agentType messages temperature tools maxTokens (some extractConfidence) s)
      (R.routeStructuredCalls A cost agentType messages temperature confidenceField t) ∧
    wp (R.route A cost agentType messages temperature tools maxTokens (some extractConfidence))
      (fun result s' => Routed R A cost extractConfidence agentType
          (chatCall messages temperature tools maxTokens) s s' result ∧
        ∀ primary ∈ result.primaryResponse, ¬ MoreConfident extractConfidence result.response primary)
      (fun e s' => Failed R A cost extractConfidence agentType
        (chatCall messages temperature tools maxTokens) s s' e) s :=
  ⟨corresponds_route hA h, wp_mono (wp_route s) (fun _ _ hrouted => ⟨hrouted, hrouted.not_moreConfident⟩)
    fun _ _ hfailed => hfailed⟩

end Both

/-! ## Two models that disagree -/

theorem noProviders_parse : ∀ model ∈ ([] : List String), ∃ p, parseModelString model = .ok p := by simp

/-- An agent whose answers with a confidence below 0.7 go to a second model. -/
def unsureRouter : LLMRouter where
  row := fun _ => .ok (some {
    agentType := .trader
    routingMode := .escalation
    primaryModel := "openai/gpt-4o-mini"
    escalationModel := some "anthropic/claude-sonnet-4"
    confidenceThreshold := some (7 / 10) })
  defaults := fun _ => .ok none
  complete := fun _ _ => .ok ⟨"", 100, 50, 1 / 200⟩
  str := fun _ => ""
  providers_parse := noProviders_parse

/-- The first model is half sure, the second one nearly certain. -/
def unsureAnswers : ModelAnswers Decimal where
  chat := fun number request => .ok {
    content := if number = 0 then "0.5" else "0.9"
    model := request.model
    provider := .openai
    tokensIn := 100
    tokensOut := 50
    costUsd := 1 / 200 }
  structuredOutput := fun number _ => .ok ⟨if number = 0 then 1 / 2 else 9 / 10, 100, 50, 1 / 200⟩
  dumpJson := fun _ => ""

/-- Read the confidence from the text of the answer. -/
def readConfidence (response : LLMResponse) : Option Confidence :=
  if response.content = "0.5" then some (.finite (1 / 2)) else some (.finite (9 / 10))

theorem unsureAnswers_same : unsureAnswers.Same readConfidence (fun parsed => some (.finite parsed)) := by
  intro number request
  refine ⟨rfl, rfl, rfl, ?_⟩
  show readConfidence { content := if number = 0 then "0.5" else "0.9", .. } = _
  unfold readConfidence
  by_cases hfirst : number = 0
  · simp [hfirst]
  · simp [hfirst]

/-- Nothing of the budget of 100 dollars is used. -/
def openBudget : CostTracker := ⟨.ok 0, 100, 80⟩

theorem route_alike_unsure :
    Corresponds SameEffects (SameChoice unsureAnswers 0)
      (unsureRouter.route unsureAnswers (fun _ => openBudget) "trader" [] 0 [] none (some readConfidence) {})
      (unsureRouter.routeStructuredCalls unsureAnswers (fun _ => openBudget) "trader" [] 0
        (fun parsed => some (.finite parsed)) {}) ∧
    wp (unsureRouter.route unsureAnswers (fun _ => openBudget) "trader" [] 0 [] none (some readConfidence))
      (fun result s' => Routed unsureRouter unsureAnswers (fun _ => openBudget) readConfidence "trader"
          (chatCall [] 0 [] none) {} s' result ∧
        ∀ primary ∈ result.primaryResponse, ¬ MoreConfident readConfidence result.response primary)
      (fun e s' => Failed unsureRouter unsureAnswers (fun _ => openBudget) readConfidence "trader"
        (chatCall [] 0 [] none) {} s' e) {} :=
  route_alike unsureAnswers_same ⟨rfl, rfl, rfl⟩

/-- The answer of the second model counts, and both calls are recorded. -/
example : wp (unsureRouter.route unsureAnswers (fun _ => openBudget) "trader" [] 0 [] none (some readConfidence))
    (fun result s' => result.escalated = true ∧ result.response.content = "0.9" ∧
      s'.usage.map (·.isEscalation) = [false, true]) (fun _ _ => False) {} := by
  decide +kernel

end LLMRouter

end TradingAgent
