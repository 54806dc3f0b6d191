/-
What holds of the requests of KIS clients, however their steps are interleaved. A request is sent with a token that
was issued for its own app key, as long as the clients of one account have one key. The requests of one client are
sent one after the other, each after the pause of the one before. A request is sent a second time only if the first
answer says that its token has expired, and then no more.
-/
import TradingAgent.Broker.KisAuth

namespace TradingAgent

/-! ## What the steps leave alone -/

namespace KISDesk

variable {D : Type} (connections : ℕ → KISConnection) (s : KISDesk) (run : KISRequest D)

@[simp] theorem sent_release : (s.release run).sent = s.sent := by
  unfold release
  split <;> rfl

@[simp] theorem issued_release : (s.release run).issued = s.issued := by
  unfold release
  split <;> rfl

@[simp] theorem cache_release : (s.release run).cache = s.cache := by
  unfold release
  split <;> rfl

@[simp] theorem now_release : (s.release run).now = s.now := by
  unfold release
  split <;> rfl

theorem held_release (client : ℕ) : (s.release run).held client = true ↔
    s.held client = true ∧ ¬ (run.stage.holds = true ∧ client = run.client) := by
  unfold release
  split
  · rename_i hholds
    by_cases hclient : client = run.client
    · simp [hclient, hholds]
    · simp [hclient]
  · rename_i hholds
    simp [hholds]

theorem held_acquire (client client' : ℕ) : (s.acquire client).held client' = true ↔
    client' = client ∨ s.held client' = true := by
  unfold acquire
  by_cases hclient : client' = client
  · simp [hclient]
  · simp [hclient]

end KISDesk

/-- The error of a request that ends before its answer is read. -/
def KISError.Unread : KISError → Prop
  | .authError _ | .apiError _ | .other _ => True
  | .tokenExpiredError _ | .rateLimitError _ | .insufficientFundsError _ | .kisResponseError .. => False

/-- The token at a stage. -/
def RequestStage.token {D : Type} : RequestStage D → Option String
  | .storing _ token | .sending token _ | .resting token .. => some token
  | .acquiring | .lookingUp | .issuing _ | .parsing _ | .deleting | .done _ => none

/-- When a request under way was sent. -/
def RequestStage.sentAt {D : Type} : RequestStage D → Option ℤ
  | .sending _ sentAt | .resting _ sentAt .. => some sentAt
  | .acquiring | .lookingUp | .issuing _ | .storing .. | .parsing _ | .deleting | .done _ => none

/-- When the answer came that a request is pausing after. -/
def RequestStage.respondedAt {D : Type} : RequestStage D → Option ℤ
  | .resting _ _ _ respondedAt => some respondedAt
  | .acquiring | .lookingUp | .issuing _ | .storing .. | .sending .. | .parsing _ | .deleting | .done _ => none

/-- A request that was answered keeps the pause of its client before it is over, unless it is cancelled in it. -/
def SentRequest.Paused (connections : ℕ → KISConnection) (r : SentRequest) : Prop :=
  ∀ answeredAt, r.answeredAt = some answeredAt → r.cancelled = false →
    answeredAt + (connections r.client).rateLimitInterval ≤ r.endedAt

/-- An answer that says that the token has expired. -/
def KISResponse.Expired {D : Type} : KISResponse D → Prop
  | .json base _ => base.tokenExpired
  | .text _ => False

namespace KISResponse

variable {D : Type} {isRetry : Bool} {trId : String} {response : KISResponse D}

/-- The answers: the token has expired, the first or the second time, the request went well, or it failed. -/
theorem outcome_cases (isRetry : Bool) (trId : String) (response : KISResponse D) :
    (isRetry = false ∧ response.Expired ∧ response.outcome isRetry trId = none) ∨
    (isRetry = true ∧ response.Expired ∧
      ∃ message, response.outcome isRetry trId = some (.error (.tokenExpiredError message))) ∨
    (∃ (base : KISBaseResponse) (data : D), base.isOk ∧ response = .json base data ∧
      response.outcome isRetry trId = some (.ok data)) ∨
    ∃ error : KISError, (∀ message, error ≠ .tokenExpiredError message) ∧
      response.outcome isRetry trId = some (.error error) := by
  cases response with
  | text body =>
    refine .inr (.inr (.inr ⟨_, ?_, rfl⟩))
    rintro message ⟨⟩
  | json base data =>
    simp only [outcome]
    split
    · rename_i hok
      exact .inr (.inr (.inl ⟨base, data, hok, rfl, rfl⟩))
    · split
      · rename_i hexpired
        cases isRetry with
        | true => exact .inr (.inl ⟨rfl, hexpired, _, rfl⟩)
        | false => exact .inl ⟨rfl, hexpired, rfl⟩
      · right; right; right
        split
        · refine ⟨_, ?_, rfl⟩
          rintro message ⟨⟩
        · split <;> refine ⟨_, ?_, rfl⟩ <;> rintro message ⟨⟩

/-- A request is sent once more if its token has expired, but not twice. -/
theorem outcome_eq_none (h : response.outcome isRetry trId = none) : isRetry = false ∧ response.Expired := by
  rcases outcome_cases isRetry trId response with ⟨hretry, hexpired, -⟩ | ⟨-, -, message, hsome⟩ |
    ⟨base, data, -, -, hsome⟩ | ⟨error, -, hsome⟩
  · exact ⟨hretry, hexpired⟩
  all_goals
    rw [hsome] at h
    cases h

theorem outcome_eq_ok {data : D} (h : response.outcome isRetry trId = some (.ok data)) :
    ∃ base : KISBaseResponse, base.isOk ∧ response = .json base data := by
  rcases outcome_cases isRetry trId response with ⟨-, -, hnone⟩ | ⟨-, -, message, hsome⟩ |
    ⟨base, data', hok, hresponse, hsome⟩ | ⟨error, -, hsome⟩
  · rw [hnone] at h
    cases h
  · rw [hsome] at h
    cases h
  · rw [hsome] at h
    cases h
    exact ⟨base, hok, hresponse⟩
  · rw [hsome] at h
    cases h

theorem outcome_eq_tokenExpired {message : String}
    (h : response.outcome isRetry trId = some (.error (.tokenExpiredError message))) :
    isRetry = true ∧ response.Expired := by
  rcases outcome_cases isRetry trId response with ⟨-, -, hnone⟩ | ⟨hretry, hexpired, -⟩ |
    ⟨base, data, -, -, hsome⟩ | ⟨error, hne, hsome⟩
  · rw [hnone] at h
    cases h
  · exact ⟨hretry, hexpired⟩
  · rw [hsome] at h
    cases h
  · rw [hsome] at h
    cases h
    exact absurd rfl (hne message)

end KISResponse

namespace KISRequest

open KISDesk

variable {D : Type} {connections : ℕ → KISConnection} {s s' : KISDesk} {run run' : KISRequest D}

/-! ## The steps of a request -/

/-- What a step does. -/
inductive Move (connections : ℕ → KISConnection) (s : KISDesk) (run : KISRequest D) : KISDesk → KISRequest D → Prop
  | idle : Move connections s run s run
  | acquire (hstage : run.stage = .acquiring) (hfree : s.held run.client = false) :
      Move connections s run (s.acquire run.client) (run.move .lookingUp)
  | found (token : String) (hstage : run.stage = .lookingUp)
      (hcached : s.cache.get? (connections run.client).cacheKeyToken = some token) :
      Move connections s run s (run.send s token)
  | missing (hstage : run.stage = .lookingUp) : Move connections s run s (run.move (.issuing .request))
  | issued (purpose : TokenPurpose) (token : String) (hstage : run.stage = .issuing purpose) :
      Move connections s run (s.issue connections run.client token) (run.move (.storing purpose token))
  | stored (purpose : TokenPurpose) (token : String) (hstage : run.stage = .storing purpose token) :
      Move connections s run (s.setToken connections run.client token) (run.useToken s token purpose)
  | answered (token : String) (sentAt : ℤ) (response : KISResponse D) (hstage : run.stage = .sending token sentAt) :
      Move connections s run s (run.receive s token sentAt response)
  | rested (token : String) (sentAt : ℤ) (response : KISResponse D) (respondedAt : ℤ)
      (hstage : run.stage = .resting token sentAt response respondedAt)
      (hpause : respondedAt + (connections run.client).rateLimitInterval ≤ s.now) :
      Move connections s run ((s.log (s.ended connections run token sentAt (some respondedAt) false)).release run)
        ((run.log (s.ended connections run token sentAt (some respondedAt) false)).move (.parsing response))
  | settled (response : KISResponse D) (hstage : run.stage = .parsing response) :
      Move connections s run s (run.settle response)
  | deleted (hstage : run.stage = .deleting) :
      Move connections s run (s.deleteToken connections run.client) (run.move (.issuing .refresh))
  | failed (s' : KISDesk) (error : KISError) (hunread : error.Unread) (hdone : ∀ result, run.stage ≠ .done result)
      (hsent : run.stage.sentAt = none)
      (h : s' = s ∨
        (∃ purpose token, run.stage = .storing purpose token ∧ s' = s.setToken connections run.client token) ∨
        (run.stage = .deleting ∧ s' = s.deleteToken connections run.client)) :
      Move connections s run (s'.release run) (run.move (.done (.error error)))
  | lost (token : String) (sentAt : ℤ) (error : KISError) (hunread : error.Unread)
      (hstage : run.stage = .sending token sentAt) :
      Move connections s run ((s.log (s.ended connections run token sentAt none false)).release run)
        ((run.log (s.ended connections run token sentAt none false)).move (.done (.error error)))
  | cancelled (token : String) (sentAt : ℤ) (response : KISResponse D) (respondedAt : ℤ) (error : KISError)
      (hunread : error.Unread) (hstage : run.stage = .resting token sentAt response respondedAt) :
      Move connections s run ((s.log (s.ended connections run token sentAt (some respondedAt) true)).release run)
        ((run.log (s.ended connections run token sentAt (some respondedAt) true)).move (.done (.error error)))

theorem fail_move (connections : ℕ → KISConnection) (s : KISDesk) (run : KISRequest D) (applied : Bool)
    (error : String) : Move connections s run
    (run.fail connections s applied error run.stage).1 (run.fail connections s applied error run.stage).2 := by
  have hunread : (KISError.other error).Unread := trivial
  unfold fail
  split <;> rename_i hstage
  · rename_i purpose token
    apply Move.failed _ _ hunread (by simp [hstage]) (by rw [hstage]; rfl)
    split
    · exact .inr (.inl ⟨purpose, token, hstage, rfl⟩)
    · exact .inl rfl
  · apply Move.failed _ _ hunread (by simp [hstage]) (by rw [hstage]; rfl)
    split
    · exact .inr (.inr ⟨hstage, rfl⟩)
    · exact .inl rfl
  · exact .lost _ _ _ trivial hstage
  · exact .cancelled _ _ _ _ _ trivial hstage
  · exact .failed _ _ trivial (by simp [hstage]) (by rw [hstage]; rfl) (.inl rfl)
  · exact .failed _ _ trivial (by simp [hstage]) (by rw [hstage]; rfl) (.inl rfl)
  · exact .failed _ _ trivial (by simp [hstage]) (by rw [hstage]; rfl) (.inl rfl)
  · exact .failed _ _ trivial (by simp [hstage]) (by rw [hstage]; rfl) (.inl rfl)
  · exact .idle

theorem step_move (connections : ℕ → KISConnection) (s : KISDesk) (run : KISRequest D) (choice : RequestChoice D) :
    Move connections s run (run.step connections s run.stage choice).1
      (run.step connections s run.stage choice).2 := by
  cases choice with
  | fails applied error =>
    have hfail := fail_move connections s run applied error
    cases hstage : run.stage <;> rw [hstage] at hfail <;> exact hfail
  | proceed =>
    cases hstage : run.stage with
    | acquiring =>
      simp only [step]
      split
      · exact .idle
      · rename_i hheld
        exact .acquire hstage (by simpa using hheld)
    | lookingUp =>
      simp only [step]
      split
      · rename_i token hcached
        exact .found token hstage hcached
      · exact .missing hstage
    | storing purpose token => exact .stored purpose token hstage
    | resting token sentAt response respondedAt =>
      simp only [step]
      split
      · rename_i hpause
        exact .rested token sentAt response respondedAt hstage hpause
      · exact .idle
    | parsing response => exact .settled response hstage
    | deleting => exact .deleted hstage
    | _ => exact .idle
  | tokenAnswer answer =>
    cases hstage : run.stage with
    | issuing purpose =>
      cases answer with
      | accessToken token data =>
        simp only [step, receiveToken]
        split
        · exact .failed s _ trivial (by simp [hstage]) (by rw [hstage]; rfl) (.inl rfl)
        · exact .issued purpose token hstage
      | httpError status body => exact .failed s _ trivial (by simp [hstage]) (by rw [hstage]; rfl) (.inl rfl)
    | _ => exact .idle
  | respond response =>
    cases hstage : run.stage with
    | sending token sentAt => exact .answered token sentAt response hstage
    | _ => exact .idle
  | clientError message =>
    cases hstage : run.stage with
    | sending token sentAt => exact .lost _ _ _ trivial hstage
    | issuing purpose => exact .failed s _ trivial (by simp [hstage]) (by rw [hstage]; rfl) (.inl rfl)
    | _ => exact .idle

theorem client_useToken (token : String) (purpose : TokenPurpose) :
    (run.useToken s token purpose).client = run.client := by
  cases purpose <;> rfl

theorem client_settle (response : KISResponse D) : (run.settle response).client = run.client := by
  unfold settle
  split <;> rfl

theorem Move.client (h : Move connections s run s' run') : run'.client = run.client := by
  cases h with
  | stored purpose token hstage => exact client_useToken token purpose
  | settled response hstage => exact client_settle response
  | _ => rfl

/-! ## Tokens -/

/-- The token was issued for the app key of the client. -/
def Issued (connections : ℕ → KISConnection) (s : KISDesk) (client : ℕ) (token : String) : Prop :=
  ((connections client).appKey, token) ∈ s.issued

/-- What a request was sent with. -/
def Proper (connections : ℕ → KISConnection) (s : KISDesk) (r : SentRequest) : Prop :=
  r.headers.appkey = (connections r.client).appKey ∧ r.headers.authorization = "Bearer " ++ r.token ∧
    Issued connections s r.client r.token

/-- The tokens in the cache, and those that were sent. -/
structure TokensIssued (connections : ℕ → KISConnection) (s : KISDesk) : Prop where
  cache : ∀ client token, s.cache.get? (connections client).cacheKeyToken = some token →
    Issued connections s client token
  sent : ∀ r ∈ s.sent, Proper connections s r

/-- The token of a request under way. -/
def HasToken (connections : ℕ → KISConnection) (s : KISDesk) (run : KISRequest D) : Prop :=
  ∀ token, run.stage.token = some token → Issued connections s run.client token

theorem HasToken.mono (h : HasToken connections s run) (hissued : s.issued ⊆ s'.issued) :
    HasToken connections s' run := fun token htoken => hissued (h token htoken)

theorem hasToken_of_none (h : run.stage.token = none) : HasToken connections s run := by
  intro token htoken
  rw [h] at htoken
  cases htoken

theorem hasToken_of_some {token : String} (h : run.stage.token = some token)
    (hissued : Issued connections s run.client token) : HasToken connections s run := by
  intro token' htoken'
  rw [h] at htoken'
  cases htoken'
  exact hissued

namespace TokensIssued

theorem mono (h : TokensIssued connections s) (hissued : s.issued ⊆ s'.issued) (hsent : s'.sent = s.sent)
    (hcache : ∀ key token, s'.cache.get? key = some token → s.cache.get? key = some token) :
    TokensIssued connections s' := by
  refine ⟨fun client token hget => hissued (h.cache client token (hcache _ token hget)), fun r hr => ?_⟩
  rw [hsent] at hr
  obtain ⟨hkey, hauth, hr'⟩ := h.sent r hr
  exact ⟨hkey, hauth, hissued hr'⟩

theorem release (h : TokensIssued connections s) : TokensIssued connections (s.release run) :=
  h.mono (by simp) (by simp) (by simp)

theorem deleteToken (h : TokensIssued connections s) (key : String) :
    TokensIssued connections { s with cache := s.cache.erase key } := by
  refine h.mono (fun _ h => h) rfl fun key' token hget => ?_
  dsimp only at hget
  rw [Dict.get?_erase] at hget
  split at hget
  · cases hget
  · exact hget

/-- The token of a client is stored under the key of its account, which has one app key. -/
theorem setToken (h : TokensIssued connections s)
    (hone : ∀ c c', (connections c).accountId = (connections c').accountId →
      (connections c).appKey = (connections c').appKey)
    {client : ℕ} {token : String} (htoken : Issued connections s client token) :
    TokensIssued connections (s.setToken connections client token) := by
  refine ⟨fun client' token' hget => ?_, h.sent⟩
  unfold KISDesk.setToken at hget
  dsimp only at hget
  rw [Dict.get?_set] at hget
  split at hget
  · rename_i hkey
    cases hget
    have hacc := hone client' client (KISAuth.accountId_eq_of_cacheKeyToken hkey)
    unfold Issued at htoken ⊢
    rw [hacc]
    exact htoken
  · exact h.cache client' token' hget

theorem log (h : TokensIssued connections s) {token : String} (htoken : Issued connections s run.client token)
    (sentAt : ℤ) (answeredAt : Option ℤ) (cancelled : Bool) :
    TokensIssued connections (s.log (s.ended connections run token sentAt answeredAt cancelled)) := by
  refine ⟨h.cache, fun r hr => ?_⟩
  rcases List.mem_append.1 hr with hr | hr
  · exact h.sent r hr
  · rw [List.mem_singleton] at hr
    subst hr
    exact ⟨rfl, rfl, htoken⟩

end TokensIssued

theorem Move.issued_subset (h : Move connections s run s' run') : s.issued ⊆ s'.issued := by
  cases h with
  | issued purpose token hstage => exact fun entry hentry => List.mem_append_left _ hentry
  | failed s₁ error hunread hdone hsent h =>
    rcases h with rfl | ⟨purpose, token, -, rfl⟩ | ⟨-, rfl⟩ <;> simp [KISDesk.setToken, KISDesk.deleteToken]
  | rested token sentAt response respondedAt hstage hpause => simp [KISDesk.log]
  | lost token sentAt error hunread hstage => simp [KISDesk.log]
  | cancelled token sentAt response respondedAt error hunread hstage => simp [KISDesk.log]
  | _ => exact fun entry hentry => hentry

/-- Every step keeps the tokens where they belong. -/
theorem Move.tokensIssued (hone : ∀ c c', (connections c).accountId = (connections c').accountId →
      (connections c).appKey = (connections c').appKey) (h : Move connections s run s' run')
    (hs : TokensIssued connections s) (hrun : HasToken connections s run) : TokensIssued connections s' := by
  cases h with
  | issued purpose token hstage => exact hs.mono (fun entry hentry => List.mem_append_left _ hentry) rfl fun _ _ h => h
  | stored purpose token hstage => exact hs.setToken hone (hrun token (by rw [hstage]; rfl))
  | rested token sentAt response respondedAt hstage hpause =>
    exact (hs.log (hrun token (by rw [hstage]; rfl)) sentAt (some respondedAt) false).release
  | deleted hstage => exact hs.deleteToken _
  | failed s₁ error hunread hdone hsent h =>
    rcases h with rfl | ⟨purpose, token, hstage, rfl⟩ | ⟨-, rfl⟩
    · exact hs.release
    · exact (hs.setToken hone (hrun token (by rw [hstage]; rfl))).release
    · exact (hs.deleteToken _).release
  | lost token sentAt error hunread hstage =>
    exact (hs.log (hrun token (by rw [hstage]; rfl)) sentAt none false).release
  | cancelled token sentAt response respondedAt error hunread hstage =>
    exact (hs.log (hrun token (by rw [hstage]; rfl)) sentAt (some respondedAt) true).release
  | acquire hstage hfree => exact hs.mono (fun _ h => h) rfl fun _ _ h => h
  | _ => exact hs

theorem Move.hasToken (h : Move connections s run s' run') (hs : TokensIssued connections s)
    (hrun : HasToken connections s run) : HasToken connections s' run' := by
  have hissued := h.issued_subset
  cases h with
  | idle => exact hrun
  | found token hstage hcached => exact hasToken_of_some rfl (hs.cache run.client token hcached)
  | issued purpose token hstage => exact hasToken_of_some rfl (List.mem_append_right _ (List.mem_singleton.2 rfl))
  | stored purpose token hstage =>
    cases purpose with
    | request => exact hasToken_of_some rfl (hrun token (by rw [hstage]; rfl))
    | refresh => exact hasToken_of_none rfl
  | answered token sentAt response hstage => exact hasToken_of_some rfl (hrun token (by rw [hstage]; rfl))
  | settled response hstage =>
    refine hasToken_of_none ?_
    unfold settle
    split <;> rfl
  | _ => exact hasToken_of_none rfl

/-! ## Pauses -/

/-- The requests of a client that were sent are over, one after the other and after their pauses. -/
structure Spaced (connections : ℕ → KISConnection) (s : KISDesk) : Prop where
  past : ∀ r ∈ s.sent, r.endedAt ≤ s.now
  paused : ∀ r ∈ s.sent, r.Paused connections
  apart : s.sent.Pairwise fun r r' => r.client = r'.client → r.endedAt ≤ r'.sentAt

/-- A request holds its semaphore where it should, and was sent after the others of its client. -/
structure InTurn (s : KISDesk) (run : KISRequest D) : Prop where
  held : run.stage.holds = true → s.held run.client = true
  after : ∀ sentAt, run.stage.sentAt = some sentAt → ∀ r ∈ s.sent, r.client = run.client → r.endedAt ≤ sentAt

/-- Two requests of one client do not hold its semaphore both. -/
def Exclusive (run run' : KISRequest D) : Prop :=
  run.stage.holds = true → run'.stage.holds = true → run.client ≠ run'.client

theorem Exclusive.symm (h : Exclusive run run') : Exclusive run' run :=
  fun hholds' hholds hclient => h hholds hholds' hclient.symm

theorem holds_of_sentAt {stage : RequestStage D} {sentAt : ℤ} (h : stage.sentAt = some sentAt) :
    stage.holds = true := by
  cases stage <;> first | rfl | cases h

theorem Move.now (h : Move connections s run s' run') : s'.now = s.now := by
  cases h with
  | failed s₁ error hunread hdone hsent h =>
    rcases h with rfl | ⟨purpose, token, -, rfl⟩ | ⟨-, rfl⟩ <;> simp [setToken, deleteToken]
  | rested token sentAt response respondedAt hstage hpause => simp [KISDesk.log]
  | lost token sentAt error hunread hstage => simp [KISDesk.log]
  | cancelled token sentAt response respondedAt error hunread hstage => simp [KISDesk.log]
  | _ => rfl

/-- The record of the request that is taking a step: it ends now, after its pause. -/
structure Recorded (connections : ℕ → KISConnection) (s : KISDesk) (run : KISRequest D) (r : SentRequest) : Prop where
  client : r.client = run.client
  sentAt : run.stage.sentAt = some r.sentAt
  answeredAt : r.answeredAt = run.stage.respondedAt
  endedAt : r.endedAt = s.now
  paused : r.Paused connections

/-- A step records at most the request that is taking it. If that is cancelled in its pause it has failed. -/
theorem Move.sent (h : Move connections s run s' run') :
    (s'.sent = s.sent ∧ run'.tries = run.tries) ∨ ∃ r : SentRequest, s'.sent = s.sent ++ [r] ∧
      run'.tries = run.tries ++ [r] ∧ Recorded connections s run r ∧
      (r.cancelled = true → ∃ error, run'.stage = .done (.error error)) := by
  cases h with
  | stored purpose token hstage => cases purpose <;> exact .inl ⟨rfl, rfl⟩
  | settled response hstage =>
    left
    unfold settle
    split <;> exact ⟨rfl, rfl⟩
  | failed s₁ error hunread hdone hsent h =>
    rcases h with rfl | ⟨purpose, token, -, rfl⟩ | ⟨-, rfl⟩ <;> exact .inl ⟨sent_release .., rfl⟩
  | rested token sentAt response respondedAt hstage hpause =>
    refine .inr ⟨_, sent_release .., rfl, ⟨rfl, by rw [hstage]; rfl, by rw [hstage]; rfl, rfl, ?_⟩, nofun⟩
    intro answeredAt hanswered _
    cases hanswered
    exact hpause
  | lost token sentAt error hunread hstage =>
    exact .inr ⟨_, sent_release .., rfl, ⟨rfl, by rw [hstage]; rfl, by rw [hstage]; rfl, rfl, nofun⟩, nofun⟩
  | cancelled token sentAt response respondedAt error hunread hstage =>
    exact .inr ⟨_, sent_release .., rfl, ⟨rfl, by rw [hstage]; rfl, by rw [hstage]; rfl, rfl, nofun⟩,
      fun _ => ⟨error, rfl⟩⟩
  | _ => exact .inl ⟨rfl, rfl⟩

/-- A step releases no semaphore but its own. -/
theorem Move.held (h : Move connections s run s' run') {client : ℕ} (hheld : s.held client = true)
    (hother : ¬ (run.stage.holds = true ∧ client = run.client)) : s'.held client = true := by
  cases h with
  | acquire hstage hfree => exact (held_acquire ..).2 (.inr hheld)
  | failed s₁ error hunread hdone hsent h =>
    rcases h with rfl | ⟨purpose, token, -, rfl⟩ | ⟨-, rfl⟩ <;> exact (held_release ..).2 ⟨hheld, hother⟩
  | rested token sentAt response respondedAt hstage hpause => exact (held_release ..).2 ⟨hheld, hother⟩
  | lost token sentAt error hunread hstage => exact (held_release ..).2 ⟨hheld, hother⟩
  | cancelled token sentAt response respondedAt error hunread hstage => exact (held_release ..).2 ⟨hheld, hother⟩
  | _ => exact hheld

/-- A request holds its semaphore after a step if it held it before, or took a free one. -/
theorem Move.holds (h : Move connections s run s' run') (hrun : InTurn s run)
    (hholds : run'.stage.holds = true) :
    s'.held run.client = true ∧ (run.stage.holds = true ∨ s.held run.client = false) := by
  have hkept : run.stage.holds = true → s'.held = s.held →
      s'.held run.client = true ∧ (run.stage.holds = true ∨ s.held run.client = false) := by
    intro hbefore hsame
    rw [hsame]
    exact ⟨hrun.held hbefore, .inl hbefore⟩
  cases h with
  | idle => exact hkept hholds rfl
  | acquire hstage hfree => exact ⟨(held_acquire ..).2 (.inl rfl), .inr hfree⟩
  | found token hstage hcached => exact hkept (by rw [hstage]; rfl) rfl
  | missing hstage => exact hkept (by rw [hstage]; rfl) rfl
  | issued purpose token hstage =>
    cases purpose with
    | request => exact hkept (by rw [hstage]; rfl) rfl
    | refresh => cases hholds
  | stored purpose token hstage =>
    cases purpose with
    | request => exact hkept (by rw [hstage]; rfl) rfl
    | refresh => cases hholds
  | answered token sentAt response hstage => exact hkept (by rw [hstage]; rfl) rfl
  | settled response hstage =>
    unfold settle at hholds
    split at hholds <;> cases hholds
  | _ => cases hholds

theorem Move.spaced (h : Move connections s run s' run') (hs : Spaced connections s)
    (hrun : InTurn s run) : Spaced connections s' := by
  have hnow := h.now
  rcases h.sent with ⟨hsame, -⟩ | ⟨r, hnew, -, hr, -⟩
  · refine ⟨fun r hr => ?_, ?_, ?_⟩
    · rw [hsame] at hr
      rw [hnow]
      exact hs.past r hr
    · rw [hsame]
      exact hs.paused
    · rw [hsame]
      exact hs.apart
  · refine ⟨fun r' hr' => ?_, fun r' hr' => ?_, ?_⟩
    · rw [hnew, List.mem_append, List.mem_singleton] at hr'
      rw [hnow]
      rcases hr' with hr' | rfl
      · exact hs.past r' hr'
      · exact hr.endedAt.le
    · rw [hnew, List.mem_append, List.mem_singleton] at hr'
      rcases hr' with hr' | rfl
      · exact hs.paused r' hr'
      · exact hr.paused
    · rw [hnew, List.pairwise_append]
      refine ⟨hs.apart, List.pairwise_singleton _ _, fun r' hr' r'' hr'' hsame => ?_⟩
      rw [List.mem_singleton] at hr''
      subst hr''
      exact hrun.after _ hr.sentAt r' hr' (hsame.trans hr.client)

/-- A request is sent after all that were recorded. -/
theorem Move.inTurn (h : Move connections s run s' run') (hs : Spaced connections s)
    (hrun : InTurn s run) : InTurn s' run' := by
  have hheld : run'.stage.holds = true → s'.held run'.client = true := by
    intro hholds
    rw [h.client]
    exact (h.holds hrun hholds).1
  have hsending : ∀ token, run' = run.send s token → s'.sent = s.sent → InTurn s' run' := by
    rintro token rfl hsent
    refine ⟨hheld, fun sentAt hsentAt r hr _ => ?_⟩
    cases hsentAt
    rw [hsent] at hr
    exact hs.past r hr
  have hnone : run'.stage.sentAt = none → InTurn s' run' := by
    intro hnone
    refine ⟨hheld, fun sentAt hsentAt => ?_⟩
    rw [hnone] at hsentAt
    cases hsentAt
  cases h with
  | idle => exact hrun
  | found token hstage hcached => exact hsending token rfl rfl
  | stored purpose token hstage =>
    cases purpose with
    | request => exact hsending token rfl rfl
    | refresh => exact hnone rfl
  | answered token sentAt response hstage =>
    refine ⟨hheld, fun sentAt' hsentAt r hr hclient => ?_⟩
    cases hsentAt
    exact hrun.after sentAt (by rw [hstage]; rfl) r hr hclient
  | settled response hstage =>
    refine hnone ?_
    unfold settle
    split <;> rfl
  | _ => exact hnone rfl

/-- A step takes nothing from the requests of others. -/
theorem Move.others (h : Move connections s run s' run') (hrun : InTurn s run) {other : KISRequest D}
    (hother : InTurn s other) (hapart : Exclusive run other) :
    InTurn s' other ∧ Exclusive run' other := by
  refine ⟨⟨fun hholds => ?_, fun sentAt hsentAt r hr hclient => ?_⟩, fun hholds hholds' hclient => ?_⟩
  · exact h.held (hother.held hholds) fun ⟨hmine, hclient⟩ => hapart hmine hholds hclient.symm
  · rcases h.sent with ⟨hsame, -⟩ | ⟨r', hnew, -, hr', -⟩
    · rw [hsame] at hr
      exact hother.after sentAt hsentAt r hr hclient
    · rw [hnew, List.mem_append, List.mem_singleton] at hr
      rcases hr with hr | rfl
      · exact hother.after sentAt hsentAt r hr hclient
      · -- both would hold the semaphore of the client
        exact absurd (hr'.client.symm.trans hclient) (hapart (holds_of_sentAt hr'.sentAt) (holds_of_sentAt hsentAt))
  · rw [h.client] at hclient
    rcases (h.holds hrun hholds).2 with hmine | hfree
    · exact hapart hmine hholds' hclient
    · have hheld := hother.held hholds'
      rw [← hclient, hfree] at hheld
      cases hheld

/-! ## Answers -/

/-- The answers before the try that is under way: a second try follows an answer that the token has expired. -/
def Before (run : KISRequest D) (prior : List (KISResponse D)) : Prop :=
  (run.isRetry = false ∧ prior = []) ∨ (run.isRetry = true ∧ ∃ response, response.Expired ∧ prior = [response])

/-- The request ends by its last answer, or with an error before that answer is read. -/
def Concluded (run : KISRequest D) (prior : List (KISResponse D)) (result : Except KISError D) : Prop :=
  (∃ response, run.responses = prior ++ [response] ∧ run.sends = prior.length + 1 ∧
    response.outcome run.isRetry run.trId = some result) ∨
  (∃ error, error.Unread ∧ result = .error error ∧ run.responses.length ≤ run.sends ∧ run.sends ≤ prior.length + 1 ∧
    (run.responses = prior ∨ ∃ response, run.responses = prior ++ [response]))

/-- What a request was told at its stage. -/
def Told (run : KISRequest D) : Prop :=
  match run.stage with
  | .acquiring | .lookingUp | .issuing .request | .storing .request _ =>
    Before run run.responses ∧ run.sends = run.responses.length
  | .sending .. => Before run run.responses ∧ run.sends = run.responses.length + 1
  | .resting _ _ response _ | .parsing response =>
    ∃ prior, Before run prior ∧ run.responses = prior ++ [response] ∧ run.sends = prior.length + 1
  | .deleting | .issuing .refresh | .storing .refresh _ =>
    run.isRetry = false ∧ run.sends = 1 ∧ ∃ response, response.Expired ∧ run.responses = [response]
  | .done result => ∃ prior, Before run prior ∧ Concluded run prior result

/-- A request is sent at most twice, and the second time because its token had expired. With a result it was told the
last time that it went well; it gives up on its token after two answers that it has expired. -/
structure TriedTwice (run : KISRequest D) : Prop where
  sends : run.sends ≤ 2
  answers : run.responses.length ≤ run.sends ∧ run.sends ≤ run.responses.length + 1
  again : run.sends = 2 → ∃ response, run.responses.head? = some response ∧ response.Expired
  ok : ∀ data, run.stage = .done (.ok data) →
    ∃ base : KISBaseResponse, base.isOk ∧ run.responses.getLast? = some (.json base data)
  expired : ∀ message, run.stage = .done (.error (.tokenExpiredError message)) →
    run.responses.length = 2 ∧ ∀ response ∈ run.responses, response.Expired

theorem Before.length_le {prior : List (KISResponse D)} (h : Before run prior) : prior.length ≤ 1 := by
  rcases h with ⟨-, rfl⟩ | ⟨-, response, -, rfl⟩ <;> simp

theorem Before.head {prior : List (KISResponse D)} (h : Before run prior) (hlength : 1 ≤ prior.length)
    (hresponses : run.responses = prior ∨ ∃ response, run.responses = prior ++ [response]) :
    ∃ response, run.responses.head? = some response ∧ response.Expired := by
  rcases h with ⟨-, rfl⟩ | ⟨-, response, hexpired, rfl⟩
  · simp at hlength
  · refine ⟨response, ?_, hexpired⟩
    rcases hresponses with hresponses | ⟨last, hresponses⟩ <;> rw [hresponses] <;> rfl

/-- What holds of a request that is not done: an answer after those before the try has not been read. -/
structure Underway (run : KISRequest D) (prior : List (KISResponse D)) : Prop where
  before : Before run prior
  responses : run.responses = prior ∨ ∃ response, run.responses = prior ++ [response]
  le : run.responses.length ≤ run.sends
  sends_le : run.sends ≤ prior.length + 1

theorem Told.underway (h : Told run) (hdone : ∀ result, run.stage ≠ .done result) : ∃ prior, Underway run prior := by
  have hunsent : Before run run.responses ∧ run.sends = run.responses.length → ∃ prior, Underway run prior :=
    fun h => ⟨_, h.1, .inl rfl, by omega, by omega⟩
  have hexpired : (run.isRetry = false ∧ run.sends = 1 ∧ ∃ response, response.Expired ∧ run.responses = [response]) →
      ∃ prior, Underway run prior := by
    rintro ⟨hretry, hsends, response, -, hresponses⟩
    exact ⟨[], .inl ⟨hretry, rfl⟩, .inr ⟨response, hresponses⟩, by simp [hresponses, hsends], hsends.le⟩
  have hanswered : ∀ response, (∃ prior, Before run prior ∧ run.responses = prior ++ [response] ∧
      run.sends = prior.length + 1) → ∃ prior, Underway run prior := by
    rintro response ⟨prior, hbefore, hresponses, hsends⟩
    exact ⟨prior, hbefore, .inr ⟨response, hresponses⟩, by simp [hresponses, hsends], hsends.le⟩
  unfold Told at h
  split at h <;> rename_i hstage
  · exact hunsent h
  · exact hunsent h
  · exact hunsent h
  · exact hunsent h
  · exact ⟨_, h.1, .inl rfl, by omega, by omega⟩
  · exact hanswered _ h
  · exact hanswered _ h
  · exact hexpired h
  · exact hexpired h
  · exact hexpired h
  · exact absurd hstage (hdone _)

theorem Underway.triedTwice {prior : List (KISResponse D)} (h : Underway run prior)
    (hdone : ∀ result, run.stage ≠ .done result) : TriedTwice run := by
  have hlength := h.before.length_le
  have hsends := h.sends_le
  have hle : prior.length ≤ run.responses.length := by
    rcases h.responses with hresponses | ⟨response, hresponses⟩ <;> simp [hresponses]
  refine ⟨by omega, ⟨h.le, by omega⟩, fun htwo => h.before.head (by omega) h.responses, fun data hstage => ?_,
    fun message hstage => ?_⟩
  · exact absurd hstage (hdone _)
  · exact absurd hstage (hdone _)

theorem Concluded.triedTwice {prior : List (KISResponse D)} {result : Except KISError D}
    (h : Concluded run prior result) (hbefore : Before run prior) (hstage : run.stage = .done result) :
    TriedTwice run := by
  have hlength := hbefore.length_le
  rcases h with ⟨response, hresponses, hsends, houtcome⟩ | ⟨error, hunread, rfl, hle, hsends, hresponses⟩
  · have hcount : run.responses.length = prior.length + 1 := by simp [hresponses]
    refine ⟨by omega, by omega, fun htwo => hbefore.head (by omega) (.inr ⟨response, hresponses⟩),
      fun data hdata => ?_, fun message hmessage => ?_⟩
    · rw [hstage] at hdata
      cases hdata
      obtain ⟨base, hok, rfl⟩ := KISResponse.outcome_eq_ok houtcome
      exact ⟨base, hok, by simp [hresponses]⟩
    · rw [hstage] at hmessage
      cases hmessage
      obtain ⟨hretry, hexpired⟩ := KISResponse.outcome_eq_tokenExpired houtcome
      rcases hbefore with ⟨hfirst, -⟩ | ⟨-, response', hexpired', rfl⟩
      · rw [hretry] at hfirst
        cases hfirst
      · refine ⟨by simpa using hcount, fun r hr => ?_⟩
        rw [hresponses] at hr
        rcases List.mem_append.1 hr with hr | hr
        · rw [List.mem_singleton.1 hr]
          exact hexpired'
        · rw [List.mem_singleton.1 hr]
          exact hexpired
  · have hcount : prior.length ≤ run.responses.length := by
      rcases hresponses with hresponses | ⟨response, hresponses⟩ <;> simp [hresponses]
    refine ⟨by omega, by omega, fun htwo => hbefore.head (by omega) hresponses, fun data hdata => ?_,
      fun message hmessage => ?_⟩
    · rw [hstage] at hdata
      cases hdata
    · rw [hstage] at hmessage
      cases hmessage
      cases hunread

theorem Told.triedTwice (h : Told run) : TriedTwice run := by
  by_cases hdone : ∃ result, run.stage = .done result
  · obtain ⟨result, hstage⟩ := hdone
    unfold Told at h
    rw [hstage] at h
    obtain ⟨prior, hbefore, hconcluded⟩ := h
    exact hconcluded.triedTwice hbefore hstage
  · have hdone' := not_exists.1 hdone
    obtain ⟨prior, hunderway⟩ := h.underway hdone'
    exact hunderway.triedTwice hdone'

/-- A request that ends before its answer is read. -/
theorem Told.fails (h : Told run) (hdone : ∀ result, run.stage ≠ .done result) {error : KISError}
    (hunread : error.Unread) : Told (run.move (.done (.error error))) := by
  obtain ⟨prior, hunderway⟩ := h.underway hdone
  exact ⟨prior, hunderway.before, .inr ⟨error, hunread, rfl, hunderway.le, hunderway.sends_le, hunderway.responses⟩⟩

/-- Every step leads to what the request was told at its next stage. -/
theorem Move.told (hmove : Move connections s run s' run') (h : Told run) : Told run' := by
  have hall := h
  unfold Told at h
  cases hmove with
  | idle => exact hall
  | acquire hstage hfree => rw [hstage] at h; exact h
  | found token hstage hcached =>
    rw [hstage] at h
    exact ⟨h.1, congrArg (· + 1) h.2⟩
  | missing hstage => rw [hstage] at h; exact h
  | issued purpose token hstage =>
    rw [hstage] at h
    cases purpose <;> exact h
  | stored purpose token hstage =>
    rw [hstage] at h
    cases purpose with
    | request => exact ⟨h.1, congrArg (· + 1) h.2⟩
    | refresh =>
      obtain ⟨hretry, hsends, response, hexpired, hresponses⟩ := h
      exact ⟨.inr ⟨rfl, response, hexpired, hresponses⟩, by simp [useToken, hsends, hresponses]⟩
  | answered token sentAt response hstage =>
    rw [hstage] at h
    exact ⟨run.responses, h.1, rfl, h.2⟩
  | rested token sentAt response respondedAt hstage hpause => rw [hstage] at h; exact h
  | settled response hstage =>
    rw [hstage] at h
    obtain ⟨prior, hbefore, hresponses, hsends⟩ := h
    unfold settle
    split
    · rename_i result houtcome
      exact ⟨prior, hbefore, .inl ⟨response, hresponses, hsends, houtcome⟩⟩
    · rename_i houtcome
      obtain ⟨hretry, hexpired⟩ := KISResponse.outcome_eq_none houtcome
      rcases hbefore with ⟨-, rfl⟩ | ⟨hretry', -⟩
      · exact ⟨hretry, hsends, response, hexpired, hresponses⟩
      · rw [hretry] at hretry'
        cases hretry'
  | deleted hstage => rw [hstage] at h; exact h
  | failed s₁ error hunread hdone hsent h => exact hall.fails hdone hunread
  | lost token sentAt error hunread hstage => exact hall.fails (by simp [hstage]) hunread
  | cancelled token sentAt response respondedAt error hunread hstage => exact hall.fails (by simp [hstage]) hunread

/-! ## Tries -/

/-- The tries of a request that are over are recorded: as many as it was sent, but for one under way, and as many of
them answered as it got answers, but for one it is pausing after. Only a request that has failed was cancelled in a
pause. -/
structure Logged (s : KISDesk) (run : KISRequest D) : Prop where
  recorded : ∀ r ∈ run.tries, r ∈ s.sent
  sends : run.tries.length + run.stage.sentAt.toList.length = run.sends
  answers : (run.tries.filter (·.answeredAt.isSome)).length + run.stage.respondedAt.toList.length = run.responses.length
  cancelled : ∀ r ∈ run.tries, r.cancelled = true → ∃ error, run.stage = .done (.error error)

/-- A try, and an answer, counts once: while it is under way, or when it is recorded. -/
theorem Move.counts (h : Move connections s run s' run') :
    run'.tries.length + run'.stage.sentAt.toList.length + run.sends =
      run.tries.length + run.stage.sentAt.toList.length + run'.sends ∧
    (run'.tries.filter (·.answeredAt.isSome)).length + run'.stage.respondedAt.toList.length + run.responses.length =
      (run.tries.filter (·.answeredAt.isSome)).length + run.stage.respondedAt.toList.length +
        run'.responses.length := by
  cases h with
  | idle => exact ⟨rfl, rfl⟩
  | acquire hstage hfree => simp [hstage, move, RequestStage.sentAt, RequestStage.respondedAt]
  | found token hstage hcached =>
    simp only [hstage, send, RequestStage.sentAt, RequestStage.respondedAt, Option.toList_none, Option.toList_some,
      List.length_nil, List.length_singleton, and_true]
    omega
  | missing hstage => simp [hstage, move, RequestStage.sentAt, RequestStage.respondedAt]
  | issued purpose token hstage => simp [hstage, move, RequestStage.sentAt, RequestStage.respondedAt]
  | stored purpose token hstage =>
    cases purpose with
    | request =>
      simp only [hstage, useToken, send, RequestStage.sentAt, RequestStage.respondedAt, Option.toList_none,
        Option.toList_some, List.length_nil, List.length_singleton, and_true]
      omega
    | refresh => simp [hstage, useToken, RequestStage.sentAt, RequestStage.respondedAt]
  | answered token sentAt response hstage =>
    simp only [hstage, receive, RequestStage.sentAt, RequestStage.respondedAt, Option.toList_none, Option.toList_some,
      List.length_nil, List.length_append, List.length_singleton, true_and]
    omega
  | rested token sentAt response respondedAt hstage hpause =>
    simp [hstage, move, KISRequest.log, KISDesk.ended, RequestStage.sentAt, RequestStage.respondedAt]
  | settled response hstage =>
    unfold settle
    split <;> simp [hstage, move, RequestStage.sentAt, RequestStage.respondedAt]
  | deleted hstage => simp [hstage, move, RequestStage.sentAt, RequestStage.respondedAt]
  | failed s₁ error hunread hdone hsent h =>
    have hresponded : run.stage.respondedAt = none := by
      cases hstage : run.stage with
      | resting => simp [hstage, RequestStage.sentAt] at hsent
      | _ => rfl
    rw [hsent, hresponded]
    exact ⟨rfl, rfl⟩
  | lost token sentAt error hunread hstage =>
    simp [hstage, move, KISRequest.log, KISDesk.ended, RequestStage.sentAt, RequestStage.respondedAt]
  | cancelled token sentAt response respondedAt error hunread hstage =>
    simp [hstage, move, KISRequest.log, KISDesk.ended, RequestStage.sentAt, RequestStage.respondedAt]

/-- A request that is done takes no step. -/
theorem Move.done (h : Move connections s run s' run') {result : Except KISError D} (hdone : run.stage = .done result) :
    run' = run := by
  cases h with
  | idle => rfl
  | failed s₁ error hunread hnot hsent h => exact absurd hdone (hnot result)
  | _ => simp_all

theorem Move.logged (h : Move connections s run s' run') (hlog : Logged s run) : Logged s' run' := by
  obtain ⟨hsends, hanswers⟩ := h.counts
  have hbefore := hlog.sends
  have hbefore' := hlog.answers
  refine ⟨?_, by omega, by omega, ?_⟩
  · rcases h.sent with ⟨hsame, htries⟩ | ⟨r, hnew, htries, -, -⟩
    · rw [hsame, htries]
      exact hlog.recorded
    · rw [hnew, htries]
      intro r' hr'
      rcases List.mem_append.1 hr' with hr' | hr'
      · exact List.mem_append_left _ (hlog.recorded r' hr')
      · exact List.mem_append_right _ hr'
  · have hold : ∀ r ∈ run.tries, r.cancelled = true → ∃ error, run'.stage = .done (.error error) := by
      intro r hr hcancelled
      obtain ⟨error, hdone⟩ := hlog.cancelled r hr hcancelled
      rw [h.done hdone]
      exact ⟨error, hdone⟩
    rcases h.sent with ⟨-, htries⟩ | ⟨r, -, htries, -, hcancelled⟩
    · rw [htries]
      exact hold
    · rw [htries]
      intro r' hr'
      rcases List.mem_append.1 hr' with hr' | hr'
      · exact hold r' hr'
      · rw [List.mem_singleton.1 hr']
        exact hcancelled

end KISRequest

/-! ## Every run of the requests -/

namespace KISDesk

open KISRequest

variable {D : Type} {connections : ℕ → KISConnection}

theorem tokens_invariant (hone : ∀ c c', (connections c).accountId = (connections c').accountId →
      (connections c).appKey = (connections c').appKey) :
    Pool.Invariant (system D connections) (TokensIssued connections) (HasToken connections) (fun _ _ => True) where
  start call s run _ h := by
    cases h
    exact ⟨hasToken_of_none rfl, fun _ _ => ⟨trivial, trivial⟩⟩
  env e s h := by
    cases e with
    | tick elapsed => exact ⟨h.mono (fun _ h => h) rfl fun _ _ h => h, fun _ hrun => hrun⟩
    | expire key => exact ⟨h.deleteToken key, fun _ hrun => hrun⟩
  step c s run h hrun :=
    ⟨(KISRequest.step_move connections s run c).tokensIssued hone h hrun,
      (KISRequest.step_move connections s run c).hasToken h hrun⟩
  others c s run other _ _ hother _ _ :=
    ⟨hother.mono (KISRequest.step_move connections s run c).issued_subset, trivial, trivial⟩

theorem spaced_invariant :
    Pool.Invariant (system D connections) (Spaced connections) InTurn Exclusive where
  start call s run _ h := by
    cases h
    refine ⟨⟨fun hholds => ?_, fun _ hsentAt => ?_⟩, fun other _ => ⟨fun hholds _ => ?_, fun _ hholds => ?_⟩⟩
    · cases hholds
    · cases hsentAt
    · cases hholds
    · cases hholds
  env e s h := by
    cases e with
    | tick elapsed =>
      have hle : s.now ≤ s.now + elapsed := by omega
      exact ⟨⟨fun r hr => (h.past r hr).trans hle, h.paused, h.apart⟩, fun run hrun => ⟨hrun.held, hrun.after⟩⟩
    | expire key => exact ⟨⟨h.past, h.paused, h.apart⟩, fun run hrun => ⟨hrun.held, hrun.after⟩⟩
  step c s run h hrun :=
    ⟨(KISRequest.step_move connections s run c).spaced h hrun,
      (KISRequest.step_move connections s run c).inTurn h hrun⟩
  others c s run other _ hrun hother hapart _ := by
    obtain ⟨hinTurn, hexclusive⟩ := (KISRequest.step_move connections s run c).others hrun hother hapart
    exact ⟨hinTurn, hexclusive, hexclusive.symm⟩

theorem logged_invariant :
    Pool.Invariant (system D connections) (fun _ => True) Logged (fun _ _ => True) where
  start call s run _ h := by
    cases h
    exact ⟨⟨nofun, rfl, rfl, nofun⟩, fun _ _ => ⟨trivial, trivial⟩⟩
  env e s _ := by
    cases e <;> exact ⟨trivial, fun run h => ⟨h.recorded, h.sends, h.answers, h.cancelled⟩⟩
  step c s run _ hrun := ⟨trivial, (KISRequest.step_move connections s run c).logged hrun⟩
  others c s run other _ _ hother _ _ := by
    refine ⟨⟨fun r hr => ?_, hother.sends, hother.answers, hother.cancelled⟩, trivial, trivial⟩
    rcases (KISRequest.step_move connections s run c).sent with ⟨hsame, -⟩ | ⟨r', hnew, -, -, -⟩
    · rw [show ((system D connections).step c s run).1.sent = s.sent from hsame]
      exact hother.recorded r hr
    · rw [show ((system D connections).step c s run).1.sent = s.sent ++ [r'] from hnew]
      exact List.mem_append_left _ (hother.recorded r hr)

theorem told_invariant :
    Pool.Invariant (system D connections) (fun _ => True) (fun _ => Told) (fun _ _ => True) where
  start call s run _ h := by
    cases h
    exact ⟨⟨.inl ⟨rfl, rfl⟩, rfl⟩, fun _ _ => ⟨trivial, trivial⟩⟩
  env _ _ _ := ⟨trivial, fun _ h => h⟩
  step c s run _ hrun :=
    ⟨trivial, (KISRequest.step_move connections s run c).told hrun⟩
  others _ _ _ _ _ _ hother _ _ := ⟨hother, trivial, trivial⟩

/-- However the requests of the clients interleave, and wherever they fail: a request is sent, and under way, with a
token that was issued for the app key of its client, if that holds of the tokens in the cache at first and the clients
of one account have one app key. -/
theorem requests_proper (connections : ℕ → KISConnection)
    (hone : ∀ c c', (connections c).accountId = (connections c').accountId →
      (connections c).appKey = (connections c').appKey)
    (cache : Dict String String) (issued : List (String × String)) (now : ℤ)
    (hcache : ∀ client token, cache.get? (connections client).cacheKeyToken = some token →
      ((connections client).appKey, token) ∈ issued)
    (events : List (Pool.Event RequestCall KISEvent (RequestChoice D))) :
    let p := (system D connections).run events ⟨{ cache, issued, now }, []⟩
    (∀ r ∈ p.shared.sent, Proper connections p.shared r) ∧ ∀ run ∈ p.tasks, HasToken connections p.shared run := by
  have htokens := (tokens_invariant (D := D) hone).run (p := ⟨{ cache, issued, now }, []⟩)
    (Pool.holds_nil ⟨hcache, fun r hr => by cases hr⟩) events
  refine ⟨htokens.shared.sent, fun run hrun => ?_⟩
  obtain ⟨i, hi⟩ := List.getElem?_of_mem hrun
  exact htokens.tasks i run hi

/-- Two accounts; the first one has two clients. -/
def twoAccounts : ℕ → KISConnection
  | 0 | 1 => { accountId := "acct-1", appKey := "key-1", appSecret := "secret-1" }
  | _ => { accountId := "acct-2", appKey := "key-2", appSecret := "secret-2", isPaper := false }

/-- The second client of the first account uses the token that was issued for the first one. -/
theorem requests_proper_twoAccounts :
    let p := (system Unit twoAccounts).run [.start ⟨0, "TTTC0012U", ""⟩, .start ⟨1, "FHKST01010100", ""⟩,
      .step 0 .proceed, .step 0 .proceed, .step 0 (.tokenAnswer (.accessToken "token-1")), .step 0 .proceed,
      .step 1 .proceed, .step 1 .proceed, .step 1 (.clientError "reset")]
      ⟨{ cache := Dict.empty, issued := [], now := 0 }, []⟩
    (p.shared.sent.map fun r => (r.headers.appkey, r.token)) = [("key-1", "token-1")] ∧
      ∀ r ∈ p.shared.sent, Proper twoAccounts p.shared r := by
  refine ⟨by decide +kernel, ?_⟩
  refine (requests_proper twoAccounts (fun c c' h => ?_) Dict.empty [] 0 (fun client token h => ?_) _).1
  · revert h
    rcases c with _ | _ | c <;> rcases c' with _ | _ | c' <;> simp [twoAccounts]
  · rw [Dict.get?_empty] at h
    cases h

/-- However the requests of the clients interleave, those of one client are sent one after the other: a request is
sent when the one before is over, and one that was answered is over after the pause of its client, unless it was
cancelled in it. At no time two of them are under way. The records tell of every try and of every answer. -/
theorem requests_spaced (connections : ℕ → KISConnection) (cache : Dict String String) (now : ℤ)
    (events : List (Pool.Event RequestCall KISEvent (RequestChoice D))) :
    let p := (system D connections).run events ⟨{ cache, now }, []⟩
    (p.shared.sent.Pairwise fun r r' => r.client = r'.client → r.endedAt ≤ r'.sentAt) ∧
    (∀ r ∈ p.shared.sent, r.Paused connections) ∧
    (∀ run ∈ p.tasks, ∀ sentAt, run.stage.sentAt = some sentAt → ∀ r ∈ p.shared.sent, r.client = run.client →
      r.endedAt ≤ sentAt) ∧
    (∀ (i j : ℕ) (run run' : KISRequest D), p.tasks[i]? = some run → p.tasks[j]? = some run' →
      run.stage.sentAt ≠ none → run'.stage.sentAt ≠ none → run.client = run'.client → i = j) ∧
    ∀ run ∈ p.tasks, Logged p.shared run := by
  have hspaced := (@spaced_invariant D connections).run (p := ⟨{ cache, now }, []⟩)
    (Pool.holds_nil ⟨fun r hr => (by cases hr), fun r hr => (by cases hr), List.Pairwise.nil⟩) events
  have hlogged := (@logged_invariant D connections).run (p := ⟨{ cache, now }, []⟩) (Pool.holds_nil trivial) events
  refine ⟨hspaced.shared.apart, hspaced.shared.paused, fun run hrun => ?_,
    fun i j run run' hi hj hsent hsent' hclient => ?_,
    fun run hrun => ?_⟩
  · obtain ⟨i, hi⟩ := List.getElem?_of_mem hrun
    exact (hspaced.tasks i run hi).after
  · by_contra hij
    obtain ⟨sentAt, hsentAt⟩ := Option.ne_none_iff_exists'.1 hsent
    obtain ⟨sentAt', hsentAt'⟩ := Option.ne_none_iff_exists'.1 hsent'
    exact hspaced.apart i j run run' hi hj hij (holds_of_sentAt hsentAt) (holds_of_sentAt hsentAt') hclient
  · obtain ⟨i, hi⟩ := List.getElem?_of_mem hrun
    exact hlogged.tasks i run hi

/-- However the requests of the clients interleave, and wherever they fail: each is sent at most twice, and the second
time because the first answer says that its token has expired. -/
theorem requests_tried (connections : ℕ → KISConnection) (s : KISDesk)
    (events : List (Pool.Event RequestCall KISEvent (RequestChoice D))) :
    ∀ run ∈ ((system D connections).run events ⟨s, []⟩).tasks, TriedTwice run := by
  intro run hrun
  have htold := (@told_invariant D connections).run (p := ⟨s, []⟩) (Pool.holds_nil trivial) events
  obtain ⟨i, hi⟩ := List.getElem?_of_mem hrun
  exact (htold.tasks i run hi).triedTwice

/-- The token in the cache has expired; the request goes well with a new one. -/
theorem requests_tried_expired :
    let tasks := ((system ℕ twoAccounts).run [.start ⟨0, "FHKST01010100", ""⟩, .step 0 .proceed, .step 0 .proceed,
      .step 0 (.respond (.json { rtCd := "1", msgCd := "EGW00123" } 0)), .env (.tick 500000), .step 0 .proceed,
      .step 0 .proceed, .step 0 .proceed, .step 0 (.tokenAnswer (.accessToken "token-2")), .step 0 .proceed,
      .step 0 (.respond (.json { rtCd := "0" } 70000)), .env (.tick 500000), .step 0 .proceed, .step 0 .proceed]
      ⟨{ cache := Dict.empty.set (twoAccounts 0).cacheKeyToken "token-1", now := 0 }, []⟩).tasks
    tasks.map (·.sends) = [2] ∧ ∀ run ∈ tasks, TriedTwice run :=
  ⟨by decide +kernel, requests_tried twoAccounts _ _⟩

end KISDesk

end TradingAgent
