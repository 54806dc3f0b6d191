/-
Requests of KIS clients side by side. A client sends one request at a time and rests after it; the access token comes
from a cache that all clients share, under a key of the account, or is issued anew. A request whose token has expired
is sent once more with a new token, which is issued while other requests go on.
-/
import TradingAgent.Lib.Dict
import TradingAgent.Lib.Pool

namespace TradingAgent

/-! ## Clients -/

/-- The credentials and the token settings of a client. An empty key or secret is turned down. -/
structure KISAuth where
  accountId : String := "default"
  appKey : String
  appSecret : String
  isPaper : Bool := true
  appKey_ne : appKey ≠ "" := by decide
  appSecret_ne : appSecret ≠ "" := by decide

/-- The headers of a request. -/
structure KISHeaders where
  authorization : String
  appkey : String
  appsecret : String
  trId : String
  trCont : String
  deriving DecidableEq

namespace KISAuth

/-- The key of the token in the cache. -/
def cacheKeyToken (auth : KISAuth) : String := "kis:" ++ (auth.accountId ++ ":token")

/-- For paper trading the first letter `T`, `J` or `C` becomes `V`. -/
def convertTrId (auth : KISAuth) (trId : String) : String :=
  if auth.isPaper then
    match trId.toList with
    | first :: rest => if first = 'T' ∨ first = 'J' ∨ first = 'C' then String.ofList ('V' :: rest) else trId
    | [] => trId
  else trId

def buildHeaders (auth : KISAuth) (token trId trCont : String) : KISHeaders :=
  { authorization := "Bearer " ++ token, appkey := auth.appKey, appsecret := auth.appSecret
    trId := auth.convertTrId trId, trCont }

/-- Different accounts have different keys. -/
theorem accountId_eq_of_cacheKeyToken {auth auth' : KISAuth} (h : auth.cacheKeyToken = auth'.cacheKeyToken) :
    auth.accountId = auth'.accountId := by
  unfold cacheKeyToken at h
  have hlist := congrArg String.toList h
  simp only [String.toList_append, List.append_cancel_left_eq, List.append_cancel_right_eq] at hlist
  exact String.ext hlist

end KISAuth

/-- A client: its credentials, and how long it rests after a request, in microseconds. -/
structure KISConnection extends KISAuth where
  rateLimitInterval : ℤ := if isPaper then 500000 else 50000

/-! ## Answers -/

/-- The part of an answer that says how the request went. -/
structure KISBaseResponse where
  rtCd : String := ""
  msgCd : String := ""
  msg1 : String := ""
  deriving DecidableEq

def KISBaseResponse.isOk (base : KISBaseResponse) : Prop := base.rtCd = "0"

instance (base : KISBaseResponse) : Decidable base.isOk := inferInstanceAs (Decidable (_ = _))

/-- The token of the request is not valid any more. -/
def KISBaseResponse.tokenExpired (base : KISBaseResponse) : Prop :=
  ¬ base.isOk ∧ (base.msgCd = "EGW00123" ∨ base.msgCd = "EGW00121")

instance (base : KISBaseResponse) : Decidable base.tokenExpired := inferInstanceAs (Decidable (_ ∧ _))

/-- An answer of the API with its data, or one that is no JSON. -/
inductive KISResponse (D : Type)
  | json (base : KISBaseResponse) (data : D)
  | text (body : String)
  deriving DecidableEq

/-- An answer to a request for a token: its data, of which the token is a part, as a text. -/
inductive TokenAnswer
  | accessToken (token : String) (data : String := "{}")
  | httpError (status : ℕ) (text : String)

/-- How a request fails; an error that is not handled ends it as it is. -/
inductive KISError
  | authError (message : String)
  | apiError (message : String)
  | tokenExpiredError (message : String)
  | rateLimitError (message : String)
  | insufficientFundsError (message : String)
  | kisResponseError (msgCd msg1 trId : String)
  | other (error : String)
  deriving DecidableEq

/-- What an answer means for the request: it ends with a result, or it is sent once more with a new token. -/
def KISResponse.outcome {D : Type} (isRetry : Bool) (trId : String) : KISResponse D → Option (Except KISError D)
  | .text body => some (.error (.apiError ("KIS response JSON parse error: " ++ String.ofList (body.toList.take 200))))
  | .json base data =>
    if base.isOk then some (.ok data)
    else if base.tokenExpired then
      if isRetry then some (.error (.tokenExpiredError ("Token expired after retry: " ++ base.msg1))) else none
    else if base.msgCd = "EGW00201" then some (.error (.rateLimitError ("KIS rate limit: " ++ base.msg1)))
    else if base.msgCd = "APBK0013" then
      some (.error (.insufficientFundsError ("Insufficient funds: " ++ base.msg1)))
    else some (.error (.kisResponseError base.msgCd base.msg1 trId))

/-! ## Requests -/

/-- What a token is issued for: a request under way, or a request that is sent once more. -/
inductive TokenPurpose
  | request | refresh
  deriving DecidableEq

/-- Where a request stands. -/
inductive RequestStage (D : Type)
  | acquiring
  | lookingUp
  | issuing (purpose : TokenPurpose)
  | storing (purpose : TokenPurpose) (token : String)
  | sending (token : String) (sentAt : ℤ)
  | resting (token : String) (sentAt : ℤ) (response : KISResponse D) (respondedAt : ℤ)
  | parsing (response : KISResponse D)
  | deleting
  | done (result : Except KISError D)

/-- The request holds the semaphore of its client. -/
def RequestStage.holds {D : Type} : RequestStage D → Bool
  | .lookingUp | .issuing .request | .storing .request _ | .sending .. | .resting .. => true
  | .acquiring | .issuing .refresh | .storing .refresh _ | .parsing _ | .deleting | .done _ => false

/-- A request that was sent: when it was sent and answered, when it let go of the semaphore, and
whether it was cancelled
in the pause after its answer. -/
structure SentRequest where
  client : ℕ
  token : String
  headers : KISHeaders
  sentAt : ℤ
  answeredAt : Option ℤ
  endedAt : ℤ
  cancelled : Bool := false

/-- A request of a client, with how often it was sent, the answers it got so far, and its tries that are over. -/
structure KISRequest (D : Type) where
  client : ℕ
  trId : String
  trCont : String := ""
  stage : RequestStage D := .acquiring
  isRetry : Bool := false
  sends : ℕ := 0
  responses : List (KISResponse D) := []
  tries : List SentRequest := []

def KISRequest.move {D : Type} (run : KISRequest D) (stage : RequestStage D) : KISRequest D := { run with stage }

/-- What the clients share: the cache, their semaphores and the clock. The tokens that were issued for an app key and
the requests that were sent are recorded. -/
structure KISDesk where
  cache : Dict String String := Dict.empty
  held : ℕ → Bool := fun _ => false
  now : ℤ := 0
  issued : List (String × String) := []
  sent : List SentRequest := []

namespace KISDesk

variable {D : Type} (connections : ℕ → KISConnection) (s : KISDesk)

def acquire (client : ℕ) : KISDesk := { s with held := Function.update s.held client true }

/-- The semaphore is released by the request that holds it. -/
def release (run : KISRequest D) : KISDesk :=
  if run.stage.holds then { s with held := Function.update s.held run.client false } else s

/-- The record of a request that was sent and is over now. -/
def ended (run : KISRequest D) (token : String) (sentAt : ℤ) (answeredAt : Option ℤ) (cancelled : Bool) : SentRequest :=
  { client := run.client, token, headers := (connections run.client).buildHeaders token run.trId run.trCont
    sentAt, answeredAt, endedAt := s.now, cancelled }

def log (r : SentRequest) : KISDesk := { s with sent := s.sent ++ [r] }

def setToken (client : ℕ) (token : String) : KISDesk :=
  { s with cache := s.cache.set (connections client).cacheKeyToken token }

/-- Record that a token was issued for the key of a client. -/
def issue (client : ℕ) (token : String) : KISDesk :=
  { s with issued := s.issued ++ [((connections client).appKey, token)] }

def deleteToken (client : ℕ) : KISDesk := { s with cache := s.cache.erase (connections client).cacheKeyToken }

end KISDesk

/-- How the awaited call of a request ends: with what was asked for, with an error of the network, or with an error
that is not handled, as when the request is cancelled. A call of the cache that fails may have had its effect. -/
inductive RequestChoice (D : Type)
  | proceed
  | tokenAnswer (answer : TokenAnswer)
  | respond (response : KISResponse D)
  | clientError (message : String)
  | fails (applied : Bool) (error : String)

namespace KISRequest

variable {D : Type} (connections : ℕ → KISConnection) (s : KISDesk) (run : KISRequest D)

def log (r : SentRequest) : KISRequest D := { run with tries := run.tries ++ [r] }

/-- The request ends; a semaphore it holds is released. -/
def finish (result : Except KISError D) : KISDesk × KISRequest D := (s.release run, run.move (.done result))

/-- The request ends after it was sent. -/
def lose (r : SentRequest) (error : KISError) : KISDesk × KISRequest D :=
  (run.log r).finish (s.log r) (.error error)

/-- A token was issued: it is stored before it is used. -/
def receiveToken (purpose : TokenPurpose) : TokenAnswer → KISDesk × KISRequest D
  | .accessToken token data =>
    if token = "" then run.finish s (.error (.authError ("KIS token response missing access_token: " ++ data)))
    else (s.issue connections run.client token, run.move (.storing purpose token))
  | .httpError status text => run.finish s
      (.error (.authError ("KIS token request failed (HTTP " ++ toString status ++ "): " ++ text)))

def send (token : String) : KISRequest D := { run with stage := .sending token s.now, sends := run.sends + 1 }

/-- After the token is stored the request is sent, or begins anew. -/
def useToken (token : String) : TokenPurpose → KISRequest D
  | .request => run.send s token
  | .refresh => { run with stage := .acquiring, isRetry := true }

def receive (token : String) (sentAt : ℤ) (response : KISResponse D) : KISRequest D :=
  { run with stage := .resting token sentAt response s.now, responses := run.responses ++ [response] }

/-- What becomes of a request that has its answer. -/
def settle (response : KISResponse D) : KISRequest D :=
  match response.outcome run.isRetry run.trId with
  | some result => run.move (.done result)
  | none => run.move .deleting

/-- An error that is not handled. -/
def fail (applied : Bool) (error : String) : RequestStage D → KISDesk × KISRequest D
  | .storing _ token => run.finish (if applied then s.setToken connections run.client token else s)
    (.error (.other error))
  | .deleting => run.finish (if applied then s.deleteToken connections run.client else s) (.error (.other error))
  | .sending token sentAt => run.lose s (s.ended connections run token sentAt none false) (.other error)
  | .resting token sentAt _ respondedAt =>
    run.lose s (s.ended connections run token sentAt (some respondedAt) true) (.other error)
  | .acquiring | .lookingUp | .issuing _ | .parsing _ => run.finish s (.error (.other error))
  | .done _ => (s, run)

/-- The steps of `_do_request`, with `get_token`, `refresh_token` and `_handle_error`. A choice that does not fit the
stage is no step. -/
def step : RequestStage D → RequestChoice D → KISDesk × KISRequest D
  | .acquiring, .proceed => if s.held run.client then (s, run) else (s.acquire run.client, run.move .lookingUp)
  | .lookingUp, .proceed =>
    match s.cache.get? (connections run.client).cacheKeyToken with
    | some token => (s, run.send s token)
    | none => (s, run.move (.issuing .request))
  | .issuing purpose, .tokenAnswer answer => run.receiveToken connections s purpose answer
  | .issuing _, .clientError message => run.finish s
      (.error (.authError ("KIS token request network error: " ++ message)))
  | .storing purpose token, .proceed => (s.setToken connections run.client token, run.useToken s token purpose)
  | .sending token sentAt, .respond response => (s, run.receive s token sentAt response)
  | .sending token sentAt, .clientError message =>
    run.lose s (s.ended connections run token sentAt none false) (.apiError ("KIS request failed: " ++ message))
  | .resting token sentAt response respondedAt, .proceed =>
    if respondedAt + (connections run.client).rateLimitInterval ≤ s.now then
      ((s.log (s.ended connections run token sentAt (some respondedAt) false)).release run,
        (run.log (s.ended connections run token sentAt (some respondedAt) false)).move (.parsing response))
    else (s, run)
  | .parsing response, .proceed => (s, run.settle response)
  | .deleting, .proceed => (s.deleteToken connections run.client, run.move (.issuing .refresh))
  | stage, .fails applied error => run.fail connections s applied error stage
  | _, _ => (s, run)

end KISRequest

/-! ## The system -/

/-- A request is made by a client. -/
structure RequestCall where
  client : ℕ
  trId : String
  trCont : String := ""

/-- What happens by itself: time passes, and a token drops out of the cache. -/
inductive KISEvent
  | tick (elapsed : ℕ)
  | expire (key : String)

namespace KISDesk

def occur (s : KISDesk) : KISEvent → KISDesk
  | .tick elapsed => { s with now := s.now + elapsed }
  | .expire key => { s with cache := s.cache.erase key }

/-- All requests of the clients. -/
def system (D : Type) (connections : ℕ → KISConnection) :
    Pool.System KISDesk (KISRequest D) RequestCall KISEvent (RequestChoice D) where
  start call _ := some { client := call.client, trId := call.trId, trCont := call.trCont }
  env e s := s.occur e
  step choice s run := run.step connections s run.stage choice

end KISDesk

end TradingAgent
