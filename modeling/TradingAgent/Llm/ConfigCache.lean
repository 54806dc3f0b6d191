/-
The model assignments of the agents, read by the router through the cache while the admin API changes them. A reader
takes the entry of the cache, or reads the database and stores what it read, which takes time; an admin request commits
its change and then removes entries. Entries expire.

What a reader is served is what the database gave at a time that lies back no longer than the life of an entry and the
longest time that a reader took to store what it had read. If at some time there is neither an entry for an agent nor a
reader about to store one, what is served later was read later.
-/
import TradingAgent.Llm.Router
import TradingAgent.Lib.CacheAside
import TradingAgent.Lib.Pool
import TradingAgent.Lib.Rounding

namespace TradingAgent

open CacheAside

/-! ## The table -/

def AgentType.ofValue? : String → Option AgentType
  | "market_analyst" => some .marketAnalyst
  | "stock_analyst" => some .stockAnalyst
  | "risk_manager" => some .riskManager
  | "trader" => some .trader
  | "sentiment_analyzer" => some .sentimentAnalyzer
  | "report_generator" => some .reportGenerator
  | "web_verifier" => some .webVerifier
  | _ => none

def RoutingMode.ofValue? : String → Option RoutingMode
  | "fixed" => some .fixed
  | "escalation" => some .escalation
  | _ => none

/-- A row: the model assignment of an agent as the database has it. -/
structure AgentModelConfigDB where
  routingMode : String
  primaryModel : String
  escalationModel : Option String := none
  confidenceThreshold : Option Decimal := none
  isActive : Bool := true
  updatedBy : String := "system"
  deriving DecidableEq

namespace AgentModelConfigDB

/-- The configuration of a row; an unknown agent or routing mode cannot be one. -/
def config? (agentType : String) (row : AgentModelConfigDB) : Option AgentModelConfig := do
  let agentType ← AgentType.ofValue? agentType
  let routingMode ← RoutingMode.ofValue? row.routingMode
  pure { agentType, routingMode, primaryModel := row.primaryModel, escalationModel := row.escalationModel
         confidenceThreshold := row.confidenceThreshold, isActive := row.isActive, updatedBy := row.updatedBy }

/-- The column of the threshold has four decimal places. -/
def numeric (threshold : Decimal) : Decimal := Rounding.halfUp (threshold * 10000) / 10000

end AgentModelConfigDB

/-- The body of an update; what it leaves out stays. -/
structure UpdateConfigRequest where
  routingMode : Option String := none
  primaryModel : Option String := none
  escalationModel : Option String := none
  confidenceThreshold : Option Decimal := none
  isActive : Option Bool := none
  updatedBy : String := "admin"

/-- The row with the fields of the body set. -/
def UpdateConfigRequest.apply (body : UpdateConfigRequest) (row : AgentModelConfigDB) : AgentModelConfigDB where
  routingMode := body.routingMode.getD row.routingMode
  primaryModel := body.primaryModel.getD row.primaryModel
  escalationModel := body.escalationModel <|> row.escalationModel
  confidenceThreshold := body.confidenceThreshold <|> row.confidenceThreshold
  isActive := body.isActive.getD row.isActive
  updatedBy := body.updatedBy

/-- A commit writes the columns that differ from those that were loaded. -/
def AgentModelConfigDB.flush (loaded new current : AgentModelConfigDB) : AgentModelConfigDB where
  routingMode := if new.routingMode = loaded.routingMode then current.routingMode else new.routingMode
  primaryModel := if new.primaryModel = loaded.primaryModel then current.primaryModel else new.primaryModel
  escalationModel := if new.escalationModel = loaded.escalationModel then current.escalationModel
    else new.escalationModel
  confidenceThreshold := if new.confidenceThreshold = loaded.confidenceThreshold then current.confidenceThreshold
    else new.confidenceThreshold.map AgentModelConfigDB.numeric
  isActive := if new.isActive = loaded.isActive then current.isActive else new.isActive
  updatedBy := if new.updatedBy = loaded.updatedBy then current.updatedBy else new.updatedBy

/-- The rows by their agents. -/
abbrev ConfigTable := Dict String AgentModelConfigDB

/-- The default of an agent in the YAML file. -/
structure ConfigDefault where
  routingMode : String
  primaryModel : String
  escalationModel : Option String := none
  confidenceThreshold : Option Decimal := none

/-- The row that a default stands for; a threshold of zero counts as none. -/
def ConfigDefault.row (cfg : ConfigDefault) : AgentModelConfigDB where
  routingMode := cfg.routingMode
  primaryModel := cfg.primaryModel
  escalationModel := cfg.escalationModel
  confidenceThreshold := cfg.confidenceThreshold.filter (· ≠ 0)

/-- A reset sets the row of every agent that has a default. -/
def resetTable (defaults : List (String × ConfigDefault)) (table : ConfigTable) : ConfigTable :=
  defaults.foldl (fun table e => table.set e.1 { e.2.row with
    confidenceThreshold := e.2.row.confidenceThreshold.map AgentModelConfigDB.numeric }) table

/-- The defaults of the YAML file, and how the router caches: not at all, or for the life of an entry in seconds. -/
structure ConfigSettings where
  defaults : List (String × ConfigDefault)
  cacheTtl : Option ℕ

namespace ConfigSettings

variable (C : ConfigSettings)

/-- The default of an agent. -/
def configFromYaml (agentType : String) : Option AgentModelConfig :=
  (C.defaults.find? fun e => e.1 = agentType).bind fun e => e.2.row.config? agentType

/-- What the database gives for an agent: its row, or else the default. -/
def configOf (agentType : String) (table : ConfigTable) : Option AgentModelConfig :=
  match table.get? agentType with
  | some row => row.config? agentType
  | none => C.configFromYaml agentType

end ConfigSettings

/-! ## Readers and writers -/

/-- An entry of the cache, with the time its configuration was read at and the time it drops out. -/
structure CachedConfig where
  config : AgentModelConfig
  readAt : ℤ
  expiresAt : ℤ

/-- The table, since when it is as it is and what it was before; the cache and the clock. The longest time that a
reader took to store what it had read is recorded. -/
structure ConfigDesk where
  table : ConfigTable
  since : ℤ
  older : List (ℤ × ConfigTable) := []
  redis : Dict String CachedConfig := Dict.empty
  now : ℤ
  slowest : ℤ := 0

namespace ConfigDesk

variable (s : ConfigDesk)

def history : List (ℤ × ConfigTable) := (s.since, s.table) :: s.older

def commit (table : ConfigTable) : ConfigDesk := { s with table, since := s.now, older := s.history }

/-- The entry of an agent, unless it has expired. -/
def cached? (agentType : String) : Option CachedConfig :=
  (s.redis.get? agentType).filter fun entry => s.now < entry.expiresAt

def setEntry (agentType : String) (config : AgentModelConfig) (readAt : ℤ) (ttl : ℕ) : ConfigDesk :=
  { s with redis := s.redis.set agentType { config, readAt, expiresAt := s.now + ttl } }

def removeEntries (agentTypes : List String) : ConfigDesk :=
  { s with redis := s.redis.dropKeys fun agentType => agentTypes.contains agentType }

/-- A reader is through with storing what it read. -/
def stored (readAt : ℤ) : ConfigDesk := { s with slowest := max s.slowest (s.now - readAt) }

end ConfigDesk

/-- Where a reader stands. -/
inductive ReaderStage
  | lookingUp
  | querying
  | storing (config : AgentModelConfig) (readAt : ℤ)
  | served (config : AgentModelConfig) (readAt servedAt : ℤ)
  | raised

/-- A reader of the configuration of an agent. -/
structure ConfigReader where
  agentType : String
  stage : ReaderStage := .lookingUp

/-- How the awaited call ends: as it should, with an error of the cache, or with an error that is not handled. A call
that fails may have had its effect. -/
inductive ConfigChoice
  | returns
  | cacheError (applied : Bool)
  | raises (applied : Bool)
  | page (agentTypes : List String) (last : Bool)

namespace ConfigReader

variable (C : ConfigSettings) (s : ConfigDesk) (reader : ConfigReader)

def move (stage : ReaderStage) : ConfigReader := { reader with stage }

/-- The answer of the database; a row is stored in the cache before it is served. -/
def receive : ConfigReader :=
  match C.configOf reader.agentType s.table with
  | none => reader.move .raised
  | some config =>
    if C.cacheTtl.isSome ∧ s.table.contains reader.agentType then reader.move (.storing config s.now)
    else reader.move (.served config s.now s.now)

def store (applied : Bool) (config : AgentModelConfig) (readAt : ℤ) : ConfigDesk :=
  match C.cacheTtl with
  | some ttl => (if applied then s.setEntry reader.agentType config readAt ttl else s).stored readAt
  | none => s.stored readAt

/-- The steps of `_get_agent_config`. A choice that does not fit the stage is no step. -/
def step : ReaderStage → ConfigChoice → ConfigDesk × ConfigReader
  | .lookingUp, .returns =>
    if C.cacheTtl.isSome then
      match s.cached? reader.agentType with
      | some entry => (s, reader.move (.served entry.config entry.readAt s.now))
      | none => (s, reader.move .querying)
    else (s, reader.move .querying)
  | .lookingUp, .cacheError _ => (s, reader.move .querying)
  | .querying, .returns => (s, reader.receive C s)
  | .storing config readAt, .returns => (reader.store C s true config readAt, reader.move (.served config readAt s.now))
  | .storing config readAt, .cacheError applied =>
    (reader.store C s applied config readAt, reader.move (.served config readAt s.now))
  | .storing config readAt, .raises applied => (reader.store C s applied config readAt, reader.move .raised)
  | .lookingUp, .raises _ | .querying, .raises _ => (s, reader.move .raised)
  | _, _ => (s, reader)

end ConfigReader

/-- Where an admin request stands. -/
inductive WriterStage
  | loading (agentType : String) (body : UpdateConfigRequest)
  | committing (agentType : String) (body : UpdateConfigRequest) (loaded : AgentModelConfigDB)
  | resetting
  | deleting (agentType : String)
  | clearing
  | done

namespace WriterStage

variable (C : ConfigSettings) (s : ConfigDesk)

/-- The commit of an update. -/
def commitUpdate (agentType : String) (body : UpdateConfigRequest) (loaded : AgentModelConfigDB) : ConfigDesk :=
  s.commit (s.table.modify agentType (loaded.flush (body.apply loaded)))

/-- The steps of `update_config` and `reset_configs`. An error of a commit ends the request before entries are removed;
an error of the cache is only logged. The keys of the cache are removed page by page. -/
def step : WriterStage → ConfigChoice → ConfigDesk × WriterStage
  | .loading agentType body, .returns =>
    match s.table.get? agentType with
    | some loaded => (s, .committing agentType body loaded)
    | none => (s, .done)
  | .committing agentType body loaded, .returns => (commitUpdate s agentType body loaded, .deleting agentType)
  | .committing agentType body loaded, .raises true => (commitUpdate s agentType body loaded, .done)
  | .resetting, .returns => (s.commit (resetTable C.defaults s.table), .clearing)
  | .resetting, .raises true => (s.commit (resetTable C.defaults s.table), .done)
  | .deleting agentType, .returns => (s.removeEntries [agentType], .done)
  | .deleting agentType, .cacheError true | .deleting agentType, .raises true => (s.removeEntries [agentType], .done)
  | .clearing, .page agentTypes last => (s.removeEntries agentTypes, if last then .done else .clearing)
  | .clearing, .cacheError _ | .clearing, .raises _ | .loading .., .raises _ | .committing .., .raises false
  | .resetting, .raises false | .deleting _, .cacheError false | .deleting _, .raises false => (s, .done)
  | stage, _ => (s, stage)

end WriterStage

/-- A reader or an admin request. -/
inductive ConfigTask
  | reader (reader : ConfigReader)
  | writer (stage : WriterStage)

/-- How a task starts. -/
inductive ConfigCall
  | read (agentType : String)
  | update (agentType : String) (body : UpdateConfigRequest)
  | reset

namespace ConfigTask

def start : ConfigCall → ConfigTask
  | .read agentType => .reader { agentType }
  | .update agentType body => .writer (.loading agentType body)
  | .reset => .writer .resetting

def step (C : ConfigSettings) (choice : ConfigChoice) (s : ConfigDesk) : ConfigTask → ConfigDesk × ConfigTask
  | .reader r => ((r.step C s r.stage choice).1, .reader (r.step C s r.stage choice).2)
  | .writer w => ((w.step C s choice).1, .writer (w.step C s choice).2)

end ConfigTask

/-- All readers and admin requests, while time passes. -/
def ConfigSettings.system (C : ConfigSettings) : Pool.System ConfigDesk ConfigTask ConfigCall ℕ ConfigChoice where
  start call _ := some (ConfigTask.start call)
  env elapsed s := { s with now := s.now + elapsed }
  step choice s task := task.step C choice s

end TradingAgent
