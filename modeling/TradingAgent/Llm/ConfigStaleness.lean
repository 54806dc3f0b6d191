/-
How old a served configuration may be. Whatever readers and admin requests run side by side, and whichever of their
calls fail: what a reader is served is what the database gave at a time that lies back at most the life of an entry and
the longest time that a reader took to store what it had read. Where neither an entry of an agent nor a reader about to
store one is left, what is served from then on was read from then on.
-/
import TradingAgent.Llm.ConfigCache

namespace TradingAgent

open CacheAside

variable {C : ConfigSettings} {s s' : ConfigDesk}

namespace ConfigDesk

/-- The database gave a configuration for an agent at a time that has come. -/
structure ReadAt (C : ConfigSettings) (s : ConfigDesk) (agentType : String) (config : AgentModelConfig) (t : ℤ) :
    Prop where
  gave : Gave (C.configOf agentType) s.history t (some config)
  past : t ≤ s.now

/-- What is later: the clock, the longest time to store, and what is known of the database. -/
structure Later (C : ConfigSettings) (s s' : ConfigDesk) : Prop where
  now : s.now ≤ s'.now
  slowest : s.slowest ≤ s'.slowest
  gave : ∀ agentType config t, t ≤ s.now → Gave (C.configOf agentType) s.history t (some config) →
    Gave (C.configOf agentType) s'.history t (some config)

theorem later_refl (C : ConfigSettings) (s : ConfigDesk) : Later C s s := ⟨le_rfl, le_rfl, fun _ _ _ _ h => h⟩

theorem Later.trans {s'' : ConfigDesk} (h : Later C s s') (h' : Later C s' s'') : Later C s s'' :=
  ⟨h.now.trans h'.now, h.slowest.trans h'.slowest, fun agentType config t ht hgave =>
    h'.gave agentType config t (ht.trans h.now) (h.gave agentType config t ht hgave)⟩

theorem ReadAt.later {agentType : String} {config : AgentModelConfig} {t : ℤ} (h : ReadAt C s agentType config t)
    (hlater : Later C s s') : ReadAt C s' agentType config t :=
  ⟨hlater.gave agentType config t h.past h.gave, h.past.trans hlater.now⟩

theorem later_commit (C : ConfigSettings) (s : ConfigDesk) (table : ConfigTable) : Later C s (s.commit table) :=
  ⟨le_rfl, le_rfl, fun _ _ _ ht hgave => hgave.commit ht⟩

theorem later_stored (C : ConfigSettings) (s : ConfigDesk) (readAt : ℤ) : Later C s (s.stored readAt) :=
  ⟨le_rfl, le_max_left _ _, fun _ _ _ _ h => h⟩

theorem later_removeEntries (C : ConfigSettings) (s : ConfigDesk) (agentTypes : List String) :
    Later C s (s.removeEntries agentTypes) := ⟨le_rfl, le_rfl, fun _ _ _ _ h => h⟩

theorem later_tick (C : ConfigSettings) (s : ConfigDesk) (elapsed : ℕ) :
    Later C s { s with now := s.now + elapsed } := ⟨by dsimp only; omega, le_rfl, fun _ _ _ _ h => h⟩

/-- An entry was read from the database, and drops out within its life after it was stored. -/
structure EntryKept (C : ConfigSettings) (s : ConfigDesk) (agentType : String) (entry : CachedConfig) : Prop where
  readAt : ReadAt C s agentType entry.config entry.readAt
  expires : entry.expiresAt ≤ entry.readAt + s.slowest + C.cacheTtl.getD 0

theorem EntryKept.later {agentType : String} {entry : CachedConfig} (h : EntryKept C s agentType entry)
    (hlater : Later C s s') : EntryKept C s' agentType entry := by
  have hslowest := hlater.slowest
  exact ⟨h.readAt.later hlater, h.expires.trans (by omega)⟩

/-- The cache and the clock. -/
structure Kept (C : ConfigSettings) (s : ConfigDesk) : Prop where
  since : s.since ≤ s.now
  slowest : 0 ≤ s.slowest
  entries : ∀ agentType entry, s.redis.get? agentType = some entry → EntryKept C s agentType entry

theorem Kept.later (h : Kept C s) (hlater : Later C s s') (hsince : s'.since ≤ s'.now)
    (hredis : ∀ agentType entry, s'.redis.get? agentType = some entry → s.redis.get? agentType = some entry ∨
      EntryKept C s' agentType entry) : Kept C s' := by
  refine ⟨hsince, h.slowest.trans hlater.slowest, fun agentType entry hget => ?_⟩
  rcases hredis agentType entry hget with hold | hnew
  · exact (h.entries agentType entry hold).later hlater
  · exact hnew

theorem get?_removeEntries {agentTypes : List String} {agentType : String} {entry : CachedConfig}
    (h : (s.removeEntries agentTypes).redis.get? agentType = some entry) : s.redis.get? agentType = some entry := by
  unfold removeEntries at h
  dsimp only at h
  rw [Dict.get?_dropKeys] at h
  split at h
  · cases h
  · exact h

end ConfigDesk

open ConfigDesk

/-! ## Readers -/

namespace ConfigReader

variable {reader reader' : ConfigReader}

/-- What a step of a reader does. -/
inductive Move (C : ConfigSettings) (s : ConfigDesk) (reader : ConfigReader) : ConfigDesk → ConfigReader → Prop
  | idle : Move C s reader s reader
  | hit (entry : CachedConfig) (hstage : reader.stage = .lookingUp)
    (hcached : s.cached? reader.agentType = some entry) :
      Move C s reader s (reader.move (.served entry.config entry.readAt s.now))
  | miss (hstage : reader.stage = .lookingUp) : Move C s reader s (reader.move .querying)
  | read (config : AgentModelConfig) (stage : ReaderStage) (hstage : reader.stage = .querying)
      (hconfig : C.configOf reader.agentType s.table = some config)
      (hnext : stage = .storing config s.now ∨ stage = .served config s.now s.now) :
      Move C s reader s (reader.move stage)
  | stored (applied : Bool) (config : AgentModelConfig) (readAt : ℤ) (stage : ReaderStage)
      (hstage : reader.stage = .storing config readAt) (hnext : stage = .served config readAt s.now ∨ stage = .raised) :
      Move C s reader (reader.store C s applied config readAt) (reader.move stage)
  | raised : Move C s reader s (reader.move .raised)

theorem receive_move (C : ConfigSettings) (s : ConfigDesk) (reader : ConfigReader) (hstage : reader.stage = .querying) :
    Move C s reader s (reader.receive C s) := by
  unfold receive
  split
  · exact .raised
  · rename_i config hconfig
    split
    · exact .read config _ hstage hconfig (.inl rfl)
    · exact .read config _ hstage hconfig (.inr rfl)

theorem step_move (C : ConfigSettings) (s : ConfigDesk) (reader : ConfigReader) (choice : ConfigChoice) :
    Move C s reader (reader.step C s reader.stage choice).1 (reader.step C s reader.stage choice).2 := by
  cases hstage : reader.stage with
  | lookingUp =>
    cases choice with
    | returns =>
      simp only [step]
      split
      · split
        · rename_i entry hcached
          exact .hit entry hstage hcached
        · exact .miss hstage
      · exact .miss hstage
    | cacheError applied => exact .miss hstage
    | raises applied => exact .raised
    | page agentTypes last => exact .idle
  | querying =>
    cases choice with
    | returns => exact receive_move C s reader hstage
    | raises applied => exact .raised
    | _ => exact .idle
  | storing config readAt =>
    cases choice with
    | returns => exact .stored true config readAt _ hstage (.inl rfl)
    | cacheError applied => exact .stored applied config readAt _ hstage (.inl rfl)
    | raises applied => exact .stored applied config readAt _ hstage (.inr rfl)
    | page agentTypes last => exact .idle
  | served config readAt servedAt => exact .idle
  | raised => exact .idle

/-- What a reader holds was read from the database, and not too long ago. -/
def Fresh (C : ConfigSettings) (s : ConfigDesk) (reader : ConfigReader) : Prop :=
  match reader.stage with
  | .lookingUp | .querying | .raised => True
  | .storing config readAt => ReadAt C s reader.agentType config readAt
  | .served config readAt servedAt => ReadAt C s reader.agentType config readAt ∧ readAt ≤ servedAt ∧
      servedAt ≤ s.now ∧ servedAt ≤ readAt + s.slowest + C.cacheTtl.getD 0

theorem Fresh.later (h : Fresh C s reader) (hlater : Later C s s') : Fresh C s' reader := by
  unfold Fresh at h ⊢
  split at h
  · trivial
  · trivial
  · trivial
  · exact h.later hlater
  · obtain ⟨hread, hle, hpast, hage⟩ := h
    have hslowest := hlater.slowest
    exact ⟨hread.later hlater, hle, hpast.trans hlater.now, by omega⟩

theorem later_store (C : ConfigSettings) (s : ConfigDesk) (reader : ConfigReader) (applied : Bool)
    (config : AgentModelConfig) (readAt : ℤ) : Later C s (reader.store C s applied config readAt) := by
  unfold store
  split
  · cases applied with
    | true => exact ⟨le_rfl, le_max_left _ _, fun _ _ _ _ h => h⟩
    | false => exact later_stored C s readAt
  · exact later_stored C s readAt

/-- Of the entries that are there after a reader stored one, one at most is new. -/
theorem get?_store {applied : Bool} {config : AgentModelConfig} {readAt : ℤ} {agentType : String} {entry : CachedConfig}
    (h : (reader.store C s applied config readAt).redis.get? agentType = some entry) :
    s.redis.get? agentType = some entry ∨ ∃ ttl, C.cacheTtl = some ttl ∧ agentType = reader.agentType ∧
      entry = { config, readAt, expiresAt := s.now + ttl } := by
  unfold store at h
  split at h
  · rename_i ttl httl
    cases applied with
    | true =>
      have hset : (s.redis.set reader.agentType { config, readAt, expiresAt := s.now + ttl }).get? agentType =
          some entry := h
      rw [Dict.get?_set] at hset
      split at hset
      · rename_i hagent
        cases hset
        exact .inr ⟨ttl, httl, hagent, rfl⟩
      · exact .inl hset
    | false => exact .inl h
  · exact .inl h

theorem slowest_store (C : ConfigSettings) (s : ConfigDesk) (reader : ConfigReader) (applied : Bool)
    (config : AgentModelConfig) (readAt : ℤ) : s.now - readAt ≤ (reader.store C s applied config readAt).slowest := by
  unfold store
  split
  · cases applied <;> exact le_max_right _ _
  · exact le_max_right _ _

theorem now_store (C : ConfigSettings) (s : ConfigDesk) (reader : ConfigReader) (applied : Bool)
    (config : AgentModelConfig) (readAt : ℤ) : (reader.store C s applied config readAt).now = s.now := by
  unfold store
  split
  · cases applied <;> rfl
  · rfl

theorem since_store (C : ConfigSettings) (s : ConfigDesk) (reader : ConfigReader) (applied : Bool)
    (config : AgentModelConfig) (readAt : ℤ) : (reader.store C s applied config readAt).since = s.since := by
  unfold store
  split
  · cases applied <;> rfl
  · rfl

theorem Move.later (h : Move C s reader s' reader') : Later C s s' := by
  cases h with
  | stored applied config readAt stage hstage hnext => exact later_store C s reader applied config readAt
  | _ => exact later_refl C s

theorem Move.kept (h : Move C s reader s' reader') (hs : Kept C s) (hreader : Fresh C s reader) : Kept C s' := by
  cases h with
  | stored applied config readAt stage hstage hnext =>
    have hlater := later_store C s reader applied config readAt
    unfold Fresh at hreader
    rw [hstage] at hreader
    refine hs.later hlater ?_ fun agentType entry hget => ?_
    · rw [since_store, now_store]
      exact hs.since
    · rcases get?_store hget with hold | ⟨ttl, httl, rfl, rfl⟩
      · exact .inl hold
      · have hslow := slowest_store C s reader applied config readAt
        refine .inr ⟨hreader.later hlater, ?_⟩
        rw [httl, Option.getD_some]
        dsimp only
        omega
  | _ => exact hs

theorem Move.fresh (h : Move C s reader s' reader') (hs : Kept C s) (hreader : Fresh C s reader) :
    Fresh C s' reader' := by
  have hslowest := hs.slowest
  cases h with
  | idle => exact hreader
  | hit entry hstage hcached =>
    obtain ⟨hget, hlive⟩ := Option.filter_eq_some_iff.1 hcached
    have hkept := hs.entries reader.agentType entry hget
    have hexpires := hkept.expires
    have hpast := hkept.readAt.past
    have hnow : s.now < entry.expiresAt := by simpa using hlive
    exact ⟨hkept.readAt, hpast, le_rfl, by omega⟩
  | miss hstage => exact trivial
  | read config stage hstage hconfig hnext =>
    have hread : ReadAt C s reader.agentType config s.now :=
      ⟨⟨s.table, had_now s.older s.table hs.since, hconfig⟩, le_rfl⟩
    rcases hnext with rfl | rfl
    · exact hread
    · exact ⟨hread, le_rfl, le_rfl, by omega⟩
  | stored applied config readAt stage hstage hnext =>
    unfold Fresh at hreader
    rw [hstage] at hreader
    have hlater := later_store C s reader applied config readAt
    have hslow := slowest_store C s reader applied config readAt
    rcases hnext with rfl | rfl
    · refine ⟨hreader.later hlater, hreader.past, ?_, by omega⟩
      rw [now_store]
    · exact trivial
  | raised => exact trivial

end ConfigReader

/-! ## Admin requests -/

namespace WriterStage

/-- An admin request changes the table, or removes entries. -/
theorem step_cases (C : ConfigSettings) (s : ConfigDesk) (w : WriterStage) (choice : ConfigChoice) :
    (w.step C s choice).1 = s ∨ (∃ table, (w.step C s choice).1 = s.commit table) ∨
      ∃ agentTypes, (w.step C s choice).1 = s.removeEntries agentTypes := by
  cases w with
  | loading agentType body =>
    left
    cases choice with
    | returns =>
      simp only [step]
      split <;> rfl
    | _ => rfl
  | committing agentType body loaded =>
    cases choice with
    | returns => exact .inr (.inl ⟨_, rfl⟩)
    | raises applied =>
      cases applied with
      | true => exact .inr (.inl ⟨_, rfl⟩)
      | false => exact .inl rfl
    | _ => exact .inl rfl
  | resetting =>
    cases choice with
    | returns => exact .inr (.inl ⟨_, rfl⟩)
    | raises applied =>
      cases applied with
      | true => exact .inr (.inl ⟨_, rfl⟩)
      | false => exact .inl rfl
    | _ => exact .inl rfl
  | deleting agentType =>
    cases choice with
    | returns => exact .inr (.inr ⟨_, rfl⟩)
    | cacheError applied =>
      cases applied with
      | true => exact .inr (.inr ⟨_, rfl⟩)
      | false => exact .inl rfl
    | raises applied =>
      cases applied with
      | true => exact .inr (.inr ⟨_, rfl⟩)
      | false => exact .inl rfl
    | page agentTypes last => exact .inl rfl
  | clearing =>
    cases choice with
    | page agentTypes last => exact .inr (.inr ⟨_, rfl⟩)
    | _ => exact .inl rfl
  | done => exact .inl (by cases choice <;> rfl)

theorem step_later (C : ConfigSettings) (s : ConfigDesk) (w : WriterStage) (choice : ConfigChoice) :
    Later C s (w.step C s choice).1 := by
  rcases step_cases C s w choice with h | ⟨table, h⟩ | ⟨agentTypes, h⟩ <;> rw [h]
  · exact later_refl C s
  · exact later_commit C s table
  · exact later_removeEntries C s agentTypes

theorem step_redis (C : ConfigSettings) (s : ConfigDesk) (w : WriterStage) (choice : ConfigChoice) {agentType : String}
    {entry : CachedConfig} (hget : (w.step C s choice).1.redis.get? agentType = some entry) :
    s.redis.get? agentType = some entry := by
  rcases step_cases C s w choice with h | ⟨table, h⟩ | ⟨agentTypes, h⟩ <;> rw [h] at hget
  · exact hget
  · exact hget
  · exact get?_removeEntries hget

theorem step_kept (C : ConfigSettings) (w : WriterStage) (choice : ConfigChoice) (hs : Kept C s) :
    Kept C (w.step C s choice).1 := by
  refine hs.later (step_later C s w choice) ?_ fun agentType entry hget => .inl (step_redis C s w choice hget)
  rcases step_cases C s w choice with h | ⟨table, h⟩ | ⟨agentTypes, h⟩ <;> rw [h]
  · exact hs.since
  · exact le_rfl
  · exact hs.since

end WriterStage

/-! ## Every run -/

namespace ConfigTask

/-- What holds of the readers. -/
def Fresh (C : ConfigSettings) (s : ConfigDesk) : ConfigTask → Prop
  | .reader r => r.Fresh C s
  | .writer _ => True

theorem Fresh.later {task : ConfigTask} (h : Fresh C s task) (hlater : Later C s s') : Fresh C s' task := by
  cases task with
  | reader r => exact ConfigReader.Fresh.later h hlater
  | writer w => exact trivial

theorem step_later (C : ConfigSettings) (choice : ConfigChoice) (s : ConfigDesk) (task : ConfigTask) :
    Later C s (task.step C choice s).1 := by
  cases task with
  | reader r => exact (ConfigReader.step_move C s r choice).later
  | writer w => exact WriterStage.step_later C s w choice

end ConfigTask

namespace ConfigSettings

theorem config_invariant (C : ConfigSettings) :
    Pool.Invariant C.system (Kept C) (ConfigTask.Fresh C) (fun _ _ => True) where
  start call s task _ h := by
    cases h
    cases call <;> exact ⟨trivial, fun _ _ => ⟨trivial, trivial⟩⟩
  env elapsed s h := by
    have hlater := later_tick C s elapsed
    exact ⟨h.later hlater (h.since.trans hlater.now) fun _ _ hget => .inl hget, fun task htask => htask.later hlater⟩
  step choice s task hs htask := by
    cases task with
    | reader r =>
      have hmove := ConfigReader.step_move C s r choice
      exact ⟨hmove.kept hs htask, hmove.fresh hs htask⟩
    | writer w => exact ⟨WriterStage.step_kept C w choice hs, trivial⟩
  others choice s task other _ _ hother _ _ :=
    ⟨hother.later (ConfigTask.step_later C choice s task), trivial, trivial⟩

theorem config_holds (C : ConfigSettings) (table : ConfigTable) (now : ℤ)
    (events : List (Pool.Event ConfigCall ℕ ConfigChoice)) :
    Pool.Holds (Kept C) (ConfigTask.Fresh C) (fun _ _ => True)
      (C.system.run events ⟨{ table, since := now, now }, []⟩) := by
  have hkept : Kept C { table, since := now, now } := ⟨le_rfl, le_rfl, fun agentType entry hget => by cases hget⟩
  exact C.config_invariant.run (Pool.holds_nil hkept) events

/-- However readers and admin requests interleave, and whichever of their calls fail: what a reader is served is what
the database gave for its agent at a time before, which lies back at most the life of an entry and the longest time
that a reader took to store what it had read. -/
theorem config_recent (C : ConfigSettings) (table : ConfigTable) (now : ℤ)
    (events : List (Pool.Event ConfigCall ℕ ConfigChoice)) :
    let p := C.system.run events ⟨{ table, since := now, now }, []⟩
    ∀ r : ConfigReader, .reader r ∈ p.tasks → ∀ (config : AgentModelConfig) (readAt servedAt : ℤ),
      r.stage = .served config readAt servedAt →
        Gave (C.configOf r.agentType) p.shared.history readAt (some config) ∧ readAt ≤ servedAt ∧
          servedAt ≤ readAt + p.shared.slowest + C.cacheTtl.getD 0 := by
  intro p r hr config readAt servedAt hstage
  have hholds := C.config_holds table now events
  obtain ⟨i, hi⟩ := List.getElem?_of_mem hr
  have hfresh : r.Fresh C p.shared := hholds.tasks i (.reader r) hi
  unfold ConfigReader.Fresh at hfresh
  rw [hstage] at hfresh
  obtain ⟨hread, hle, -, hage⟩ := hfresh
  exact ⟨hread.gave, hle, hage⟩

/-- The model that a reader was served. -/
def servedModel : ConfigTask → Option String
  | .reader { stage := .served config _ _, .. } => some config.primaryModel
  | _ => none

/-- A reader is served from the cache what was read 200 seconds before. -/
theorem config_recent_trader :
    let C : ConfigSettings := { defaults := [], cacheTtl := some 300 }
    let p := C.system.run [.start (.read "trader"), .step 0 .returns, .step 0 .returns, .step 0 .returns, .env 200,
      .start (.read "trader"), .step 1 .returns]
      ⟨{ table := Dict.empty.set "trader" { routingMode := "fixed", primaryModel := "openai/gpt-4.1" },
         since := 0, now := 0 }, []⟩
    p.tasks.map servedModel = [some "openai/gpt-4.1", some "openai/gpt-4.1"] ∧
      ∀ r : ConfigReader, .reader r ∈ p.tasks → ∀ (config : AgentModelConfig) (readAt servedAt : ℤ),
        r.stage = .served config readAt servedAt → servedAt ≤ readAt + p.shared.slowest + 300 := by
  intro C p
  refine ⟨by decide +kernel, fun r hr config readAt servedAt hstage => ?_⟩
  obtain ⟨-, -, hage⟩ := C.config_recent _ 0 _ r hr config readAt servedAt hstage
  exact hage

/-! ## Without old entries -/

/-- The readers of an agent have read since a time, or were served before it. -/
def ReadSince (t : ℤ) (before : Option ConfigTask) (r : ConfigReader) : Prop :=
  match r.stage with
  | .lookingUp | .querying | .raised => True
  | .storing _ readAt => t ≤ readAt
  | .served _ readAt _ => before = some (.reader r) ∨ t ≤ readAt

/-- What a run keeps after a state without entries of an agent and without readers about to store one. -/
structure Renewed (agentType : String) (p q : Pool.State ConfigDesk ConfigTask) : Prop where
  now : p.shared.now ≤ q.shared.now
  entries : ∀ entry, q.shared.redis.get? agentType = some entry →
    entry.expiresAt ≤ p.shared.now ∨ p.shared.now ≤ entry.readAt
  readers : ∀ (i : ℕ) (r : ConfigReader), q.tasks[i]? = some (.reader r) → r.agentType = agentType →
    ReadSince p.shared.now p.tasks[i]? r

theorem agentType_of_move {r r' : ConfigReader} (h : ConfigReader.Move C s r s' r') : r'.agentType = r.agentType := by
  cases h <;> rfl

theorem readSince_of_move {r r' : ConfigReader} {t : ℤ} {before : Option ConfigTask}
    (h : ConfigReader.Move C s r s' r') (hnow : t ≤ s.now) (hr : ReadSince t before r)
    (hentries : ∀ entry, s.redis.get? r.agentType = some entry → entry.expiresAt ≤ t ∨ t ≤ entry.readAt) :
    ReadSince t before r' := by
  cases h with
  | idle => exact hr
  | hit entry hstage hcached =>
    obtain ⟨hget, hlive⟩ := Option.filter_eq_some_iff.1 hcached
    have hlive : s.now < entry.expiresAt := by simpa using hlive
    -- an entry that had expired is no hit
    rcases hentries entry hget with hexpired | hread
    · omega
    · exact .inr hread
  | miss hstage => exact trivial
  | read config stage hstage hconfig hnext =>
    rcases hnext with rfl | rfl
    · exact hnow
    · exact .inr hnow
  | stored applied config readAt stage hstage hnext =>
    unfold ReadSince at hr
    rw [hstage] at hr
    rcases hnext with rfl | rfl
    · exact .inr hr
    · exact trivial
  | raised => exact trivial

theorem entries_of_move {r r' : ConfigReader} {t : ℤ} {before : Option ConfigTask} {agentType : String}
    (h : ConfigReader.Move C s r s' r') (hr : r.agentType = agentType → ReadSince t before r)
    (hentries : ∀ entry, s.redis.get? agentType = some entry → entry.expiresAt ≤ t ∨ t ≤ entry.readAt)
    {entry : CachedConfig} (hget : s'.redis.get? agentType = some entry) :
    entry.expiresAt ≤ t ∨ t ≤ entry.readAt := by
  cases h with
  | stored applied config readAt stage hstage hnext =>
    rcases ConfigReader.get?_store hget with hold | ⟨ttl, -, hagent, rfl⟩
    · exact hentries entry hold
    · have hsince := hr hagent.symm
      unfold ReadSince at hsince
      rw [hstage] at hsince
      exact .inr hsince
  | _ => exact hentries entry hget

theorem Renewed.move {agentType : String} {p q q' : Pool.State ConfigDesk ConfigTask} (h : Renewed agentType p q)
    (hmove : C.system.Move q q') : Renewed agentType p q' := by
  cases hmove with
  | idle => exact h
  | start call task hstart =>
    refine ⟨h.now, h.entries, fun i r hr hagent => ?_⟩
    rcases Pool.getElem?_append_cases hr with hr | ⟨-, htask⟩
    · exact h.readers i r hr hagent
    · cases hstart
      cases call with
      | read agent =>
        cases htask
        exact trivial
      | update agent body => cases htask
      | reset => cases htask
  | env elapsed => exact ⟨h.now.trans (later_tick C q.shared elapsed).now, h.entries, h.readers⟩
  | step j choice task htask =>
    have hlater := ConfigTask.step_later C choice q.shared task
    cases task with
    | reader r =>
      have hstep := ConfigReader.step_move C q.shared r choice
      refine ⟨h.now.trans hlater.now, fun entry hget => ?_, fun i r' hr' hagent => ?_⟩
      · exact entries_of_move hstep (h.readers j r htask) h.entries hget
      · rcases Pool.getElem?_set_cases hr' with ⟨rfl, hsame⟩ | ⟨-, hr'⟩
        · cases hsame
          have hagent' : r.agentType = agentType := (agentType_of_move hstep).symm.trans hagent
          subst hagent'
          exact readSince_of_move hstep h.now (h.readers i r htask rfl) h.entries
        · exact h.readers i r' hr' hagent
    | writer w =>
      refine ⟨h.now.trans hlater.now, fun entry hget => ?_, fun i r' hr' hagent => ?_⟩
      · exact h.entries entry (WriterStage.step_redis C q.shared w choice hget)
      · rcases Pool.getElem?_set_cases hr' with ⟨-, hsame⟩ | ⟨-, hr'⟩
        · cases hsame
        · exact h.readers i r' hr' hagent

/-- If at some time an agent has no entry that is alive, as after a change whose removal went through, and no reader is
about to store one, then a reader that is served later is served what the database gave since that time. -/
theorem config_since (C : ConfigSettings) (table : ConfigTable) (now : ℤ) (agentType : String)
    (before after : List (Pool.Event ConfigCall ℕ ConfigChoice)) :
    let p := C.system.run before ⟨{ table, since := now, now }, []⟩
    let q := C.system.run after p
    p.shared.cached? agentType = none →
    (∀ r : ConfigReader, .reader r ∈ p.tasks → r.agentType = agentType →
      ∀ (config : AgentModelConfig) (readAt : ℤ), r.stage ≠ .storing config readAt) →
    ∀ (i : ℕ) (r : ConfigReader), q.tasks[i]? = some (.reader r) → r.agentType = agentType →
      ∀ (config : AgentModelConfig) (readAt servedAt : ℤ), r.stage = .served config readAt servedAt →
        p.tasks[i]? = some (.reader r) ∨
          (p.shared.now ≤ readAt ∧ Gave (C.configOf agentType) q.shared.history readAt (some config)) := by
  intro p q hnone hstoring i r hr hagent config readAt servedAt hstage
  have hstart : Renewed agentType p p := by
    refine ⟨le_rfl, fun entry hget => .inl ?_, fun j r' hr' hagent' => ?_⟩
    · unfold cached? at hnone
      rw [hget, Option.filter_eq_none_iff] at hnone
      have hdead := hnone entry rfl
      simpa using hdead
    · unfold ReadSince
      split
      · trivial
      · trivial
      · trivial
      · rename_i hstage'
        exact absurd hstage' (hstoring r' (List.mem_of_getElem? hr') hagent' _ _)
      · exact .inl hr'
  have hrenewed : Renewed agentType p q := Pool.run_keeps (fun _ _ h hmove => h.move hmove) hstart after
  have hsince := hrenewed.readers i r hr hagent
  unfold ReadSince at hsince
  rw [hstage] at hsince
  refine hsince.imp_right fun hread => ⟨hread, ?_⟩
  have hq : q = C.system.run (before ++ after) ⟨{ table, since := now, now }, []⟩ := by
    unfold q p Pool.System.run Async.runSteps
    rw [List.foldl_append]
  have hholds := C.config_holds table now (before ++ after)
  rw [← hq] at hholds
  have hfresh : r.Fresh C q.shared := hholds.tasks i (.reader r) hr
  unfold ConfigReader.Fresh at hfresh
  rw [hstage] at hfresh
  rw [← hagent]
  exact hfresh.1.gave

/-- The trader's model is changed while an entry with the old one is in the cache. -/
theorem config_since_trader :
    let C : ConfigSettings := { defaults := [], cacheTtl := some 300 }
    let p := C.system.run [.start (.read "trader"), .step 0 .returns, .step 0 .returns, .step 0 .returns,
      .start (.update "trader" { primaryModel := some "openai/gpt-4o" }), .env 10, .step 1 .returns, .step 1 .returns,
      .step 1 .returns]
      ⟨{ table := Dict.empty.set "trader" { routingMode := "fixed", primaryModel := "openai/gpt-4.1" },
         since := 0, now := 0 }, []⟩
    let q := C.system.run [.start (.read "trader"), .step 2 .returns, .step 2 .returns, .step 2 .returns] p
    q.tasks.map servedModel = [some "openai/gpt-4.1", none, some "openai/gpt-4o"] ∧
      ∀ (i : ℕ) (r : ConfigReader), q.tasks[i]? = some (.reader r) → r.agentType = "trader" →
        ∀ (config : AgentModelConfig) (readAt servedAt : ℤ), r.stage = .served config readAt servedAt →
          p.tasks[i]? = some (.reader r) ∨
            (p.shared.now ≤ readAt ∧ Gave (C.configOf "trader") q.shared.history readAt (some config)) := by
  intro C p q
  have hnone : (p.shared.cached? "trader").isNone = true := by decide +kernel
  have hserved : (p.tasks.map servedModel).zip (p.tasks.map fun task => task matches .reader _) =
      [(some "openai/gpt-4.1", true), (none, false)] := by decide +kernel
  refine ⟨by decide +kernel, ?_⟩
  refine C.config_since _ 0 "trader" _ _ (Option.isNone_iff_eq_none.1 hnone) fun r hr _ config readAt hstage => ?_
  have hmem : (none, true) ∈ (p.tasks.map servedModel).zip (p.tasks.map fun task => task matches .reader _) := by
    rw [List.zip_map', List.mem_map]
    refine ⟨_, hr, ?_⟩
    obtain ⟨agentType, stage⟩ := r
    dsimp only at hstage
    rw [hstage]
    rfl
  rw [hserved] at hmem
  simp at hmem

end ConfigSettings

end TradingAgent
