/-
The scheduler engine: jobs under their names, runs of them by their triggers and on demand, and the history of the
runs in the job executions table. A run inserts a row, calls the function of the job, and brings the row up to date.
Errors of the database are logged and stop nothing, so a run may not know its row, and a row may stay behind. The
triggers belong to a scheduler of another library, of which only its laws are known.
-/
import TradingAgent.Strategy.Exit
import TradingAgent.Lib.Table
import TradingAgent.Lib.Pool

namespace TradingAgent

/-! ## The table -/

/-- How a run stands, as the table tells it. -/
inductive JobStatus
  | running | success | failed | skipped
  deriving DecidableEq

open Column

/-- A row of the job executions table. Times are in microseconds. -/
structure JobExecution where
  jobName : String
  status : JobStatus := .running
  startedAt : ℤ
  finishedAt : Option ℤ := none
  durationSec : Option Decimal := none
  errorMessage : String := ""
  deriving DecidableEq

/-- Whether a row fits the columns of the table. -/
def JobExecution.fits (row : JobExecution) : Bool :=
  textFits (some 50) row.jobName && row.durationSec.all (numericFits 10 3) && textFits none row.errorMessage

/-- How the function of a job ends: it returns, or raises an error with a text. -/
abbrev JobOutcome := Except String PUnit

namespace JobOutcome

def status : JobOutcome → JobStatus
  | .ok _ => .success
  | .error _ => .failed

def errorMessage : JobOutcome → String
  | .ok _ => ""
  | .error message => message

end JobOutcome

/-- The update of a row after its run; the duration has three decimals in the table. -/
def JobExecution.finish (row : JobExecution) (startedAt : ℤ) (outcome : JobOutcome) (finishedAt : ℤ) : JobExecution :=
  { row with
    status := outcome.status
    finishedAt := some finishedAt
    durationSec := some (numeric 3 (((finishedAt - startedAt : ℤ) : Decimal) / 1000000))
    errorMessage := outcome.errorMessage }

/-! ## The engine -/

/-- What the engine uses of the scheduler of the library. A call that gives no state raises. -/
structure AsyncIOScheduler (Fn S : Type) where
  new : S
  running : S → Bool
  hasJobs : S → Bool
  /-- The function of a job that its trigger calls. -/
  jobFn : S → String → Option Fn
  /-- The function that is called when a trigger goes off. -/
  due : S → String → Option Fn
  addJob : String → Fn → S → S
  start : S → Option S
  shutdown : S → Option S
  pause : S → Option S
  resume : S → Option S

/-- What is known of the scheduler: it begins without jobs, a job that is added replaces the one with its id, no other
call gives a job a function, and a trigger that goes off calls the function of its job. -/
structure AsyncIOScheduler.Laws {Fn S : Type} (A : AsyncIOScheduler Fn S) : Prop where
  new : ∀ id, A.jobFn A.new id = none
  addJob : ∀ s id fn id', A.jobFn (A.addJob id fn s) id' = if id' = id then some fn else A.jobFn s id'
  start : ∀ s s' id fn, A.start s = some s' → A.jobFn s' id = some fn → A.jobFn s id = some fn
  shutdown : ∀ s s' id fn, A.shutdown s = some s' → A.jobFn s' id = some fn → A.jobFn s id = some fn
  pause : ∀ s s' id fn, A.pause s = some s' → A.jobFn s' id = some fn → A.jobFn s id = some fn
  resume : ∀ s s' id fn, A.resume s = some s' → A.jobFn s' id = some fn → A.jobFn s id = some fn
  due : ∀ s id fn, A.due s id = some fn → A.jobFn s id = some fn

/-- The engine with the scheduler, the functions of its jobs and the table. -/
structure SchedulerEngine (Fn S : Type) where
  schedulerEnabled : Bool
  scheduler : S
  jobFns : Dict String Fn := Dict.empty
  paused : Bool := false
  executions : Table JobExecution := Table.empty

namespace SchedulerEngine

variable {Fn S : Type} (A : AsyncIOScheduler Fn S) (s : SchedulerEngine Fn S)

/-- Register a job. A disabled scheduler gets no trigger, but the job can be run on demand. -/
def registerJob (jobName : String) (fn : Fn) : SchedulerEngine Fn S :=
  let registered := { s with jobFns := s.jobFns.set jobName fn }
  if s.schedulerEnabled then { registered with scheduler := A.addJob jobName fn s.scheduler } else registered

/-- Start the scheduler; disabled or without a job it stays as it is. -/
def start : SchedulerEngine Fn S :=
  if s.schedulerEnabled = false ∨ A.hasJobs s.scheduler = false then s
  else match A.start s.scheduler with
    | some scheduler => { s with scheduler }
    | none => s

def stop : SchedulerEngine Fn S :=
  if A.running s.scheduler then
    match A.shutdown s.scheduler with
    | some scheduler => { s with scheduler }
    | none => s
  else s

def pauseAll : SchedulerEngine Fn S :=
  match A.pause s.scheduler with
  | some scheduler => { s with scheduler, paused := true }
  | none => s

def resumeAll : SchedulerEngine Fn S :=
  match A.resume s.scheduler with
  | some scheduler => { s with scheduler, paused := false }
  | none => s

end SchedulerEngine

/-! ## Runs -/

/-- Where a run stands. -/
inductive RunStage
  -- the row is written, then read back for its id
  | inserting
  | refreshing (executionId : ℕ)
  | executing (executionId : Option ℕ)
  -- the row is read again, then written
  | loading (executionId : ℕ) (outcome : JobOutcome) (finishedAt : ℤ)
  | storing (executionId : ℕ) (outcome : JobOutcome) (finishedAt : ℤ)
  | completed
  | cancelled

/-- A run of a job. The row it inserted, the calls of its function, how the function ended, and whether the database
raised an error on the way are recorded. -/
structure WrappedJob (Fn : Type) where
  jobName : String
  fn : Fn
  startedAt : ℤ
  stage : RunStage := .inserting
  row : Option ℕ := none
  calls : ℕ := 0
  ended : Option (JobOutcome × ℤ) := none
  troubled : Bool := false

/-- How an awaited call of a run ends. A call of the database that fails, and one that is cancelled, may have had its
effect. -/
inductive RunChoice
  | returns
  | raises (applied : Bool)
  | finishes (outcome : JobOutcome) (now : ℤ)
  | cancel (applied : Bool)

/-- The end of a call that writes a row which the table refuses. -/
def RunChoice.refused : RunChoice → RunChoice
  | .returns | .raises _ => .raises false
  | .finishes outcome now => .finishes outcome now
  | .cancel _ => .cancel false

namespace WrappedJob

variable {Fn S : Type} (run : WrappedJob Fn) (s : SchedulerEngine Fn S)

/-- The row of a run that has begun. -/
def newRow : JobExecution := { jobName := run.jobName, startedAt := run.startedAt }

/-- The transaction that inserts the row of the run. -/
def insertRow : SchedulerEngine Fn S × WrappedJob Fn :=
  ({ s with executions := s.executions.insert fun _ => run.newRow }, { run with row := some s.executions.nextId })

/-- The transaction that brings a row up to date. -/
def updateRow (executionId : ℕ) (outcome : JobOutcome) (finishedAt : ℤ) : SchedulerEngine Fn S :=
  { s with executions := s.executions.update executionId fun row => row.finish run.startedAt outcome finishedAt }

/-- The function of the job is called. -/
def execute (executionId : Option ℕ) : WrappedJob Fn :=
  { run with stage := .executing executionId, calls := run.calls + 1 }

/-- The function has ended: a run that does not know its row is complete. -/
def finished (outcome : JobOutcome) (now : ℤ) : Option ℕ → WrappedJob Fn
  | some executionId => { run with ended := some (outcome, now), stage := .loading executionId outcome now }
  | none => { run with ended := some (outcome, now), stage := .completed }

/-- An error of the database, which is logged. -/
def trouble : WrappedJob Fn := { run with troubled := true }

def move (stage : RunStage) : WrappedJob Fn := { run with stage }

/-- The row that a stage writes fits the table. -/
def fits : RunStage → Bool
  | .inserting => run.newRow.fits
  | .storing executionId outcome finishedAt =>
    (s.executions.get? executionId).all fun row => (row.finish run.startedAt outcome finishedAt).fits
  | _ => true

/-- The steps of `_wrap_job` if rows are taken. A choice that does not fit the stage is no step. -/
def stepTaken : RunStage → RunChoice → SchedulerEngine Fn S × WrappedJob Fn
  | .inserting, .returns => ((run.insertRow s).1, (run.insertRow s).2.move (.refreshing s.executions.nextId))
  | .inserting, .raises true => ((run.insertRow s).1, ((run.insertRow s).2.execute none).trouble)
  | .inserting, .raises false => (s, (run.execute none).trouble)
  | .inserting, .cancel true => ((run.insertRow s).1, (run.insertRow s).2.move .cancelled)
  | .refreshing executionId, .returns => (s, run.execute (some executionId))
  | .refreshing _, .raises _ => (s, (run.execute none).trouble)
  | .executing executionId, .finishes outcome now => (s, run.finished outcome now executionId)
  | .loading executionId outcome finishedAt, .returns =>
    match s.executions.get? executionId with
    | some _ => (s, run.move (.storing executionId outcome finishedAt))
    | none => (s, run.move .completed)
  | .loading .., .raises _ => (s, (run.move .completed).trouble)
  | .storing executionId outcome finishedAt, .returns =>
    (run.updateRow s executionId outcome finishedAt, run.move .completed)
  | .storing executionId outcome finishedAt, .raises true =>
    (run.updateRow s executionId outcome finishedAt, (run.move .completed).trouble)
  | .storing .., .raises false => (s, (run.move .completed).trouble)
  | .storing executionId outcome finishedAt, .cancel true =>
    (run.updateRow s executionId outcome finishedAt, run.move .cancelled)
  | .inserting, .cancel false | .refreshing _, .cancel _ | .executing _, .cancel _ | .loading .., .cancel _
  | .storing .., .cancel false => (s, run.move .cancelled)
  | .inserting, .finishes .. | .refreshing _, .finishes .. | .executing _, .returns | .executing _, .raises _
  | .loading .., .finishes .. | .storing .., .finishes .. | .completed, _ | .cancelled, _ => (s, run)

def step (choice : RunChoice) : SchedulerEngine Fn S × WrappedJob Fn :=
  run.stepTaken s run.stage (if run.fits s run.stage then choice else choice.refused)

end WrappedJob

/-! ## The system -/

/-- How a run starts: by its trigger while the scheduler runs, or on demand. -/
inductive RunStart
  | trigger (jobName : String) (now : ℤ)
  | runJobNow (jobName : String) (now : ℤ)

/-- What else happens to the engine. -/
inductive EngineCall (Fn : Type)
  | registerJob (jobName : String) (fn : Fn)
  | start | stop | pauseAll | resumeAll

namespace SchedulerEngine

variable {Fn S : Type} (A : AsyncIOScheduler Fn S)

/-- A trigger starts the function it was given; on demand the registered one is looked up, and an unknown name
raises. -/
def startRun (s : SchedulerEngine Fn S) : RunStart → Option (WrappedJob Fn)
  | .trigger jobName now => (A.due s.scheduler jobName).map fun fn => { jobName, fn, startedAt := now }
  | .runJobNow jobName now => (s.jobFns.get? jobName).map fun fn => { jobName, fn, startedAt := now }

def call (s : SchedulerEngine Fn S) : EngineCall Fn → SchedulerEngine Fn S
  | .registerJob jobName fn => s.registerJob A jobName fn
  | .start => s.start A
  | .stop => s.stop A
  | .pauseAll => s.pauseAll A
  | .resumeAll => s.resumeAll A

/-- The engine with all its runs. -/
def system : Pool.System (SchedulerEngine Fn S) (WrappedJob Fn) RunStart (EngineCall Fn) RunChoice where
  start a s := s.startRun A a
  env e s := s.call A e
  step choice s run := run.step s choice

/-- A new engine without runs. -/
def new (schedulerEnabled : Bool) : Pool.State (SchedulerEngine Fn S) (WrappedJob Fn) :=
  ⟨{ schedulerEnabled, scheduler := A.new }, []⟩

end SchedulerEngine

/-! ## What the table says about a run -/

/-- A row tells of a run that ended with an outcome: it has the status and the error of the outcome, and the time and
the duration to the millisecond. -/
structure JobExecution.Tells (row : JobExecution) (name : String) (start : ℤ) (outcome : JobOutcome) (finish : ℤ) :
    Prop where
  jobName : row.jobName = name
  startedAt : row.startedAt = start
  returned : outcome = .ok ⟨⟩ → row.status = .success ∧ row.errorMessage = ""
  raised : ∀ message, outcome = .error message → row.status = .failed ∧ row.errorMessage = message
  finishedAt : row.finishedAt = some finish
  durationSec : row.durationSec = some ((Rounding.halfUp ((finish - start : Decimal) / 1000) : Decimal) / 1000)

namespace WrappedJob

variable {Fn S : Type}

/-- The row of a run, if it has one, is as it was inserted. -/
def RowNew (s : SchedulerEngine Fn S) (run : WrappedJob Fn) : Prop :=
  ∀ id, run.row = some id → s.executions.get? id = some
    { jobName := run.jobName, status := .running, startedAt := run.startedAt, finishedAt := none
      durationSec := none, errorMessage := "" }

/-- The row of a run, if it has one, tells how its function ended. -/
def RowFinal (s : SchedulerEngine Fn S) (run : WrappedJob Fn) : Prop :=
  ∀ id, run.row = some id → ∃ outcome finishedAt row, run.ended = some (outcome, finishedAt) ∧
    s.executions.get? id = some row ∧ row.Tells run.jobName run.startedAt outcome finishedAt

/-- The run has this row, and had no trouble so far. -/
structure Knows (run : WrappedJob Fn) (executionId : ℕ) : Prop where
  row : run.row = some executionId
  untroubled : run.troubled = false

/-- A run that calls its function knows its row, or had trouble. -/
def Executes (run : WrappedJob Fn) : Option ℕ → Prop
  | some executionId => run.Knows executionId
  | none => run.troubled = true

/-- What holds of a run at its stage. -/
def Follows (s : SchedulerEngine Fn S) (run : WrappedJob Fn) : Prop :=
  match run.stage with
  | .inserting => run.row = none ∧ run.calls = 0 ∧ run.ended = none ∧ run.troubled = false
  | .refreshing id => run.Knows id ∧ run.calls = 0 ∧ run.ended = none ∧ RowNew s run
  | .executing id => run.Executes id ∧ run.calls = 1 ∧ run.ended = none ∧ RowNew s run
  | .loading id outcome finishedAt | .storing id outcome finishedAt =>
    run.Knows id ∧ run.calls = 1 ∧ run.ended = some (outcome, finishedAt) ∧ RowNew s run
  | .completed => run.calls = 1 ∧ run.ended ≠ none ∧ (RowNew s run ∨ RowFinal s run) ∧
    (run.troubled = false → run.row ≠ none ∧ RowFinal s run)
  | .cancelled => run.calls ≤ 1 ∧ (RowNew s run ∨ RowFinal s run)

/-- The table accounts for a run: its function was called at most once, and exactly once if the run is complete.
Its row is the inserted one, which stays behind only if the run is under way, was cancelled or had trouble, or it
says how and when the function ended; without trouble it says so after every complete run. -/
structure Accounted (s : SchedulerEngine Fn S) (run : WrappedJob Fn) : Prop where
  once : run.calls ≤ 1
  called : run.stage = .completed → run.calls = 1 ∧ run.ended ≠ none
  row : RowNew s run ∨ RowFinal s run
  told : run.stage = .completed → run.troubled = false → run.row ≠ none ∧ RowFinal s run

variable {s s' : SchedulerEngine Fn S} {run : WrappedJob Fn}

theorem Follows.accounted (h : Follows s run) : Accounted s run := by
  have hunderway : run.stage ≠ .completed → run.calls ≤ 1 → RowNew s run ∨ RowFinal s run → Accounted s run :=
    fun hstage honce hrow =>
      ⟨honce, fun hc => absurd hc hstage, hrow, fun hc => absurd hc hstage⟩
  unfold Follows at h
  split at h <;> rename_i hstage
  · obtain ⟨hrow, hcalls, -, -⟩ := h
    refine hunderway (by simp [hstage]) (by omega) (.inl fun id hid => ?_)
    rw [hrow] at hid
    cases hid
  · obtain ⟨-, hcalls, -, hrow⟩ := h
    exact hunderway (by simp [hstage]) (by omega) (.inl hrow)
  · obtain ⟨-, hcalls, -, hrow⟩ := h
    exact hunderway (by simp [hstage]) (by omega) (.inl hrow)
  · obtain ⟨-, hcalls, -, hrow⟩ := h
    exact hunderway (by simp [hstage]) (by omega) (.inl hrow)
  · obtain ⟨-, hcalls, -, hrow⟩ := h
    exact hunderway (by simp [hstage]) (by omega) (.inl hrow)
  · obtain ⟨hcalls, hended, hrow, htold⟩ := h
    exact ⟨by omega, fun _ => ⟨hcalls, hended⟩, hrow, fun _ => htold⟩
  · obtain ⟨hcalls, hrow⟩ := h
    exact hunderway (by simp [hstage]) hcalls hrow

/-! ## What is up to the row of a run -/

theorem RowNew.congr (h : RowNew s run) (hsame : ∀ id, run.row = some id →
    s'.executions.get? id = s.executions.get? id) : RowNew s' run :=
  fun id hid => (hsame id hid).trans (h id hid)

theorem RowFinal.congr (h : RowFinal s run) (hsame : ∀ id, run.row = some id →
    s'.executions.get? id = s.executions.get? id) : RowFinal s' run := by
  intro id hid
  obtain ⟨outcome, finishedAt, row, hended, hget, htells⟩ := h id hid
  exact ⟨outcome, finishedAt, row, hended, (hsame id hid).trans hget, htells⟩

theorem Follows.congr (h : Follows s run) (hsame : ∀ id, run.row = some id →
    s'.executions.get? id = s.executions.get? id) : Follows s' run := by
  have hor : RowNew s run ∨ RowFinal s run → RowNew s' run ∨ RowFinal s' run :=
    Or.imp (fun h => h.congr hsame) fun h => h.congr hsame
  unfold Follows at h ⊢
  split at h
  · exact h
  · exact ⟨h.1, h.2.1, h.2.2.1, h.2.2.2.congr hsame⟩
  · exact ⟨h.1, h.2.1, h.2.2.1, h.2.2.2.congr hsame⟩
  · exact ⟨h.1, h.2.1, h.2.2.1, h.2.2.2.congr hsame⟩
  · exact ⟨h.1, h.2.1, h.2.2.1, h.2.2.2.congr hsame⟩
  · exact ⟨h.1, h.2.1, hor h.2.2.1, fun ht => (h.2.2.2 ht).imp_right fun h => h.congr hsame⟩
  · exact ⟨h.1, hor h.2⟩

/-! ## The steps of a run -/

/-- What a step does. -/
inductive Move (s : SchedulerEngine Fn S) (run : WrappedJob Fn) : SchedulerEngine Fn S → WrappedJob Fn → Prop
  | idle : Move s run s run
  | insert (hstage : run.stage = .inserting) (run' : WrappedJob Fn)
      (h : run' = (run.insertRow s).2.move (.refreshing s.executions.nextId) ∨
        run' = ((run.insertRow s).2.execute none).trouble ∨ run' = (run.insertRow s).2.move .cancelled) :
      Move s run (run.insertRow s).1 run'
  | insertFails (hstage : run.stage = .inserting) : Move s run s (run.execute none).trouble
  | refresh (id : ℕ) (hstage : run.stage = .refreshing id) : Move s run s (run.execute (some id))
  | refreshFails (id : ℕ) (hstage : run.stage = .refreshing id) : Move s run s (run.execute none).trouble
  | finish (executionId : Option ℕ) (outcome : JobOutcome) (now : ℤ) (hstage : run.stage = .executing executionId) :
      Move s run s (run.finished outcome now executionId)
  | load (id : ℕ) (outcome : JobOutcome) (finishedAt : ℤ) (hstage : run.stage = .loading id outcome finishedAt) :
      Move s run s (run.move (.storing id outcome finishedAt))
  | gone (id : ℕ) (outcome : JobOutcome) (finishedAt : ℤ) (hstage : run.stage = .loading id outcome finishedAt)
      (hnone : s.executions.get? id = none) : Move s run s (run.move .completed)
  | store (id : ℕ) (outcome : JobOutcome) (finishedAt : ℤ) (hstage : run.stage = .storing id outcome finishedAt)
      (run' : WrappedJob Fn) (h : run' = run.move .completed ∨ run' = (run.move .completed).trouble ∨
        run' = run.move .cancelled) : Move s run (run.updateRow s id outcome finishedAt) run'
  | giveUp (id : ℕ) (outcome : JobOutcome) (finishedAt : ℤ)
      (hstage : run.stage = .loading id outcome finishedAt ∨ run.stage = .storing id outcome finishedAt) :
      Move s run s (run.move .completed).trouble
  | cancel (hstage : run.stage ≠ .completed) : Move s run s (run.move .cancelled)

theorem stepTaken_move (s : SchedulerEngine Fn S) (run : WrappedJob Fn) (choice : RunChoice) :
    Move s run (run.stepTaken s run.stage choice).1 (run.stepTaken s run.stage choice).2 := by
  cases hstage : run.stage with
  | inserting =>
    cases choice with
    | returns => exact .insert hstage _ (.inl rfl)
    | raises applied =>
      cases applied with
      | true => exact .insert hstage _ (.inr (.inl rfl))
      | false => exact .insertFails hstage
    | finishes outcome now => exact .idle
    | cancel applied =>
      cases applied with
      | true => exact .insert hstage _ (.inr (.inr rfl))
      | false => exact .cancel (by simp [hstage])
  | refreshing id =>
    cases choice with
    | returns => exact .refresh id hstage
    | raises applied => exact .refreshFails id hstage
    | finishes outcome now => exact .idle
    | cancel applied => exact .cancel (by simp [hstage])
  | executing id =>
    cases choice with
    | returns => exact .idle
    | raises applied => exact .idle
    | finishes outcome now => exact .finish id outcome now hstage
    | cancel applied => exact .cancel (by simp [hstage])
  | loading id outcome finishedAt =>
    cases choice with
    | returns =>
      simp only [stepTaken]
      split
      · exact .load id outcome finishedAt hstage
      · rename_i hnone
        exact .gone id outcome finishedAt hstage hnone
    | raises applied => exact .giveUp id outcome finishedAt (.inl hstage)
    | finishes outcome now => exact .idle
    | cancel applied => exact .cancel (by simp [hstage])
  | storing id outcome finishedAt =>
    cases choice with
    | returns => exact .store id outcome finishedAt hstage _ (.inl rfl)
    | raises applied =>
      cases applied with
      | true => exact .store id outcome finishedAt hstage _ (.inr (.inl rfl))
      | false => exact .giveUp id outcome finishedAt (.inr hstage)
    | finishes outcome now => exact .idle
    | cancel applied =>
      cases applied with
      | true => exact .store id outcome finishedAt hstage _ (.inr (.inr rfl))
      | false => exact .cancel (by simp [hstage])
  | completed => exact .idle
  | cancelled => exact .idle

theorem step_move (s : SchedulerEngine Fn S) (run : WrappedJob Fn) (choice : RunChoice) :
    Move s run (run.step s choice).1 (run.step s choice).2 := stepTaken_move s run _

variable {run' : WrappedJob Fn}

theorem Follows.row_none (h : Follows s run) (hstage : run.stage = .inserting) : run.row = none := by
  unfold Follows at h
  rw [hstage] at h
  exact h.1

/-- The row that a run stores is its own. -/
theorem Follows.knows (h : Follows s run) {id : ℕ} {outcome : JobOutcome} {finishedAt : ℤ}
    (hstage : run.stage = .storing id outcome finishedAt) : run.Knows id := by
  unfold Follows at h
  rw [hstage] at h
  exact h.1

/-- The row of a run after a step: the one it had, or the first one under a new number. -/
theorem Move.row (hmove : Move s run s' run') (h : Follows s run) :
    run'.row = run.row ∨ (run.row = none ∧ run'.row = some s.executions.nextId) := by
  cases hmove with
  | insert hstage run' hrun' => rcases hrun' with rfl | rfl | rfl <;> exact .inr ⟨h.row_none hstage, rfl⟩
  | store id outcome finishedAt hstage run' hrun' => rcases hrun' with rfl | rfl | rfl <;> exact .inl rfl
  | finish executionId outcome now hstage => cases executionId <;> exact .inl rfl
  | _ => exact .inl rfl

/-- A step leaves the rows of others alone. -/
theorem Move.frame (hmove : Move s run s' run') (h : Follows s run) {id : ℕ} (hid : run'.row ≠ some id) :
    s'.executions.get? id = s.executions.get? id := by
  cases hmove with
  | insert hstage run' hrun' =>
    have hrow : run'.row = some s.executions.nextId := by rcases hrun' with rfl | rfl | rfl <;> rfl
    have hne : id ≠ s.executions.nextId := by
      rintro rfl
      exact hid hrow
    unfold insertRow
    rw [Table.get?_insert, if_neg hne]
  | store own outcome finishedAt hstage run' hrun' =>
    have hrow : run'.row = some own := by rcases hrun' with rfl | rfl | rfl <;> exact (h.knows hstage).row
    have hne : id ≠ own := by
      rintro rfl
      exact hid hrow
    unfold updateRow
    rw [Table.get?_update, if_neg hne]
  | _ => rfl

/-- The row that a run inserts is new. -/
theorem rowNew_insertRow (hrow : run'.row = some s.executions.nextId) (hnew : run'.newRow = run.newRow) :
    RowNew (run.insertRow s).1 run' := by
  intro id hid
  rw [hrow] at hid
  cases hid
  unfold insertRow
  rw [Table.get?_insert, if_pos rfl, ← hnew]
  rfl

/-- A row that is brought up to date tells how the run ended. -/
theorem finish_tells (run : WrappedJob Fn) (outcome : JobOutcome) (finishedAt : ℤ) :
    (run.newRow.finish run.startedAt outcome finishedAt).Tells run.jobName run.startedAt outcome finishedAt where
  jobName := rfl
  startedAt := rfl
  returned h := by
    subst h
    exact ⟨rfl, rfl⟩
  raised message h := by
    subst h
    exact ⟨rfl, rfl⟩
  finishedAt := rfl
  durationSec := by
    have hmillis : (((finishedAt - run.startedAt : ℤ) : Decimal) / 1000000) * 10 ^ 3 =
        (finishedAt - run.startedAt : Decimal) / 1000 := by
      push_cast
      ring
    have hthousand : (10 : Decimal) ^ 3 = 1000 := by norm_num
    unfold JobExecution.finish numeric
    rw [hmillis, hthousand]

/-- The update of a new row tells how the function ended. -/
theorem RowNew.updateRow {id : ℕ} {outcome : JobOutcome} {finishedAt : ℤ} (h : RowNew s run)
    (hrow : run.row = some id) (hended : run.ended = some (outcome, finishedAt)) :
    RowFinal (run.updateRow s id outcome finishedAt) run := by
  intro id' hid'
  rw [hrow] at hid'
  cases hid'
  refine ⟨outcome, finishedAt, _, hended, ?_, finish_tells run outcome finishedAt⟩
  unfold WrappedJob.updateRow
  rw [Table.get?_update, if_pos rfl, h id hrow]
  rfl

/-- Every step of a run leads to what holds at its next stage. -/
theorem Move.follows (hmove : Move s run s' run') (h : Follows s run) : Follows s' run' := by
  have hall := h
  unfold Follows at h
  cases hmove with
  | idle => exact hall
  | insert hstage run' hrun' =>
    rw [hstage] at h
    obtain ⟨-, hcalls, hended, htroubled⟩ := h
    rcases hrun' with rfl | rfl | rfl
    · exact ⟨⟨rfl, htroubled⟩, hcalls, hended, rowNew_insertRow rfl rfl⟩
    · exact ⟨rfl, congrArg (· + 1) hcalls, hended, rowNew_insertRow rfl rfl⟩
    · exact ⟨by simp [move, insertRow, hcalls], .inl (rowNew_insertRow rfl rfl)⟩
  | insertFails hstage =>
    rw [hstage] at h
    obtain ⟨hrow, hcalls, hended, -⟩ := h
    refine ⟨rfl, congrArg (· + 1) hcalls, hended, fun id hid => ?_⟩
    have hnone : run.row = some id := hid
    rw [hrow] at hnone
    cases hnone
  | refresh id hstage =>
    rw [hstage] at h
    obtain ⟨hknows, hcalls, hended, hnew⟩ := h
    exact ⟨⟨hknows.row, hknows.untroubled⟩, congrArg (· + 1) hcalls, hended, hnew⟩
  | refreshFails id hstage =>
    rw [hstage] at h
    obtain ⟨-, hcalls, hended, hnew⟩ := h
    exact ⟨rfl, congrArg (· + 1) hcalls, hended, hnew⟩
  | finish executionId outcome now hstage =>
    rw [hstage] at h
    obtain ⟨hexecutes, hcalls, -, hnew⟩ := h
    cases executionId with
    | some id => exact ⟨⟨hexecutes.row, hexecutes.untroubled⟩, hcalls, rfl, hnew⟩
    | none =>
      have htroubled : run.troubled = true := hexecutes
      refine ⟨hcalls, by simp [finished], .inl hnew, fun ht => ?_⟩
      have hfalse : run.troubled = false := ht
      rw [htroubled] at hfalse
      cases hfalse
  | load id outcome finishedAt hstage =>
    rw [hstage] at h
    obtain ⟨hknows, hcalls, hended, hnew⟩ := h
    exact ⟨⟨hknows.row, hknows.untroubled⟩, hcalls, hended, hnew⟩
  | gone id outcome finishedAt hstage hnone =>
    -- the row of a run is there when it is read again
    rw [hstage] at h
    obtain ⟨hknows, -, -, hnew⟩ := h
    rw [hnew id hknows.row] at hnone
    cases hnone
  | store id outcome finishedAt hstage run' hrun' =>
    rw [hstage] at h
    obtain ⟨hknows, hcalls, hended, hnew⟩ := h
    have hfinal : RowFinal (run.updateRow s id outcome finishedAt) run := hnew.updateRow hknows.row hended
    have hsome : run.ended ≠ none := by simp [hended]
    have hrow : run.row ≠ none := by simp [hknows.row]
    rcases hrun' with rfl | rfl | rfl
    · exact ⟨hcalls, hsome, .inr hfinal, fun _ => ⟨hrow, hfinal⟩⟩
    · exact ⟨hcalls, hsome, .inr hfinal, fun _ => ⟨hrow, hfinal⟩⟩
    · exact ⟨hcalls.le, .inr hfinal⟩
  | giveUp id outcome finishedAt hstage =>
    have hends : run.calls = 1 ∧ run.ended = some (outcome, finishedAt) ∧ RowNew s run := by
      rcases hstage with hstage | hstage <;> rw [hstage] at h <;> exact h.2
    obtain ⟨hcalls, hended, hnew⟩ := hends
    have hsome : run.ended ≠ none := by simp [hended]
    refine ⟨hcalls, hsome, .inl hnew, fun ht => ?_⟩
    cases ht
  | cancel hstage =>
    exact ⟨hall.accounted.once, hall.accounted.row⟩

end WrappedJob

/-! ## Every run of the engine -/

namespace SchedulerEngine

open WrappedJob

variable {Fn S : Type} {A : AsyncIOScheduler Fn S}

/-- What a call of the engine does: it registers a job, or has the scheduler changed in a way that gives no job a
function. The table is left alone. -/
inductive CallMove (A : AsyncIOScheduler Fn S) (s : SchedulerEngine Fn S) : SchedulerEngine Fn S → Prop
  | register (jobName : String) (fn : Fn) : CallMove A s (s.registerJob A jobName fn)
  | change (scheduler : S) (paused : Bool)
      (h : ∀ id fn, A.jobFn scheduler id = some fn → A.jobFn s.scheduler id = some fn) :
      CallMove A s { s with scheduler, paused }

theorem call_move (hA : A.Laws) (s : SchedulerEngine Fn S) (e : EngineCall Fn) : CallMove A s (s.call A e) := by
  have hidle : CallMove A s s := .change s.scheduler s.paused fun _ _ h => h
  cases e with
  | registerJob jobName fn => exact .register jobName fn
  | start =>
    unfold call start
    dsimp only
    split
    · exact hidle
    · split
      · rename_i scheduler hstart
        exact .change scheduler s.paused fun id fn => hA.start _ _ id fn hstart
      · exact hidle
  | stop =>
    unfold call stop
    dsimp only
    split
    · split
      · rename_i scheduler hshutdown
        exact .change scheduler s.paused fun id fn => hA.shutdown _ _ id fn hshutdown
      · exact hidle
    · exact hidle
  | pauseAll =>
    unfold call pauseAll
    dsimp only
    split
    · rename_i scheduler hpause
      exact .change scheduler true fun id fn => hA.pause _ _ id fn hpause
    · exact hidle
  | resumeAll =>
    unfold call resumeAll
    dsimp only
    split
    · rename_i scheduler hresume
      exact .change scheduler false fun id fn => hA.resume _ _ id fn hresume
    · exact hidle

theorem CallMove.executions {s s' : SchedulerEngine Fn S} (h : CallMove A s s') : s'.executions = s.executions := by
  cases h with
  | register jobName fn =>
    unfold registerJob
    dsimp only
    split <;> rfl
  | change scheduler paused h => rfl

/-- A run that starts has done nothing. -/
theorem startRun_spec {s : SchedulerEngine Fn S} {a : RunStart} {run : WrappedJob Fn} (h : s.startRun A a = some run) :
    run = { jobName := run.jobName, fn := run.fn, startedAt := run.startedAt } := by
  cases a with
  | trigger jobName now =>
    obtain ⟨fn, -, rfl⟩ := Option.map_eq_some_iff.1 h
    rfl
  | runJobNow jobName now =>
    obtain ⟨fn, -, rfl⟩ := Option.map_eq_some_iff.1 h
    rfl

/-- The rows of the table belong to the runs that inserted them. -/
theorem ownership (hA : A.Laws) : Pool.Ownership (system A) (fun s id => s.executions.get? id)
    (fun run id => run.row = some id) WrappedJob.Follows where
  start a s run h := by
    have hrun := startRun_spec h
    rw [hrun]
    exact ⟨⟨rfl, rfl, rfl, rfl⟩, fun id hid => by cases hid⟩
  env e s id := by
    show (s.call A e).executions.get? id = _
    rw [(call_move hA s e).executions]
  present s run id h hrow := by
    rcases h.accounted.row with hnew | hfinal
    · rw [hnew id hrow]
      exact Option.some_ne_none _
    · obtain ⟨_, _, _, -, hget, -⟩ := hfinal id hrow
      rw [hget]
      exact Option.some_ne_none _
  step c s run h := (WrappedJob.step_move s run c).follows h
  keeps c s run id h hrow := by
    rcases (WrappedJob.step_move s run c).row h with hsame | ⟨hnone, -⟩
    · exact hsame.trans hrow
    · rw [hnone] at hrow
      cases hrow
  takes c s run id h hrow := by
    rcases (WrappedJob.step_move s run c).row h with hsame | ⟨-, hnew⟩
    · exact .inl (hsame.symm.trans hrow)
    · right
      have hid : some s.executions.nextId = some id := hnew.symm.trans hrow
      cases hid
      exact s.executions.get?_nextId
  frame c s run id h hrow := (WrappedJob.step_move s run c).frame h hrow
  congr s s' run hsame h := h.congr hsame

/-- A trigger has the function that is registered for its job; a disabled scheduler has no trigger. -/
structure Registered (A : AsyncIOScheduler Fn S) (s : SchedulerEngine Fn S) : Prop where
  triggers : ∀ jobName fn, A.jobFn s.scheduler jobName = some fn → s.jobFns.get? jobName = some fn
  disabled : s.schedulerEnabled = false → ∀ jobName, A.jobFn s.scheduler jobName = none

theorem Registered.registerJob (hA : A.Laws) {s : SchedulerEngine Fn S} (h : s.Registered A) (jobName : String)
    (fn : Fn) : (s.registerJob A jobName fn).Registered A := by
  unfold SchedulerEngine.registerJob
  dsimp only
  split
  · rename_i henabled
    refine ⟨fun name fn' hget => ?_, fun hdisabled => ?_⟩
    · dsimp only at hget ⊢
      rw [hA.addJob] at hget
      rw [Dict.get?_set]
      split at hget
      · rename_i heq
        rw [if_pos heq]
        exact hget
      · rename_i hne
        rw [if_neg hne]
        exact h.triggers name fn' hget
    · have hfalse : s.schedulerEnabled = false := hdisabled
      rw [henabled] at hfalse
      cases hfalse
  · rename_i hdisabled
    have hnone := h.disabled (Bool.eq_false_iff.2 hdisabled)
    refine ⟨fun name fn' hget => ?_, fun _ => hnone⟩
    dsimp only at hget
    rw [hnone name] at hget
    cases hget

/-- Every call keeps it. -/
theorem Registered.call (hA : A.Laws) {s : SchedulerEngine Fn S} (h : s.Registered A) (e : EngineCall Fn) :
    (s.call A e).Registered A := by
  have hmove := call_move hA s e
  generalize s.call A e = s' at hmove
  cases hmove with
  | register jobName fn => exact h.registerJob hA jobName fn
  | change scheduler paused hless =>
    refine ⟨fun name fn hget => h.triggers name fn (hless name fn hget), fun hdisabled name => ?_⟩
    have hnone := h.disabled hdisabled name
    rw [Option.eq_none_iff_forall_ne_some] at hnone ⊢
    exact fun fn hget => hnone fn (hless name fn hget)

theorem registered_step (s : SchedulerEngine Fn S) (run : WrappedJob Fn) (choice : RunChoice) (h : s.Registered A) :
    (run.step s choice).1.Registered A := by
  have hmove := WrappedJob.step_move s run choice
  generalize (run.step s choice).1 = s' at hmove
  generalize (run.step s choice).2 = run' at hmove
  cases hmove <;> exact ⟨h.triggers, h.disabled⟩

theorem registered_invariant (hA : A.Laws) :
    Pool.Invariant (system A) (Registered A) (fun _ _ => True) (fun _ _ => True) where
  start _ _ _ _ _ := ⟨trivial, fun _ _ => ⟨trivial, trivial⟩⟩
  env e _ h := ⟨h.call hA e, fun _ _ => trivial⟩
  step c s run h _ := ⟨registered_step s run c h, trivial⟩
  others _ _ _ _ _ _ _ _ _ := ⟨trivial, trivial, trivial⟩

/-- The history of an engine is exact: every row belongs to one run, the table accounts for every run, and a trigger
starts the run that would start on demand. -/
structure HistoryExact (A : AsyncIOScheduler Fn S) (p : Pool.State (SchedulerEngine Fn S) (WrappedJob Fn)) : Prop where
  owner : ∀ id row, p.shared.executions.get? id = some row →
    ∃! i : ℕ, ∃ run : WrappedJob Fn, p.tasks[i]? = some run ∧ run.row = some id
  accounted : ∀ run ∈ p.tasks, Accounted p.shared run
  triggers : ∀ jobName now run, p.shared.startRun A (.trigger jobName now) = some run →
    p.shared.startRun A (.runJobNow jobName now) = some run

/-- However runs interleave, and whichever of their database calls fail or are cancelled, the history of a new
engine is exact. -/
theorem history_exact (hA : A.Laws) (schedulerEnabled : Bool)
    (events : List (Pool.Event RunStart (EngineCall Fn) RunChoice)) :
    HistoryExact A ((system A).run events (new A schedulerEnabled)) := by
  have howned := (ownership hA).run (Pool.owned_nil (fun _ => rfl)) events (p := new A schedulerEnabled)
  have hempty : (new A schedulerEnabled).shared.Registered A :=
    ⟨fun name fn hget => absurd (hget.symm.trans (hA.new name)) (Option.some_ne_none fn), fun _ => hA.new⟩
  have hregistered := (registered_invariant hA).run (Pool.holds_nil hempty) events (p := new A schedulerEnabled)
  refine ⟨fun id row hget => ?_, fun run hrun => ?_, fun jobName now run hstart => ?_⟩
  · have hsome : ((system A).run events (new A schedulerEnabled)).shared.executions.get? id ≠ none := by
      rw [hget]
      exact Option.some_ne_none row
    obtain ⟨i, run, hrun, hrow⟩ := howned.covered id hsome
    refine ⟨i, ⟨run, hrun, hrow⟩, ?_⟩
    rintro j ⟨run', hrun', hrow'⟩
    exact howned.apart j i run' run id hrun' hrun hrow' hrow
  · obtain ⟨i, hi⟩ := List.getElem?_of_mem hrun
    exact (howned.tasks i run hi).accounted
  · obtain ⟨fn, hdue, rfl⟩ := Option.map_eq_some_iff.1 hstart
    exact Option.map_eq_some_iff.2 ⟨fn, hregistered.shared.triggers jobName fn (hA.due _ _ _ hdue), rfl⟩

/-! ## A scheduler in memory -/

inductive SchedulerState
  | stopped | running | paused
  deriving DecidableEq

/-- A scheduler whose jobs are forgotten when it is shut down. It starts only when it is stopped, and is paused only
when it is not. -/
def memoryScheduler (Fn : Type) : AsyncIOScheduler Fn (Dict String Fn × SchedulerState) where
  new := (Dict.empty, .stopped)
  running s := s.2 ≠ .stopped
  hasJobs s := !s.1.items.isEmpty
  jobFn s id := s.1.get? id
  due s id := if s.2 = .running then s.1.get? id else none
  addJob id fn s := (s.1.set id fn, s.2)
  start s := if s.2 = .stopped then some (s.1, .running) else none
  shutdown s := if s.2 = .stopped then none else some (Dict.empty, .stopped)
  pause s := if s.2 = .stopped then none else some (s.1, .paused)
  resume s := if s.2 = .stopped then none else some (s.1, .running)

theorem memoryScheduler_laws (Fn : Type) : (memoryScheduler Fn).Laws where
  new _ := rfl
  addJob s id fn id' := Dict.get?_set s.1 id id' fn
  start s s' id fn h hget := by
    obtain ⟨-, rfl⟩ : s.2 = .stopped ∧ (s.1, SchedulerState.running) = s' := by simpa [memoryScheduler] using h
    exact hget
  shutdown s s' id fn h hget := by
    obtain ⟨-, rfl⟩ : ¬ s.2 = .stopped ∧ (Dict.empty, SchedulerState.stopped) = s' := by
      simpa [memoryScheduler] using h
    cases hget
  pause s s' id fn h hget := by
    obtain ⟨-, rfl⟩ : ¬ s.2 = .stopped ∧ (s.1, SchedulerState.paused) = s' := by simpa [memoryScheduler] using h
    exact hget
  resume s s' id fn h hget := by
    obtain ⟨-, rfl⟩ : ¬ s.2 = .stopped ∧ (s.1, SchedulerState.running) = s' := by simpa [memoryScheduler] using h
    exact hget
  due s id fn h := by
    unfold memoryScheduler at h
    dsimp only at h
    split at h
    · exact h
    · cases h

/-- Two runs of a job side by side: one loses its row while it is inserted and raises, the other is complete. -/
def sideBySide : List (Pool.Event RunStart (EngineCall Unit) RunChoice) :=
  [.env (.registerJob "daily_report" ()), .env .start, .start (.runJobNow "daily_report" 0),
    .start (.trigger "daily_report" 1000000), .step 0 (.raises true), .step 1 .returns, .step 1 .returns,
    .step 0 (.finishes (.error "timeout") 2000000), .step 1 (.finishes (.error "no data") 2500600), .step 1 .returns,
    .step 1 .returns]

theorem history_exact_sideBySide :
    HistoryExact (memoryScheduler Unit) ((system (memoryScheduler Unit)).run sideBySide
      (new (memoryScheduler Unit) true)) ∧
    (((system (memoryScheduler Unit)).run sideBySide (new (memoryScheduler Unit) true)).shared.executions.rows.values) =
      [{ jobName := "daily_report", startedAt := 0 },
        { jobName := "daily_report", status := .failed, startedAt := 1000000, finishedAt := some 2500600
          durationSec := some (1501 / 1000), errorMessage := "no data" }] :=
  ⟨history_exact (memoryScheduler_laws Unit) true sideBySide, by decide +kernel⟩

end SchedulerEngine

end TradingAgent
