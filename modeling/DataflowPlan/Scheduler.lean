import DataflowPlan.Cluster.Service
import DataflowPlan.Encoding.Plan
import DataflowPlan.Manifest
import DataflowPlan.Session

/-!
The scheduler: planning and execution in turns. In each round it asks all nodes for statistics,
plans the next increment, creates its sets, sends out its stages one after the other, and removes
the sets that nothing reads any more. What is left at the end, or at a failure, is removed too.
-/

namespace DataflowPlan

/-- What a run has done so far. -/
structure Run where
  /-- Intermediate sets that may still have to be removed. -/
  liveSets : List SetId
  /-- Uncombined aggregation results that nothing has read yet. -/
  aggregationResults : List SetId
  dispatched : List Stage
  increments : Nat
  setsCreated : Nat

def Run.start : Run := ⟨[], [], [], 0, 0⟩

/-- A job that is being run: the planning session, the run, and the cluster behind the service. -/
structure Execution (σ : Type) where
  session : Session
  run : Run
  state : σ

/-- What a finished run comes to. -/
structure RunReport where
  jobId : String
  /-- The digest of all stages that were sent out, in order. -/
  planHash : Digest
  stages : Nat
  increments : Nat
  setsCreated : Nat
deriving DecidableEq

/-- The record of a finished run. -/
def RunReport.manifest (r : RunReport) (id : Uuid) (startedMs finishedMs : Nat) : Manifest :=
  { Manifest.begin id r.jobId r.planHash startedMs with
    stages := r.stages
    increments := r.increments
    setsCreated := r.setsCreated
    finishedMs }

/-- A part of a run, which may fail and leaves what it has done in any case. -/
abbrev Step (σ : Type) := Execution σ → Except ExecError Unit × Execution σ

namespace Step

variable {σ α : Type}

/-- One part after the other; a failure ends both. -/
def andThen (first second : Step σ) : Step σ := fun e =>
  match first e with
  | (.ok (), e) => second e
  | (.error error, e) => (.error error, e)

/-- One part for each item in turn. -/
def forEach (step : α → Step σ) : List α → Step σ
  | [] => fun e => (.ok (), e)
  | a :: rest => (step a).andThen (forEach step rest)

/-- A request to the cluster. -/
def ask (request : Request σ Unit) : Step σ := fun e =>
  let (answer, state) := request e.state
  (answer, { e with state })

/-- A change of the run that cannot fail. -/
def note (change : Run → Run) : Step σ := fun e =>
  (.ok (), { e with run := change e.run })

end Step

namespace Service

variable {σ : Type} (service : Service σ) (cluster : ClusterConfig)

/-- Fails once the job is cancelled. -/
def checkCancelled : Step σ := fun e =>
  let (cancelled, state) := service.isCancelled e.state
  (if cancelled then .error .cancelled else .ok (), { e with state })

/-- Creates an intermediate set. It counts as live even if not all nodes come to create it. -/
def createLive (set : SetId) : Step σ :=
  (Step.note fun run => { run with liveSets := run.liveSets ++ [set] }).andThen
    ((Step.ask (service.createEverywhere cluster set)).andThen
      (Step.note fun run => { run with setsCreated := run.setsCreated + 1 }))

/-- Runs a stage on all nodes, unless the job is cancelled. -/
def runStage (stage : Stage) : Step σ :=
  let results := (stage.sink?.filter SetId.isAggregationResult).toList
  service.checkCancelled.andThen
    ((Step.note fun run =>
        { run with aggregationResults := run.aggregationResults ++ results }).andThen
      ((Step.ask (service.dispatch cluster stage)).andThen
        (Step.note fun run => { run with dispatched := run.dispatched ++ [stage] })))

/-- Removes the live sets that no source reads any more, and forgets such aggregation results:
the stage that reads one drops it.
-/
def removeConsumed : Step σ := fun e =>
  let needed (set : SetId) : Bool := e.session.hasConsumers set.key
  let run :=
    { e.run with
      aggregationResults := e.run.aggregationResults.filter needed
      liveSets := e.run.liveSets.filter needed }
  Step.forEach (fun set => Step.ask (service.removeEverywhere cluster set))
    (e.run.liveSets.filter (!needed ·)) { e with run }

/-- Carries out one increment. -/
def carryOut (increment : Increment) : Step σ :=
  (Step.note fun run => { run with increments := run.increments + 1 }).andThen
    ((Step.forEach (service.createLive cluster) increment.intermediateSets).andThen
      ((Step.forEach (service.runStage cluster) increment.stages).andThen
        (service.removeConsumed cluster)))

/-- Asks for statistics and plans the next increment. -/
def planNext (e : Execution σ) : Except ExecError Increment × Execution σ :=
  match service.refresh cluster e.state with
  | (.error error, state) => (.error error, { e with state })
  | (.ok stats, state) =>
    match e.session.planIncrement stats with
    | (.error error, session) => (.error (.planning error), { e with state, session })
    | (.ok increment, session) => (.ok increment, { e with state, session })

/-- Rounds until nothing is left to plan. Each takes at least one consumer off the session's arena,
so `fuel` is enough if no more than that many are to plan.
-/
def drive : Nat → Step σ
  | 0, e => (.ok (), e)
  | fuel + 1, e =>
    if !e.session.hasSources then (.ok (), e)
    else
      match service.checkCancelled e with
      | (.error error, e) => (.error error, e)
      | (.ok (), e) =>
        match service.planNext cluster e with
        | (.error error, e) => (.error error, e)
        | (.ok increment, e) =>
          if increment.isEmpty then (.ok (), e)
          else ((service.carryOut cluster increment).andThen (drive fuel)) e

/-- Removes all of the sets; of several failures the last one is kept. -/
def removeAll (outcome : Except ExecError Unit) : List SetId → Request σ Unit
  | [], state => (outcome, state)
  | set :: rest, state =>
    match service.removeEverywhere cluster set state with
    | (.ok (), state) => removeAll outcome rest state
    | (.error error, state) => removeAll (.error error) rest state

/-- Runs a session's job to its end. All sets that the run still owns are removed, however the
rounds end; their failure comes before that of the removal.
-/
def run (session : Session) (state : σ) : Except ExecError RunReport × Execution σ :=
  let start : Execution σ := ⟨session, .start, state⟩
  let (outcome, e) := service.drive cluster session.topology.arena.activeCount start
  let leftovers := e.run.liveSets ++ e.run.aggregationResults
  let (cleanup, state) := service.removeAll cluster (.ok ()) leftovers e.state
  let e := { e with state, run := { e.run with liveSets := [], aggregationResults := [] } }
  let report : RunReport :=
    ⟨e.session.jobId, stagesHash e.run.dispatched, e.run.dispatched.length, e.run.increments,
      e.run.setsCreated⟩
  (do outcome; cleanup; pure report, e)

end Service

end DataflowPlan
