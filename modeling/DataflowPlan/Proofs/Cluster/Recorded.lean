import DataflowPlan.Scheduler

/-! Services whose requests are recorded, each with the state that it found. Recording changes
neither what a run comes to nor what it does.
-/

namespace DataflowPlan

-----------------------------------------------------------------------------------------------
-- Programs on states that can be read as other states
-----------------------------------------------------------------------------------------------

section Mirroring

variable {α β γ δ : Type} {read : α → β}

/-- The second program answers what the first one does, and leaves what it leaves, as it is read. -/
def Mirrors (read : α → β) (full : α → γ × α) (plain : β → γ × β) : Prop :=
  ∀ a, plain (read a) = ((full a).1, read (full a).2)

theorem Mirrors.map {full : α → γ × α} {plain : β → γ × β} (mirrors : Mirrors read full plain)
    (answer : γ → δ)
    : Mirrors read (fun a => (answer (full a).1, (full a).2))
        fun b => (answer (plain b).1, (plain b).2) :=
  fun a => congrArg (fun outcome => (answer outcome.1, outcome.2)) (mirrors a)

theorem Mirrors.askAll {full : ClusterNode → Request α γ} {plain : ClusterNode → Request β γ}
    (each : ∀ node, Mirrors read (full node) (plain node)) (nodes : List ClusterNode)
    : Mirrors read (askAll full nodes) (askAll plain nodes) := by
  induction nodes with
  | nil => exact fun a => rfl
  | cons node rest ih =>
      intro a
      rw [DataflowPlan.askAll, each node a]
      simp only [ih (full node a).2]
      rfl

end Mirroring

/-- The execution with another state behind the service. -/
def Execution.map {σ τ : Type} (read : τ → σ) (e : Execution τ) : Execution σ :=
  ⟨e.session, e.run, read e.state⟩

/-- Each request to the second service is mirrored by the first one. -/
structure Service.MirroredBy {σ τ : Type} (service : Service σ) (full : Service τ)
    (read : τ → σ) : Prop where
  collect : ∀ node, Mirrors read (full.collect node) (service.collect node)
  createSet : ∀ node set, Mirrors read (full.createSet node set) (service.createSet node set)
  removeSet : ∀ node set, Mirrors read (full.removeSet node set) (service.removeSet node set)
  execute : ∀ node stage, Mirrors read (full.execute node stage) (service.execute node stage)
  isCancelled : Mirrors read full.isCancelled service.isCancelled

namespace Step

variable {σ τ α : Type} {read : τ → σ}

/-- The second step does what the first one does, as it is read. -/
abbrev MirroredBy (read : τ → σ) (plain : Step σ) (full : Step τ) : Prop :=
  Mirrors (Execution.map read) full plain

theorem MirroredBy.andThen {first second : Step σ} {full next : Step τ}
    (one : first.MirroredBy read full) (two : second.MirroredBy read next)
    : (first.andThen second).MirroredBy read (full.andThen next) := by
  intro e
  rw [Step.andThen, one e, Step.andThen]
  rcases full e with ⟨error | ⟨⟩, after⟩
  · rfl
  · exact two after

theorem MirroredBy.forEach {plain : α → Step σ} {full : α → Step τ}
    (each : ∀ item, (plain item).MirroredBy read (full item)) (items : List α)
    : (forEach plain items).MirroredBy read (forEach full items) := by
  induction items with
  | nil => exact fun e => rfl
  | cons item rest ih => exact (each item).andThen ih

theorem mirroredBy_note (change : Run → Run)
    : (note change : Step σ).MirroredBy read (note change) :=
  fun _ => rfl

theorem mirroredBy_ask {plain : Request σ Unit} {full : Request τ Unit}
    (mirrors : Mirrors read full plain)
    : (ask plain).MirroredBy read (ask full) :=
  fun e =>
    congrArg (fun outcome => (outcome.1, ({ e.map read with state := outcome.2 } : Execution σ)))
      (mirrors e.state)

end Step

-----------------------------------------------------------------------------------------------
-- Runs
-----------------------------------------------------------------------------------------------

namespace Service.MirroredBy

variable {σ τ : Type} {service : Service σ} {full : Service τ} {read : τ → σ}
  (mirrored : service.MirroredBy full read) (cluster : ClusterConfig)

include mirrored

theorem refresh : Mirrors read (full.refresh cluster) (service.refresh cluster) :=
  (Mirrors.askAll mirrored.collect cluster.nodes).map _

theorem createEverywhere (set : SetId)
    : Mirrors read (full.createEverywhere cluster set) (service.createEverywhere cluster set) :=
  (Mirrors.askAll (mirrored.createSet · set) cluster.nodes).map _

theorem removeEverywhere (set : SetId)
    : Mirrors read (full.removeEverywhere cluster set) (service.removeEverywhere cluster set) :=
  (Mirrors.askAll (mirrored.removeSet · set) cluster.nodes).map _

theorem dispatch (stage : Stage)
    : Mirrors read (full.dispatch cluster stage) (service.dispatch cluster stage) :=
  have asked := Mirrors.askAll
    (fun node => mirrored.execute node (stage.specializeFor node cluster)) cluster.nodes
  asked.map _

theorem checkCancelled : service.checkCancelled.MirroredBy read full.checkCancelled :=
  fun e =>
    congrArg
      (fun outcome : Bool × σ =>
        ((if outcome.1 then .error .cancelled else .ok () : Except ExecError Unit),
          ({ e.map read with state := outcome.2 } : Execution σ)))
      (mirrored.isCancelled e.state)

theorem removeConsumed
    : (service.removeConsumed cluster).MirroredBy read (full.removeConsumed cluster) :=
  fun e =>
    Step.MirroredBy.forEach (fun set => Step.mirroredBy_ask (mirrored.removeEverywhere cluster set))
      _ { e with run := _ }

theorem carryOut (increment : Increment)
    : (service.carryOut cluster increment).MirroredBy read (full.carryOut cluster increment) := by
  have create : ∀ set,
      (service.createLive cluster set).MirroredBy read (full.createLive cluster set) := fun set =>
    (Step.mirroredBy_note _).andThen
      ((Step.mirroredBy_ask (mirrored.createEverywhere cluster set)).andThen
        (Step.mirroredBy_note _))
  have stage : ∀ stage,
      (service.runStage cluster stage).MirroredBy read (full.runStage cluster stage) := fun stage =>
    mirrored.checkCancelled.andThen ((Step.mirroredBy_note _).andThen
      ((Step.mirroredBy_ask (mirrored.dispatch cluster stage)).andThen (Step.mirroredBy_note _)))
  exact (Step.mirroredBy_note _).andThen ((Step.MirroredBy.forEach create _).andThen
    ((Step.MirroredBy.forEach stage _).andThen (mirrored.removeConsumed cluster)))

theorem planNext
    : Mirrors (Execution.map read) (full.planNext cluster) (service.planNext cluster) := by
  intro e
  have same := mirrored.refresh cluster e.state
  rw [Service.planNext, Service.planNext, show (e.map read).state = read e.state from rfl, same]
  rcases full.refresh cluster e.state with ⟨error | stats, state⟩
  · rfl
  · dsimp only
    rw [show (e.map read).session = e.session from rfl]
    rcases e.session.planIncrement stats with ⟨error | increment, session⟩ <;> rfl

/-- Rounds on the one service are rounds on the other.
Witness: induction on the fuel.
-/
theorem drive (fuel : Nat)
    : (service.drive cluster fuel).MirroredBy read (full.drive cluster fuel) := by
  induction fuel with
  | zero => exact fun e => rfl
  | succ fuel ih =>
      intro e
      rw [Service.drive, Service.drive, show (e.map read).session = e.session from rfl]
      split
      · rfl
      · rw [mirrored.checkCancelled e]
        rcases full.checkCancelled e with ⟨error | ⟨⟩, begun⟩
        · rfl
        · dsimp only
          rw [mirrored.planNext cluster begun]
          rcases full.planNext cluster begun with ⟨error | increment, ready⟩
          · rfl
          · dsimp only
            split
            · rfl
            · exact (mirrored.carryOut cluster increment).andThen ih ready

theorem removeAll (outcome : Except ExecError Unit) (sets : List SetId)
    : Mirrors read (full.removeAll cluster outcome sets)
        (service.removeAll cluster outcome sets) := by
  induction sets generalizing outcome with
  | nil => exact fun state => rfl
  | cons set rest ih =>
      intro state
      rw [Service.removeAll, Service.removeAll, mirrored.removeEverywhere cluster set state]
      rcases full.removeEverywhere cluster set state with ⟨error | ⟨⟩, after⟩
      · exact ih _ after
      · exact ih _ after

/-- A run on the one service is a run on the other. -/
theorem run (session : Session) (state : τ)
    : service.run cluster session (read state)
        = ((full.run cluster session state).1, (full.run cluster session state).2.map read) := by
  have rounds := mirrored.drive cluster session.topology.arena.activeCount ⟨session, .start, state⟩
  rw [Service.run, Service.run]
  rw [show (⟨session, .start, read state⟩ : Execution σ)
    = Execution.map read ⟨session, .start, state⟩ from rfl, rounds]
  rcases full.drive cluster session.topology.arena.activeCount ⟨session, .start, state⟩
    with ⟨outcome, e⟩
  dsimp only
  rw [show (e.map read).state = read e.state from rfl, show (e.map read).run = e.run from rfl,
    mirrored.removeAll cluster (.ok ()) (e.run.liveSets ++ e.run.aggregationResults) e.state]
  rfl

end Service.MirroredBy

-----------------------------------------------------------------------------------------------
-- Recording
-----------------------------------------------------------------------------------------------

/-- A request to one node, with all that is asked of it. -/
inductive Asked
  | statistics (node : ClusterNode)
  | create (node : ClusterNode) (set : SetId)
  | remove (node : ClusterNode) (set : SetId)
  | execute (node : ClusterNode) (stage : Stage)
deriving DecidableEq

/-- The state behind a service, and every request so far with the state that it found. -/
structure Recorded (σ : Type) where
  state : σ
  requests : List (Asked × σ)

namespace Recorded

variable {σ α : Type}

/-- Nothing is recorded yet. -/
def start (state : σ) : Recorded σ := ⟨state, []⟩

/-- What was asked so far, in order. -/
def asked (r : Recorded σ) : List Asked := r.requests.map Prod.fst

/-- Records a request and passes it on. -/
def pass (asked : Asked) (request : Request σ α) : Request (Recorded σ) α := fun r =>
  let (answer, state) := request r.state
  (answer, ⟨state, r.requests ++ [(asked, r.state)]⟩)

end Recorded

/-- The service with its requests recorded. -/
def Service.recorded {σ : Type} (service : Service σ) : Service (Recorded σ) where
  collect node := Recorded.pass (.statistics node) (service.collect node)
  createSet node set := Recorded.pass (.create node set) (service.createSet node set)
  removeSet node set := Recorded.pass (.remove node set) (service.removeSet node set)
  execute node stage := Recorded.pass (.execute node stage) (service.execute node stage)
  isCancelled r :=
    let (cancelled, state) := service.isCancelled r.state
    (cancelled, { r with state })

/-- Recording leaves a service as it is. -/
theorem Service.mirroredBy_recorded {σ : Type} (service : Service σ)
    : service.MirroredBy service.recorded Recorded.state :=
  ⟨fun _ _ => rfl, fun _ _ _ => rfl, fun _ _ _ => rfl, fun _ _ _ => rfl, fun _ => rfl⟩

section Recording

variable {σ α : Type} (service : Service σ) (cluster : ClusterConfig) (r : Recorded σ)

/-- Asking all nodes in turn is recorded node by node. -/
theorem asked_askAll (one : ClusterNode → Asked) (request : ClusterNode → Request σ α)
    (nodes : List ClusterNode)
    : (askAll (fun node => Recorded.pass (one node) (request node)) nodes r).2.asked
        = r.asked ++ nodes.map one := by
  induction nodes generalizing r with
  | nil => simp [askAll]
  | cons node rest ih =>
      refine (ih (Recorded.pass (one node) (request node) r).2).trans ?_
      simp [Recorded.pass, Recorded.asked]

theorem asked_refresh
    : (service.recorded.refresh cluster r).2.asked
        = r.asked ++ cluster.nodes.map Asked.statistics :=
  asked_askAll r _ service.collect cluster.nodes

theorem asked_createEverywhere (set : SetId)
    : (service.recorded.createEverywhere cluster set r).2.asked
        = r.asked ++ cluster.nodes.map (Asked.create · set) :=
  asked_askAll r _ (service.createSet · set) cluster.nodes

theorem asked_removeEverywhere (set : SetId)
    : (service.recorded.removeEverywhere cluster set r).2.asked
        = r.asked ++ cluster.nodes.map (Asked.remove · set) :=
  asked_askAll r _ (service.removeSet · set) cluster.nodes

theorem asked_dispatch (stage : Stage)
    : (service.recorded.dispatch cluster stage r).2.asked
        = r.asked
          ++ cluster.nodes.map fun node => .execute node (stage.specializeFor node cluster) :=
  asked_askAll r _ (fun node => service.execute node (stage.specializeFor node cluster))
    cluster.nodes

theorem asked_removeAll (outcome : Except ExecError Unit) (sets : List SetId)
    : (service.recorded.removeAll cluster outcome sets r).2.asked
        = r.asked ++ sets.flatMap fun set => cluster.nodes.map (Asked.remove · set) := by
  induction sets generalizing outcome r with
  | nil => simp [Service.removeAll]
  | cons set rest ih =>
      have here := asked_removeEverywhere service cluster r set
      rw [Service.removeAll]
      split
      all_goals
        next removed =>
          rw [removed] at here
          rw [ih, here, List.flatMap_cons, List.append_assoc]

end Recording

end DataflowPlan
