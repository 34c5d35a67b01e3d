import Mathlib.Data.List.Basic
import DataflowPlan.Cluster.Watched
import DataflowPlan.Proofs.Plan.Order

/-! What the nodes of a simulated cluster hold: each request read through `hasSet`, for one node and
for all of them, and services that pass what they are asked on to a simulated cluster.
-/

namespace DataflowPlan

namespace Stage

/-- The stage drops a set with the key once it has read it. -/
def Drops (stage : Stage) (key : String) : Prop :=
  ∃ set, LocalCluster.consumed? stage = some set ∧ set.key = key

variable (stage : Stage) (node : ClusterNode) (cluster : ClusterConfig) (key : String)

/-- A node's copy of a stage writes what the stage does. -/
@[simp]
theorem writes_specializeFor
    : (stage.specializeFor node cluster).Writes key ↔ stage.Writes key := by
  cases stage <;> rfl

@[simp]
theorem drops_specializeFor
    : (stage.specializeFor node cluster).Drops key ↔ stage.Drops key := by
  cases stage <;> rfl

end Stage

section Asking

variable {σ α : Type}

/-- Of answers without an error there is no first error. -/
theorem firstError_eq_ok {wording : ClusterNode → ExecError → ExecError}
    {answers : List (ClusterNode × Except ExecError Unit)}
    : firstError wording answers = .ok () ↔ ∀ answer ∈ answers, answer.2 = .ok () := by
  induction answers with
  | nil => simp [firstError]
  | cons head rest ih =>
      rcases head with ⟨node, error | ⟨⟩⟩
      · simp [firstError]
      · rw [firstError, ih]
        simp

theorem firstError_eq_error {wording : ClusterNode → ExecError → ExecError}
    {answers : List (ClusterNode × Except ExecError Unit)} {error : ExecError}
    (fails : firstError wording answers = .error error)
    : ∃ answer ∈ answers, ∃ cause, answer.2 = .error cause ∧ error = wording answer.1 cause := by
  induction answers with
  | nil => simp [firstError] at fails
  | cons head rest ih =>
      rcases head with ⟨node, cause | ⟨⟩⟩
      · exact ⟨_, List.mem_cons_self, cause, rfl, (Except.error.inj fails).symm⟩
      · obtain ⟨answer, later, found⟩ := ih fails
        exact ⟨answer, List.mem_cons_of_mem _ later, found⟩

/-- What each node answers in any state, all of them answer in turn. -/
theorem askAll_forall {ask : ClusterNode → Request σ α} (good : Except ExecError α → Prop)
    (each : ∀ node state, good (ask node state).1) (nodes : List ClusterNode) (state : σ)
    : ∀ answer ∈ (askAll ask nodes state).1, good answer.2 := by
  induction nodes generalizing state with
  | nil => simp [askAll]
  | cons node rest ih =>
      intro answer member
      rcases List.mem_cons.mp member with rfl | later
      · exact each node state
      · exact ih _ answer later

end Asking

namespace LocalCluster

variable {c : LocalCluster} {n : Nat} {key : String}

-----------------------------------------------------------------------------------------------
-- One node
-----------------------------------------------------------------------------------------------

theorem hasSet_iff : c.hasSet n key = true ↔ ∃ report, ((n, key), report) ∈ c.sets := by
  rw [hasSet, report?, Option.isSome_map, List.find?_isSome]
  constructor
  · rintro ⟨⟨place, report⟩, member, same⟩
    obtain rfl : place = (n, key) := beq_iff_eq.mp same
    exact ⟨report, member⟩
  · rintro ⟨report, member⟩
    exact ⟨_, member, beq_self_eq_true _⟩

@[simp]
theorem hasSet_drop (node : Nat) (dropped : String)
    : (c.drop node dropped).hasSet n key = true
        ↔ c.hasSet n key = true ∧ ¬ (n = node ∧ dropped = key) := by
  simp [hasSet_iff, drop, @eq_comm _ dropped]

@[simp]
theorem hasSet_put (node : Nat) (made : String) (report : SetReport)
    : (c.put node made report).hasSet n key = true
        ↔ c.hasSet n key = true ∨ n = node ∧ made = key := by
  have others : (c.drop node made).hasSet n key = true ↔ _ := hasSet_drop node made
  rw [hasSet_iff] at others ⊢
  simp only [put, List.mem_append, List.mem_singleton, Prod.mk.injEq, exists_or, others,
    exists_and_left, exists_eq, and_true, @eq_comm _ made]
  tauto

/-- Wherever the set is there already, it stays. -/
theorem hasSet_createSet (node : ClusterNode) (set : SetId)
    : (createSet node set c).2.hasSet n key = true
        ↔ c.hasSet n key = true ∨ n = node.id ∧ set.key = key := by
  unfold createSet
  split
  · next there =>
      refine (or_iff_left_of_imp ?_).symm
      rintro ⟨rfl, rfl⟩
      exact there
  · exact hasSet_put _ _ _

theorem collect_state (node : ClusterNode) (c : LocalCluster)
    : (collect node c).2 = c := by
  unfold collect
  split <;> rfl

theorem removeSet_ok (node : ClusterNode) (set : SetId) (c : LocalCluster)
    : (removeSet node set c).1 = .ok () := rfl

theorem hasSet_removeSet (node : ClusterNode) (set : SetId)
    : (removeSet node set c).2.hasSet n key = true
        ↔ c.hasSet n key = true ∧ ¬ (n = node.id ∧ set.key = key) :=
  hasSet_drop _ _

theorem hasSet_afterStage (node : Nat) (stage : Stage)
    : (c.afterStage node stage).hasSet n key = true
        ↔ (c.hasSet n key = true ∨ n = node ∧ stage.Writes key)
          ∧ ¬ (n = node ∧ stage.Drops key) := by
  have same
      : ∀ (c : LocalCluster) executed,
          ({ c with executed } : LocalCluster).hasSet n key = c.hasSet n key :=
    fun _ _ => rfl
  unfold afterStage Stage.Writes Stage.Drops
  rw [same]
  cases sink : stage.sink? <;> cases set : consumed? stage <;> simp [write]

/-- A node that fails a stage holds what it held. -/
theorem hasSet_execute (node : ClusterNode) (stage : Stage)
    : ((execute node stage c).1 = .ok () →
          ((execute node stage c).2.hasSet n key = true
            ↔ (c.hasSet n key = true ∨ n = node.id ∧ stage.Writes key)
              ∧ ¬ (n = node.id ∧ stage.Drops key)))
      ∧ ((execute node stage c).2.hasSet n key = true →
          c.hasSet n key = true ∨ stage.Writes key) := by
  unfold execute
  split
  · exact ⟨nofun, .inl⟩
  · split
    · exact ⟨nofun, .inl⟩
    · refine ⟨fun _ => hasSet_afterStage _ _, fun held => ?_⟩
      exact ((hasSet_afterStage _ _).mp held).1.imp_right And.right

-----------------------------------------------------------------------------------------------
-- All nodes
-----------------------------------------------------------------------------------------------

/-- What each node that is asked does to a set, asking in turn does to it on all of them.
Witness: induction on the nodes; a node that is asked twice holds the set as after the first time.
-/
theorem hasSet_askAll {α : Type} {ask : ClusterNode → Request LocalCluster α}
    (good : Except ExecError α → Prop) (writes drops : Prop)
    (each
      : ∀ node c,
          good (ask node c).1 →
            ((ask node c).2.hasSet n key = true
              ↔ (c.hasSet n key = true ∨ n = node.id ∧ writes) ∧ ¬ (n = node.id ∧ drops)))
    (nodes : List ClusterNode) (c : LocalCluster)
    (answers : ∀ answer ∈ (askAll ask nodes c).1, good answer.2)
    : (askAll ask nodes c).2.hasSet n key = true
        ↔ (c.hasSet n key = true ∨ n ∈ nodes.map ClusterNode.id ∧ writes)
          ∧ ¬ (n ∈ nodes.map ClusterNode.id ∧ drops) := by
  induction nodes generalizing c with
  | nil => simp [askAll]
  | cons node rest ih =>
      rw [askAll] at answers ⊢
      have here := each node c (answers _ List.mem_cons_self)
      have others := ih (ask node c).2 fun answer later =>
        answers answer (List.mem_cons_of_mem _ later)
      rw [others, here, List.map_cons, List.mem_cons]
      grind only

variable (cluster : ClusterConfig)

/-- After a set is created everywhere each node holds it, also if some had it before. -/
theorem hasSet_createEverywhere (set : SetId)
    : (service.createEverywhere cluster set c).2.hasSet n key = true
        ↔ c.hasSet n key = true ∨ n ∈ cluster.nodes.map ClusterNode.id ∧ set.key = key := by
  have each
      : ∀ node (c : LocalCluster), True →
          ((createSet node set c).2.hasSet n key = true
            ↔ (c.hasSet n key = true ∨ n = node.id ∧ set.key = key) ∧ ¬ (n = node.id ∧ False)) := by
    intro node c _
    rw [hasSet_createSet]
    simp
  refine (hasSet_askAll (fun _ => True) _ _ each cluster.nodes c (by simp)).trans ?_
  simp

theorem removeEverywhere_ok (set : SetId) (c : LocalCluster)
    : (service.removeEverywhere cluster set c).1 = .ok () :=
  firstError_eq_ok.mpr (askAll_forall (· = .ok ()) (removeSet_ok · set) cluster.nodes c)

theorem hasSet_removeEverywhere (set : SetId)
    : (service.removeEverywhere cluster set c).2.hasSet n key = true
        ↔ c.hasSet n key = true ∧ ¬ (n ∈ cluster.nodes.map ClusterNode.id ∧ set.key = key) := by
  have each
      : ∀ node (c : LocalCluster), True →
          ((removeSet node set c).2.hasSet n key = true
            ↔ (c.hasSet n key = true ∨ n = node.id ∧ False) ∧ ¬ (n = node.id ∧ set.key = key)) := by
    intro node c _
    rw [hasSet_removeSet]
    simp
  refine (hasSet_askAll (fun _ => True) _ _ each cluster.nodes c (by simp)).trans ?_
  simp

/-- A stage that all nodes carry out leaves its sink on each of them, and none of what it drops. -/
theorem hasSet_dispatch (stage : Stage) (ok : (service.dispatch cluster stage c).1 = .ok ())
    : (service.dispatch cluster stage c).2.hasSet n key = true
        ↔ (c.hasSet n key = true ∨ n ∈ cluster.nodes.map ClusterNode.id ∧ stage.Writes key)
          ∧ ¬ (n ∈ cluster.nodes.map ClusterNode.id ∧ stage.Drops key) := by
  refine hasSet_askAll (· = .ok ()) _ _ (fun node c carried => ?_) cluster.nodes c
    (firstError_eq_ok.mp ok)
  have here := (@hasSet_execute _ n key node (stage.specializeFor node cluster)).1 carried
  rwa [Stage.writes_specializeFor, Stage.drops_specializeFor] at here

/-- Also if some node fails a stage, all that is new on the nodes is its sink. -/
theorem hasSet_of_dispatch (stage : Stage)
    (held : (service.dispatch cluster stage c).2.hasSet n key = true)
    : c.hasSet n key = true ∨ stage.Writes key := by
  have asked
      : ∀ nodes (c : LocalCluster),
          (askAll (fun node => execute node (stage.specializeFor node cluster)) nodes c).2.hasSet n
              key
            = true →
            c.hasSet n key = true ∨ stage.Writes key := by
    intro nodes
    induction nodes with
    | nil => exact fun _ => .inl
    | cons node rest ih =>
        intro c held
        refine (ih _ held).elim (fun before => ?_) .inr
        simpa using (hasSet_execute node (stage.specializeFor node cluster)).2 before
  exact asked cluster.nodes c held

/-- Statistics are asked for without a trace. -/
theorem refresh_state (c : LocalCluster)
    : (service.refresh cluster c).2 = c := by
  have asked : ∀ nodes, (askAll collect nodes c).2 = c := by
    intro nodes
    induction nodes with
    | nil => rfl
    | cons node rest ih =>
        change (askAll collect rest (collect node c).2).2 = c
        rw [collect_state, ih]
  exact asked cluster.nodes

end LocalCluster

-----------------------------------------------------------------------------------------------
-- Services on top of a simulated cluster
-----------------------------------------------------------------------------------------------

section Services

variable {σ α β : Type} {view : σ → LocalCluster} {fit : σ → Prop}

/-- In states that fit, the request is answered by the cluster in view, and changes it alike. -/
def Passes (view : σ → LocalCluster) (fit : σ → Prop) (request : σ → α × σ)
    (own : LocalCluster → α × LocalCluster) : Prop :=
  ∀ state,
    fit state →
      (request state).1 = (own (view state)).1
      ∧ view (request state).2 = (own (view state)).2
      ∧ fit (request state).2

theorem Passes.map {request : σ → α × σ} {own : LocalCluster → α × LocalCluster}
    (passes : Passes view fit request own) (read : α → β)
    : Passes view fit (fun state => (read (request state).1, (request state).2))
        fun c => (read (own c).1, (own c).2) := by
  intro state fits
  obtain ⟨answer, after, still⟩ := passes state fits
  exact ⟨congrArg read answer, after, still⟩

theorem Passes.askAll {ask : ClusterNode → Request σ α}
    {own : ClusterNode → Request LocalCluster α}
    (each : ∀ node, Passes view fit (ask node) (own node)) (nodes : List ClusterNode)
    : Passes view fit (askAll ask nodes) (askAll own nodes) := by
  induction nodes with
  | nil => exact fun state fits => ⟨rfl, rfl, fits⟩
  | cons node rest ih =>
      intro state fits
      obtain ⟨answer, after, still⟩ := each node state fits
      obtain ⟨answers, last, fitting⟩ := ih _ still
      rw [after] at answers last
      refine ⟨?_, last, fitting⟩
      simp [DataflowPlan.askAll, answer, answers]

/-- A service that has a simulated cluster behind it, which answers every request but the one
whether the job is to stop: that may be answered in any way.
-/
structure Service.ActsOn (service : Service σ) (view : σ → LocalCluster) (fit : σ → Prop)
    : Prop where
  collect : ∀ node, Passes view fit (service.collect node) (LocalCluster.collect node)
  createSet
    : ∀ node set, Passes view fit (service.createSet node set) (LocalCluster.createSet node set)
  removeSet
    : ∀ node set, Passes view fit (service.removeSet node set) (LocalCluster.removeSet node set)
  execute
    : ∀ node stage, Passes view fit (service.execute node stage) (LocalCluster.execute node stage)
  isCancelled
    : ∀ state,
        fit state →
          view (service.isCancelled state).2 = view state ∧ fit (service.isCancelled state).2

namespace Service.ActsOn

variable {service : Service σ} (acts : service.ActsOn view fit) (cluster : ClusterConfig)

include acts

theorem refresh
    : Passes view fit (service.refresh cluster) (LocalCluster.service.refresh cluster) :=
  (Passes.askAll acts.collect cluster.nodes).map _

theorem createEverywhere (set : SetId)
    : Passes view fit (service.createEverywhere cluster set)
        (LocalCluster.service.createEverywhere cluster set) :=
  (Passes.askAll (acts.createSet · set) cluster.nodes).map _

theorem removeEverywhere (set : SetId)
    : Passes view fit (service.removeEverywhere cluster set)
        (LocalCluster.service.removeEverywhere cluster set) :=
  (Passes.askAll (acts.removeSet · set) cluster.nodes).map _

theorem dispatch (stage : Stage)
    : Passes view fit (service.dispatch cluster stage)
        (LocalCluster.service.dispatch cluster stage) :=
  have asked := Passes.askAll (fun node => acts.execute node (stage.specializeFor node cluster))
    cluster.nodes
  asked.map _

end Service.ActsOn

/-- A simulated cluster has itself behind it. -/
theorem LocalCluster.actsOn : LocalCluster.service.ActsOn id fun _ => True :=
  ⟨fun _ _ fits => ⟨rfl, rfl, fits⟩, fun _ _ _ fits => ⟨rfl, rfl, fits⟩,
    fun _ _ _ fits => ⟨rfl, rfl, fits⟩, fun _ _ _ fits => ⟨rfl, rfl, fits⟩,
    fun _ fits => ⟨rfl, fits⟩⟩

/-- A watched cluster on which no creation and no removal is made to fail has its cluster behind it;
the job may be cancelled at any time.
-/
theorem WatchedCluster.actsOn
    : WatchedCluster.service.ActsOn WatchedCluster.cluster
        fun w => w.failCreate = none ∧ w.failRemove = none := by
  refine ⟨?_, ?_, ?_, ?_, ?_⟩
  · exact fun node w fits => ⟨rfl, rfl, fits⟩
  · rintro node set w ⟨create, remove⟩
    simp [service, log, pass, create, remove]
  · rintro node set w ⟨create, remove⟩
    simp [service, log, pass, create, remove]
  · exact fun node stage w fits => ⟨rfl, rfl, fits⟩
  · exact fun w fits => ⟨rfl, fits⟩

end Services

end DataflowPlan
