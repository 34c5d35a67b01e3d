import DataflowPlan.Proofs.Cluster.Recorded
import DataflowPlan.Proofs.Cluster.Reports

/-! Services whose nodes store what a simulated cluster stores, though requests may fail before they
come to it, and the stages that find there what they read.
-/

namespace DataflowPlan

section Services

variable {σ α : Type} {view : σ → LocalCluster} {fit : σ → Prop}

-----------------------------------------------------------------------------------------------
-- Requests
-----------------------------------------------------------------------------------------------

/-- In states that fit, the request is the one to the cluster in view if it succeeds. -/
def MayPass (view : σ → LocalCluster) (fit : σ → Prop) (request : Request σ Unit)
    (own : Request LocalCluster Unit) : Prop :=
  ∀ state,
    fit state →
      fit (request state).2
      ∧ ((request state).1 = .ok () → own (view state) = (.ok (), view (request state).2))

theorem Passes.mayPass {request : Request σ Unit} {own : Request LocalCluster Unit}
    (passes : Passes view fit request own)
    : MayPass view fit request own := by
  intro state fits
  obtain ⟨answer, after, still⟩ := passes state fits
  exact ⟨still, fun ok => Prod.ext (answer.symm.trans ok) after.symm⟩

/-- Asking in turn is asking the nodes of the cluster in view, if all of them succeed. -/
theorem MayPass.askAll {ask : ClusterNode → Request σ Unit}
    {own : ClusterNode → Request LocalCluster Unit}
    (each : ∀ node, MayPass view fit (ask node) (own node)) (nodes : List ClusterNode)
    {state : σ} (fits : fit state)
    : fit (askAll ask nodes state).2
      ∧ ((∀ answer ∈ (askAll ask nodes state).1, answer.2 = .ok ()) →
          askAll own nodes (view state)
            = ((askAll ask nodes state).1, view (askAll ask nodes state).2)) := by
  induction nodes generalizing state with
  | nil => exact ⟨fits, fun _ => rfl⟩
  | cons node rest ih =>
      obtain ⟨still, here⟩ := each node state fits
      obtain ⟨fitting, later⟩ := ih still
      refine ⟨fitting, fun answers => ?_⟩
      have ok : (ask node state).1 = .ok () := answers _ List.mem_cons_self
      have others := later fun answer member => answers answer (List.mem_cons_of_mem _ member)
      rw [DataflowPlan.askAll, here ok]
      simp only [others, ← ok]
      rfl

theorem MayPass.everywhere {ask : ClusterNode → Request σ Unit}
    {own : ClusterNode → Request LocalCluster Unit}
    (each : ∀ node, MayPass view fit (ask node) (own node)) (nodes : List ClusterNode)
    (wording : ClusterNode → ExecError → ExecError)
    : MayPass view fit
        (fun state =>
          (firstError wording (DataflowPlan.askAll ask nodes state).1,
            (DataflowPlan.askAll ask nodes state).2))
        (fun c =>
          (firstError wording (DataflowPlan.askAll own nodes c).1,
            (DataflowPlan.askAll own nodes c).2)) := by
  intro state fits
  obtain ⟨still, asked⟩ := MayPass.askAll each nodes fits
  refine ⟨still, fun ok => ?_⟩
  dsimp only at ok ⊢
  rw [asked (firstError_eq_ok.mp ok), ok]

-----------------------------------------------------------------------------------------------
-- Services
-----------------------------------------------------------------------------------------------

/-- A service whose stages are run by the simulated cluster behind it, and whose sets are created
and removed there unless a request fails before. All other requests may be answered in any way, and
leave the cluster as it is.
-/
structure Service.StoresOn (service : Service σ) (view : σ → LocalCluster) (fit : σ → Prop)
    : Prop where
  collect
    : ∀ node state,
        fit state →
          view (service.collect node state).2 = view state ∧ fit (service.collect node state).2
  createSet
    : ∀ node set, MayPass view fit (service.createSet node set) (LocalCluster.createSet node set)
  removeSet
    : ∀ node set, MayPass view fit (service.removeSet node set) (LocalCluster.removeSet node set)
  execute
    : ∀ node stage, Passes view fit (service.execute node stage) (LocalCluster.execute node stage)
  isCancelled
    : ∀ state,
        fit state →
          view (service.isCancelled state).2 = view state ∧ fit (service.isCancelled state).2

/-- A watched cluster stores what its cluster stores, whatever is made to fail. -/
theorem WatchedCluster.storesOn
    : WatchedCluster.service.StoresOn WatchedCluster.cluster fun _ => True where
  collect node w _ := ⟨LocalCluster.collect_state node w.cluster, trivial⟩
  createSet node set w _ := by
    refine ⟨trivial, fun ok => ?_⟩
    simp only [service] at ok ⊢
    split at ok
    · simp at ok
    · next passed =>
        rw [if_neg passed]
        exact Prod.ext ok rfl
  removeSet node set w _ := by
    refine ⟨trivial, fun ok => ?_⟩
    simp only [service] at ok ⊢
    split at ok
    · simp at ok
    · next passed =>
        rw [if_neg passed]
        rfl
  execute node stage w _ := ⟨rfl, rfl, trivial⟩
  isCancelled w _ := ⟨rfl, trivial⟩

namespace Service.StoresOn

variable {service : Service σ} (stores : service.StoresOn view fit)

include stores

/-- A service with its requests recorded stores what it stores without. -/
theorem recorded
    : service.recorded.StoresOn (fun r => view r.state) (fun r => fit r.state) where
  collect node r fits := stores.collect node r.state fits
  createSet node set r fits := stores.createSet node set r.state fits
  removeSet node set r fits := stores.removeSet node set r.state fits
  execute node stage r fits := stores.execute node stage r.state fits
  isCancelled r fits := stores.isCancelled r.state fits

variable (cluster : ClusterConfig) {state : σ} {n : Nat} {key : String} {set : SetId}

theorem refresh (fits : fit state)
    : view (service.refresh cluster state).2 = view state
      ∧ fit (service.refresh cluster state).2 := by
  have keeps : ∀ node ∈ cluster.nodes, ∀ later, view later = view state ∧ fit later →
      view (service.collect node later).2 = view state ∧ fit (service.collect node later).2 := by
    rintro node - later ⟨before, fitting⟩
    obtain ⟨same, still⟩ := stores.collect node later fitting
    exact ⟨same.trans before, still⟩
  exact askAll_keeps keeps ⟨rfl, fits⟩

theorem createEverywhere (set : SetId)
    : MayPass view fit (service.createEverywhere cluster set)
        (LocalCluster.service.createEverywhere cluster set) :=
  MayPass.everywhere (stores.createSet · set) cluster.nodes _

theorem removeEverywhere (set : SetId)
    : MayPass view fit (service.removeEverywhere cluster set)
        (LocalCluster.service.removeEverywhere cluster set) :=
  MayPass.everywhere (stores.removeSet · set) cluster.nodes _

theorem dispatch (stage : Stage)
    : MayPass view fit (service.dispatch cluster stage)
        (LocalCluster.service.dispatch cluster stage) :=
  MayPass.everywhere (fun node => (stores.execute node (stage.specializeFor node cluster)).mayPass)
    cluster.nodes _

/-- A set that is created everywhere was held on no node, and all nodes hold it then. -/
theorem hasSet_create (fits : fit state)
    (ok : (service.createEverywhere cluster set state).1 = .ok ())
    : (n ∈ cluster.nodes.map ClusterNode.id → (view state).hasSet n set.key = false)
      ∧ ((view (service.createEverywhere cluster set state).2).hasSet n key = true
          ↔ (view state).hasSet n key = true
            ∨ n ∈ cluster.nodes.map ClusterNode.id ∧ set.key = key) := by
  have own := (stores.createEverywhere cluster set state fits).2 ok
  have after := @LocalCluster.hasSet_createEverywhere (view state) n key cluster set
  rw [own] at after
  exact ⟨LocalCluster.not_hasSet_of_createEverywhere cluster (congrArg Prod.fst own), after⟩

theorem hasSet_remove (fits : fit state)
    (ok : (service.removeEverywhere cluster set state).1 = .ok ())
    : (view (service.removeEverywhere cluster set state).2).hasSet n key = true
        ↔ (view state).hasSet n key = true
          ∧ ¬ (n ∈ cluster.nodes.map ClusterNode.id ∧ set.key = key) := by
  have own := (stores.removeEverywhere cluster set state fits).2 ok
  have after := @LocalCluster.hasSet_removeEverywhere (view state) n key cluster set
  rw [own] at after
  exact after

theorem hasSet_dispatch {stage : Stage} (fits : fit state)
    (ok : (service.dispatch cluster stage state).1 = .ok ())
    : (view (service.dispatch cluster stage state).2).hasSet n key = true
        ↔ ((view state).hasSet n key = true
              ∨ n ∈ cluster.nodes.map ClusterNode.id ∧ stage.Writes key)
          ∧ ¬ (n ∈ cluster.nodes.map ClusterNode.id ∧ stage.Drops key) := by
  have own := (stores.dispatch cluster stage state fits).2 ok
  have after := @LocalCluster.hasSet_dispatch (view state) n key cluster stage
    (congrArg Prod.fst own)
  rw [own] at after
  exact after

end Service.StoresOn

end Services

-----------------------------------------------------------------------------------------------
-- Stages that find what they read
-----------------------------------------------------------------------------------------------

theorem Stage.source_specializeFor (stage : Stage) (node : ClusterNode) (cluster : ClusterConfig)
    : (stage.specializeFor node cluster).source = stage.source := by
  cases stage <;> rfl

/-- A stage that a node runs without dropping the set leaves it there, also if the node fails it. -/
theorem LocalCluster.hasSet_execute_of_kept {node : ClusterNode} {stage : Stage} {n : Nat}
    {key : String} (keeps : ¬ stage.Drops key) {c : LocalCluster} (held : c.hasSet n key = true)
    : (execute node stage c).2.hasSet n key = true := by
  rcases execute_cases node stage c with carried | ⟨error, failed⟩
  · rw [carried, hasSet_afterStage]
    exact ⟨.inl held, fun drops => keeps drops.2⟩
  · rw [failed]
    exact held

section Recording

variable {σ α : Type} {view : σ → LocalCluster} {fit : σ → Prop}

/-- If a stage that reads an intermediate set is asked for, the node holds that set. -/
def Served (view : σ → LocalCluster) (fit : σ → Prop) : Asked × σ → Prop
  | (.execute node stage, before) =>
    fit before
    ∧ (stage.source.isIntermediate = true →
        (view before).hasSet node.id stage.source.key = true)
  | (.statistics _, _) | (.create _ _, _) | (.remove _ _, _) => True

/-- A stage that finds what it reads does not fail for the want of it. -/
theorem Served.execute {service : Service σ} (stores : service.StoresOn view fit)
    {node : ClusterNode} {stage : Stage} {before : σ}
    (served : Served view fit (.execute node stage, before)) (key : String) (n : Nat)
    : (service.execute node stage before).1 ≠ .error (.storage key n .missing) := by
  obtain ⟨fits, held⟩ := served
  rw [(stores.execute node stage before fits).1, LocalCluster.execute]
  split
  · simp
  · split
    · next missing =>
        simp only [Bool.and_eq_true, Bool.not_eq_true'] at missing
        simp [held missing.1] at missing
    · simp

/-- All stages so far found what they read. -/
structure AllServed (view : σ → LocalCluster) (fit : σ → Prop) (r : Recorded σ) : Prop where
  fits : fit r.state
  served : ∀ request ∈ r.requests, Served view fit request

namespace AllServed

variable {r : Recorded σ} (served : AllServed view fit r)

include served

theorem pass {asked : Asked} {request : Request σ α} (fine : Served view fit (asked, r.state))
    (fits : fit (request r.state).2)
    : AllServed view fit (Recorded.pass asked request r).2 := by
  refine ⟨fits, fun other member => ?_⟩
  rcases List.mem_append.mp member with before | new
  · exact served.served other before
  · exact List.mem_singleton.mp new ▸ fine

variable {service : Service σ} (stores : service.StoresOn view fit) (cluster : ClusterConfig)

include stores

theorem isCancelled : AllServed view fit (service.recorded.isCancelled r).2 :=
  ⟨(stores.isCancelled r.state served.fits).2, served.served⟩

theorem refresh : AllServed view fit (service.recorded.refresh cluster r).2 :=
  askAll_keeps
    (fun node _ _ before => before.pass trivial (stores.collect node _ before.fits).2) served

theorem createEverywhere (set : SetId)
    : AllServed view fit (service.recorded.createEverywhere cluster set r).2 :=
  askAll_keeps
    (fun node _ _ before => before.pass trivial (stores.createSet node set _ before.fits).1) served

theorem removeEverywhere (set : SetId)
    : AllServed view fit (service.recorded.removeEverywhere cluster set r).2 :=
  askAll_keeps
    (fun node _ _ before => before.pass trivial (stores.removeSet node set _ before.fits).1) served

theorem removeAll (outcome : Except ExecError Unit) (sets : List SetId)
    : AllServed view fit (service.recorded.removeAll cluster outcome sets r).2 := by
  induction sets generalizing outcome r with
  | nil => exact served
  | cons set rest ih =>
      have removed := served.removeEverywhere stores cluster set
      rw [Service.removeAll]
      split
      all_goals
        next asked =>
          rw [asked] at removed
          exact ih removed _

/-- A stage that all nodes find the set for, and that does not drop it, is served on each of them.
Witness: those that are asked first leave the set to the others.
-/
theorem dispatch {stage : Stage}
    (finds
      : stage.source.isIntermediate = true →
          ∀ node ∈ cluster.nodes,
            (view r.state).hasSet node.id stage.source.key = true
            ∧ ¬ stage.Drops stage.source.key)
    : AllServed view fit (service.recorded.dispatch cluster stage r).2 := by
  have keeps : ∀ node ∈ cluster.nodes, ∀ later : Recorded σ,
      AllServed view fit later
          ∧ (stage.source.isIntermediate = true →
              ∀ other ∈ cluster.nodes,
                (view later.state).hasSet other.id stage.source.key = true) →
        AllServed view fit
            (service.recorded.execute node (stage.specializeFor node cluster) later).2
          ∧ (stage.source.isIntermediate = true →
              ∀ other ∈ cluster.nodes,
                (view (service.recorded.execute node (stage.specializeFor node cluster)
                    later).2.state).hasSet other.id stage.source.key
                  = true) := by
    rintro node member later ⟨before, held⟩
    obtain ⟨-, after, still⟩ :=
      stores.execute node (stage.specializeFor node cluster) later.state before.fits
    refine ⟨before.pass ⟨before.fits, ?_⟩ still, fun reads other listed => ?_⟩
    · rw [Stage.source_specializeFor]
      exact fun reads => held reads node member
    · have kept : ¬ (stage.specializeFor node cluster).Drops stage.source.key := by
        rw [Stage.drops_specializeFor]
        exact (finds reads node member).2
      exact (congrArg (LocalCluster.hasSet · other.id stage.source.key) after).trans
        (LocalCluster.hasSet_execute_of_kept kept (held reads other listed))
  exact (askAll_keeps keeps ⟨served, fun reads node member => (finds reads node member).1⟩).1

end AllServed

end Recording

end DataflowPlan
