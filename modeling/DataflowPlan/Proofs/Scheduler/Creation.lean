import DataflowPlan.Proofs.Cluster.Reports
import DataflowPlan.Proofs.Scheduler.Rounds
import DataflowPlan.Proofs.Session.SetNames

/-! Creating the sets of a plan. On a simulated cluster that holds nothing of the job, all of them
can be created in turn exactly if their keys are different, and that depends on how the outputs of
the graph are called.
-/

namespace DataflowPlan

namespace LocalCluster

variable {cluster : ClusterConfig} {c : LocalCluster} {e : Execution LocalCluster}

/-- Nodes of different identifiers all create a set that none of them holds. -/
theorem createEverywhere_of_free (distinct : (cluster.nodes.map ClusterNode.id).Nodup)
    {set : SetId} (free : ∀ node ∈ cluster.nodes, c.hasSet node.id set.key = false)
    : (service.createEverywhere cluster set c).1 = .ok () := by
  have asked : ∀ (nodes : List ClusterNode) (c : LocalCluster),
      (nodes.map ClusterNode.id).Nodup →
        (∀ node ∈ nodes, c.hasSet node.id set.key = false) →
          ∀ answer ∈ (askAll (createSet · set) nodes c).1, answer.2 = .ok () := by
    intro nodes
    induction nodes with
    | nil => simp [askAll]
    | cons node rest ih =>
        intro c distinct free
        obtain ⟨apart, distinct⟩ := List.nodup_cons.mp distinct
        rw [askAll]
        intro answer member
        rcases List.mem_cons.mp member with rfl | later
        · simp [createSet, free node List.mem_cons_self]
        · refine ih _ distinct (fun other member => ?_) answer later
          rw [Bool.eq_false_iff, ne_eq, hasSet_createSet]
          rintro (there | ⟨same, -⟩)
          · simp [free other (List.mem_cons_of_mem _ member)] at there
          · exact apart (List.mem_map.mpr ⟨other, member, same⟩)
  exact firstError_eq_ok.mpr (asked cluster.nodes c distinct free)

/-- Creating a live set comes to what the cluster answers, and leaves the cluster as that does. -/
theorem createLive_eq (cluster : ClusterConfig) (set : SetId) (e : Execution LocalCluster)
    : (service.createLive cluster set e).1 = (service.createEverywhere cluster set e.state).1
      ∧ (service.createLive cluster set e).2.state
        = (service.createEverywhere cluster set e.state).2 := by
  unfold Service.createLive Step.note Step.andThen Step.ask
  dsimp only
  cases (service.createEverywhere cluster set e.state).1 <;> exact ⟨rfl, rfl⟩

/-- The cluster holds none of the sets. -/
def Free (cluster : ClusterConfig) (sets : List SetId) (c : LocalCluster) : Prop :=
  ∀ node ∈ cluster.nodes, ∀ set ∈ sets, c.hasSet node.id set.key = false

/-- Sets that no node holds can all be created, in turn, if their keys are different.
Witness: induction on the sets. What is created has another key than those that follow.
-/
theorem forEach_createLive_of_nodup (distinct : (cluster.nodes.map ClusterNode.id).Nodup)
    {sets : List SetId} (different : (sets.map SetId.key).Nodup)
    (free : Free cluster sets e.state)
    : (Step.forEach (service.createLive cluster) sets e).1 = .ok () := by
  induction sets generalizing e with
  | nil => rfl
  | cons set rest ih =>
      obtain ⟨apart, different⟩ := List.nodup_cons.mp different
      have created := createEverywhere_of_free distinct fun node member =>
        free node member set List.mem_cons_self
      obtain ⟨answer, state⟩ := createLive_eq cluster set e
      rw [Step.forEach, Step.andThen]
      split
      · next done =>
          rw [done] at state
          refine ih different fun node member other later => ?_
          rw [state, Bool.eq_false_iff, ne_eq, hasSet_createEverywhere]
          rintro (there | ⟨-, same⟩)
          · simp [free node member other (List.mem_cons_of_mem _ later)] at there
          · exact apart (same ▸ List.mem_map_of_mem later)
      · next failed =>
          rw [failed, created] at answer
          simp at answer

/-- Once they are all created no two of them have the same key, if there is a node at all. -/
theorem nodup_of_forEach_createLive {node : ClusterNode} (member : node ∈ cluster.nodes)
    {sets : List SetId} (done : (Step.forEach (service.createLive cluster) sets e).1 = .ok ())
    : (sets.map SetId.key).Nodup
      ∧ ∀ set ∈ sets, e.state.hasSet node.id set.key = false := by
  have listed : node.id ∈ cluster.nodes.map ClusterNode.id := List.mem_map_of_mem member
  induction sets generalizing e with
  | nil => simp
  | cons set rest ih =>
      obtain ⟨answer, state⟩ := createLive_eq cluster set e
      rw [Step.forEach, Step.andThen] at done
      split at done
      · next created =>
          rw [created] at answer state
          obtain ⟨different, free⟩ := ih done
          have held : ∀ other ∈ rest,
              ¬ (e.state.hasSet node.id other.key = true ∨ set.key = other.key) := by
            intro other later held
            have none := free other later
            rw [state, Bool.eq_false_iff, ne_eq, hasSet_createEverywhere] at none
            exact none (held.imp_right fun same => ⟨listed, same⟩)
          refine ⟨List.nodup_cons.mpr ⟨fun again => ?_, different⟩, ?_⟩
          · obtain ⟨other, later, same⟩ := List.mem_map.mp again
            exact held other later (.inr same.symm)
          · intro other known
            rcases List.mem_cons.mp known with rfl | later
            · exact not_hasSet_of_createEverywhere cluster answer.symm listed
            · exact Bool.eq_false_iff.mpr fun there => held other later (.inl there)
      · simp at done

/-- Creating sets fails only at a set that some node holds already. -/
theorem exists_of_forEach_createLive {sets : List SetId} {error : ExecError}
    (failed : (Step.forEach (service.createLive cluster) sets e).1 = .error error)
    : ∃ set ∈ sets, ∃ node, error = .storage set.key node .exists := by
  obtain ⟨done, set, rest, partway, rfl, -, refused⟩ :=
    Step.forEach_eq_error_iff.mp (Prod.ext failed rfl)
  obtain ⟨answer, -⟩ := createLive_eq cluster set partway
  rw [refused] at answer
  exact ⟨set, by simp, createEverywhere_error cluster answer.symm⟩

end LocalCluster

namespace Session

/-- What becomes of creating the intermediate sets of a plan. They are named by outputs, and their
keys are different exactly if no name clashes, as in a graph whose outputs are free of endings. On
nodes that hold none of the job's sets all of them are created then, and otherwise one is refused
because it already exists.
-/
structure SetNames (g : Graph) (plan : Plan) (names : List (Atomic × String)) : Prop where
  named : NamedBy g plan names
  different : (plan.intermediateSets.map SetId.key).Nodup ↔ ¬ Clash names
  free : EndingsFree g → ¬ Clash names
  creates
    : ∀ (cluster : ClusterConfig) (e : Execution LocalCluster),
        cluster.nodes ≠ [] →
          (cluster.nodes.map ClusterNode.id).Nodup →
            (∀ node ∈ cluster.nodes,
              ∀ name, e.state.hasSet node.id (setKey plan.jobId name) = false) →
              ((Step.forEach (LocalCluster.service.createLive cluster) plan.intermediateSets e).1
                  = .ok ()
                ∧ ¬ Clash names)
              ∨ (∃ set ∈ plan.intermediateSets,
                  ∃ node,
                    (Step.forEach (LocalCluster.service.createLive cluster) plan.intermediateSets
                        e).1
                    = .error (.storage set.key node .exists))
                ∧ Clash names

/-- How the sets of a plan are called decides whether they can be created, if computations are filed
under their own names.
Witness: every set has an origin of its own, and different origins share a name only if an output is
called as another one with an ending behind it.
-/
theorem planAll_setNames {jobId : String} {g : Graph} {config : PlannerConfig}
    {first next : Session} {stats : Statistics} {plan : Plan}
    (started : Session.start jobId g config = .ok first) (own : g.Named)
    (planned : first.planAll stats = (.ok plan, next))
    : plan.jobId = jobId ∧ ∃ names, SetNames g plan names := by
  obtain ⟨beginning, job, -⟩ := beginning_of_start started
  have distinct := beginning.reaches.wired.valid.distinct
  obtain ⟨names, named⟩ := beginning.exists_namedBy own planned
  have different := named.nodup_iff distinct
  obtain ⟨-, _, -, same⟩ := planAll_eq_ok planned
  refine ⟨same.trans job, names, named, different, named.not_clash, ?_⟩
  intro cluster e nodes apart none
  have free : LocalCluster.Free cluster plan.intermediateSets e.state := by
    intro node member set listed
    have key : set.key ∈ plan.intermediateSets.map SetId.key := List.mem_map_of_mem listed
    rw [named.keys] at key
    obtain ⟨name, -, called⟩ := List.mem_map.mp key
    exact called ▸ none node member _
  by_cases clash : Clash names
  · refine .inr ⟨?_, clash⟩
    cases outcome : (Step.forEach (LocalCluster.service.createLive cluster)
        plan.intermediateSets e).1 with
    | error error =>
        obtain ⟨set, member, node, rfl⟩ := LocalCluster.exists_of_forEach_createLive outcome
        exact ⟨set, member, node, rfl⟩
    | ok done =>
        obtain ⟨node, member⟩ := List.exists_mem_of_ne_nil _ nodes
        have all := (LocalCluster.nodup_of_forEach_createLive member outcome).1
        exact absurd clash (different.mp all)
  · exact .inl ⟨LocalCluster.forEach_createLive_of_nodup apart (different.mpr clash) free, clash⟩

/-- A selection whose output is called as the data of an aggregate that is made from it. -/
def calledAsShuffled : Graph :=
  .ofLists
    [.scan "scan" "db" "data", .ofKind "clean" .selection,
      (Computation.ofKind "sum" .aggregation).setOutput "db" "sums",
      (Computation.ofKind "write" .write).setOutput "db" "all"]
    [.scan "in" "scan", .apply "sums_aggregationData" "in" "clean",
      .aggregate "sums" "sums_aggregationData" "sum", .apply "all" "sums_aggregationData" "write"]

theorem planAll_calledAsShuffled
    : ∃ first plan next,
        Session.start "job" calledAsShuffled .standard = .ok first
        ∧ first.planAll .empty = (.ok plan, next)
        ∧ plan.intermediateSets.map SetId.key
          = ["job:sums_aggregationData", "job:sums_aggregationData"] := by
  have evaluated :
      (Session.start "job" calledAsShuffled .standard).toOption.bind (fun first =>
        (first.planAll .empty).1.toOption.map fun plan =>
          plan.intermediateSets.map SetId.key)
        = some ["job:sums_aggregationData", "job:sums_aggregationData"] := by
    decide +kernel
  obtain ⟨first, started, evaluated⟩ := Except.toOption_bind_eq_some_iff.mp evaluated
  obtain ⟨plan, planned, keys⟩ := Except.toOption_map_eq_some_iff.mp evaluated
  exact ⟨first, plan, _, started, Prod.ext planned rfl, keys⟩

/-- A job that plans well can declare two sets of one key. -/
theorem calledAsShuffled_clashes
    : ∃ first plan next,
        Session.start "job" calledAsShuffled .standard = .ok first
        ∧ first.planAll .empty = (.ok plan, next)
        ∧ ¬ (plan.intermediateSets.map SetId.key).Nodup := by
  obtain ⟨first, plan, next, started, planned, keys⟩ := planAll_calledAsShuffled
  exact ⟨first, plan, next, started, planned, by rw [keys]; decide⟩

/-- An empty cluster refuses to create the sets of that job. -/
theorem calledAsShuffled_setNames
    : ∃ first plan next,
        Session.start "job" calledAsShuffled .standard = .ok first
        ∧ first.planAll .empty = (.ok plan, next)
        ∧ ∃ node,
            (Step.forEach
                (LocalCluster.service.createLive ⟨0.75, [⟨0, "localhost", 8108, 8, 4096⟩]⟩)
                plan.intermediateSets ⟨next, .start, .empty⟩).1
              = .error (.storage "job:sums_aggregationData" node .exists) := by
  obtain ⟨first, plan, next, started, planned, keys⟩ := planAll_calledAsShuffled
  obtain ⟨-, names, sets⟩ := planAll_setNames started (Graph.named_ofLists _ _) planned
  refine ⟨first, plan, next, started, planned, ?_⟩
  rcases sets.creates ⟨0.75, [⟨0, "localhost", 8108, 8, 4096⟩]⟩ ⟨next, .start, .empty⟩ (by simp)
      (by simp) (fun _ _ _ => rfl) with ⟨-, free⟩ | ⟨⟨set, member, node, refused⟩, -⟩
  · have different := sets.different.mpr free
    rw [keys] at different
    simp at different
  · have key : set.key ∈ plan.intermediateSets.map SetId.key := List.mem_map_of_mem member
    rw [keys] at key
    have called : set.key = "job:sums_aggregationData" := by simpa using key
    exact ⟨node, called ▸ refused⟩

end Session

end DataflowPlan
