import Mathlib.Data.List.Infix
import DataflowPlan.Proofs.Cluster.Executions

/-! What a node of a simulated cluster reports of a set: which requests leave it as it is, to one
node and to all of them.
-/

namespace DataflowPlan

namespace LocalCluster

variable {c : LocalCluster} {n : Nat} {key : String}

-----------------------------------------------------------------------------------------------
-- One node
-----------------------------------------------------------------------------------------------

theorem report?_drop (node : Nat) (dropped : String)
    : (c.drop node dropped).report? n key
        = if n = node ∧ key = dropped then none else c.report? n key := by
  rw [report?, drop, List.find?_filter]
  split
  · next same =>
      obtain ⟨rfl, rfl⟩ := same
      simp
  · next differs =>
      have only : ∀ entry : (Nat × String) × SetReport,
          ((entry.1 != (node, dropped)) = true ∧ (entry.1 == (n, key)) = true)
            ↔ (entry.1 == (n, key)) = true := by
        rintro ⟨place, report⟩
        rw [and_iff_right_iff_imp, beq_iff_eq]
        rintro rfl
        simpa using fun same other => differs ⟨same, other⟩
      simp only [only, Bool.decide_eq_true, report?]

theorem report?_put (node : Nat) (made : String) (report : SetReport)
    : (c.put node made report).report? n key
        = if n = node ∧ key = made then some report else c.report? n key := by
  have before := @report?_drop c n key node made
  rw [report?] at before ⊢
  rw [put, List.find?_append, Option.map_or, before]
  split
  · next same =>
      obtain ⟨rfl, rfl⟩ := same
      simp
  · next differs =>
      have other : (((node, made) : Nat × String) == (n, key)) = false := by
        simpa using fun same named => differs ⟨same.symm, named.symm⟩
      simp [other]

/-- A set is not made again where it is, and no other set in its place. -/
theorem report?_createSet {node : ClusterNode} {set : SetId}
    (spared : c.hasSet n key = true ∨ ¬ (n = node.id ∧ key = set.key))
    : (createSet node set c).2.report? n key = c.report? n key := by
  unfold createSet
  split
  · rfl
  · next free =>
      have differs : ¬ (n = node.id ∧ key = set.key) := by
        rcases spared with there | differs
        · rintro ⟨rfl, rfl⟩
          exact free there
        · exact differs
      exact (report?_put _ _ _).trans (if_neg differs)

theorem report?_removeSet (node : ClusterNode) (set : SetId)
    : (removeSet node set c).2.report? n key
        = if n = node.id ∧ key = set.key then none else c.report? n key :=
  report?_drop _ _

/-- A stage that a node runs leaves all sets alone that it does not write or drop there. -/
theorem report?_afterStage {node : Nat} {stage : Stage}
    (apart : n = node → ¬ stage.Writes key ∧ ¬ stage.Drops key)
    : (c.afterStage node stage).report? n key = c.report? n key := by
  have same
      : ∀ (c : LocalCluster) executed,
          ({ c with executed } : LocalCluster).report? n key = c.report? n key :=
    fun _ _ => rfl
  have written : ∀ sink, stage.sink? = some sink →
      (c.write node sink).report? n key = c.report? n key := by
    intro sink writes
    refine (report?_put _ _ _).trans (if_neg ?_)
    rintro ⟨here, rfl⟩
    exact (apart here).1 ⟨sink, writes, rfl⟩
  have dropped : ∀ (c : LocalCluster) set, consumed? stage = some set →
      (c.drop node set.key).report? n key = c.report? n key := by
    intro c set drops
    refine (report?_drop _ _).trans (if_neg ?_)
    rintro ⟨here, rfl⟩
    exact (apart here).2 ⟨set, drops, rfl⟩
  unfold afterStage
  rw [same]
  cases sink : stage.sink? with
  | none =>
      cases set : consumed? stage with
      | none => rfl
      | some set => exact dropped _ _ ‹_›
  | some sink =>
      cases set : consumed? stage with
      | none => exact written _ ‹_›
      | some set => exact (dropped _ _ ‹_›).trans (written _ ‹_›)

theorem ranOn_execute (node : ClusterNode) (stage : Stage) (c : LocalCluster)
    : c.ranOn n <+: (execute node stage c).2.ranOn n := by
  rcases execute_cases node stage c with carried | ⟨error, failed⟩
  · rw [carried, ranOn_afterStage]
    split
    · exact List.prefix_append _ _
    · exact List.prefix_refl _
  · rw [failed]

-----------------------------------------------------------------------------------------------
-- Since an earlier state
-----------------------------------------------------------------------------------------------

/-- No stage that the node has run since the cluster was as before writes a set of the key. -/
def Unwritten (before after : LocalCluster) (n : Nat) (key : String) : Prop :=
  ∀ stage ∈ (after.ranOn n).drop (before.ranOn n).length, ¬ stage.Writes key

theorem Unwritten.earlier {before mid after : LocalCluster}
    (unwritten : before.Unwritten after n key) (more : mid.ranOn n <+: after.ranOn n)
    : before.Unwritten mid n key := by
  obtain ⟨later, whole⟩ := more
  intro stage member
  refine unwritten stage ?_
  rw [← whole, List.drop_append]
  exact List.mem_append_left _ member

theorem Unwritten.later {before mid after : LocalCluster}
    (unwritten : before.Unwritten after n key) (more : before.ranOn n <+: mid.ranOn n)
    : mid.Unwritten after n key :=
  fun stage member => unwritten stage (List.drop_subset_drop_left _ more.length_le member)

/-- What the node has run since then goes on from what it had run, and what it holds under the key
is the same if no stage has written it.
-/
structure Spares (n : Nat) (key : String) (before after : LocalCluster) : Prop where
  more : before.ranOn n <+: after.ranOn n
  same : before.Unwritten after n key → after.report? n key = before.report? n key

theorem Spares.refl (c : LocalCluster) : Spares n key c c :=
  ⟨List.prefix_refl _, fun _ => rfl⟩

theorem Spares.trans {before mid after : LocalCluster} (first : Spares n key before mid)
    (second : Spares n key mid after)
    : Spares n key before after := by
  refine ⟨first.more.trans second.more, fun unwritten => ?_⟩
  rw [second.same (unwritten.later first.more), first.same (unwritten.earlier second.more)]

theorem spares_execute {node : ClusterNode} {stage : Stage}
    (keeps : n = node.id → ¬ stage.Drops key) (c : LocalCluster)
    : Spares n key c (execute node stage c).2 := by
  refine ⟨ranOn_execute node stage c, fun unwritten => ?_⟩
  rcases execute_cases node stage c with carried | ⟨error, failed⟩
  · rw [carried] at unwritten ⊢
    refine report?_afterStage fun here => ⟨unwritten stage ?_, keeps here⟩
    rw [ranOn_afterStage, if_pos here]
    simp
  · rw [failed]

-----------------------------------------------------------------------------------------------
-- All nodes
-----------------------------------------------------------------------------------------------

variable (cluster : ClusterConfig)

/-- Where a set is created everywhere, no node held one of its key. -/
theorem not_hasSet_of_createEverywhere {set : SetId}
    (ok : (service.createEverywhere cluster set c).1 = .ok ())
    (member : n ∈ cluster.nodes.map ClusterNode.id)
    : c.hasSet n set.key = false := by
  have asked : ∀ (nodes : List ClusterNode) (c : LocalCluster), n ∈ nodes.map ClusterNode.id →
      (∀ answer ∈ (askAll (createSet · set) nodes c).1, answer.2 = .ok ()) →
        c.hasSet n set.key = false := by
    intro nodes
    induction nodes with
    | nil => simp
    | cons node rest ih =>
        intro c member answers
        rw [askAll] at answers
        by_contra there
        rw [Bool.not_eq_false] at there
        by_cases here : n = node.id
        · have well := answers _ List.mem_cons_self
          rw [createSet, if_pos (here ▸ there)] at well
          simp at well
        · have later : n ∈ rest.map ClusterNode.id := by simpa [here] using member
          have none := ih _ later fun answer member =>
            answers answer (List.mem_cons_of_mem _ member)
          rw [Bool.eq_false_iff, ne_eq, hasSet_createSet] at none
          exact none (.inl there)
  exact asked cluster.nodes c member (firstError_eq_ok.mp ok)

/-- A set is not created because some node holds one of its key. -/
theorem createEverywhere_error {set : SetId} {error : ExecError}
    (fails : (service.createEverywhere cluster set c).1 = .error error)
    : ∃ node, error = .storage set.key node .exists := by
  have each : ∀ (node : ClusterNode) (c : LocalCluster) error,
      (createSet node set c).1 = .error error → error = .storage set.key node.id .exists := by
    intro node c error fails
    unfold createSet at fails
    split at fails
    · exact (Except.error.inj fails).symm
    · simp at fails
  obtain ⟨answer, member, cause, failed, rfl⟩ := firstError_eq_error fails
  exact askAll_forall (fun answer => ∀ error, answer = .error error →
      ∃ node, error = .storage set.key node .exists)
    (fun node c error fails => ⟨node.id, each node c error fails⟩) cluster.nodes c answer member
    _ failed

/-- Creating a set everywhere leaves a set alone that is there, and all sets of other keys. -/
theorem report?_createEverywhere {set : SetId}
    (spared
      : c.hasSet n key = true ∨ ¬ (n ∈ cluster.nodes.map ClusterNode.id ∧ key = set.key))
    : (service.createEverywhere cluster set c).2.report? n key = c.report? n key := by
  have keeps : ∀ node ∈ cluster.nodes, ∀ later : LocalCluster,
      later.report? n key = c.report? n key →
        (createSet node set later).2.report? n key = c.report? n key := by
    intro node member later same
    refine (report?_createSet ?_).trans same
    rcases spared with there | differs
    · rw [hasSet, ← same] at there
      exact .inl there
    · refine .inr fun both => differs ⟨?_, both.2⟩
      exact both.1 ▸ List.mem_map_of_mem member
  exact askAll_keeps keeps rfl

theorem report?_removeEverywhere (set : SetId)
    : (service.removeEverywhere cluster set c).2.report? n key
        = if n ∈ cluster.nodes.map ClusterNode.id ∧ key = set.key then none
          else c.report? n key := by
  have asked : ∀ (nodes : List ClusterNode) (c : LocalCluster),
      (askAll (removeSet · set) nodes c).2.report? n key
        = if n ∈ nodes.map ClusterNode.id ∧ key = set.key then none else c.report? n key := by
    intro nodes
    induction nodes with
    | nil => simp [askAll]
    | cons node rest ih =>
        intro c
        rw [askAll, ih, report?_removeSet, List.map_cons]
        grind
  exact asked cluster.nodes c

/-- Sending out a stage leaves a set alone that no node drops, unless a node writes it. -/
theorem spares_dispatch {stage : Stage}
    (keeps : n ∈ cluster.nodes.map ClusterNode.id → ¬ stage.Drops key) (c : LocalCluster)
    : Spares n key c (service.dispatch cluster stage c).2 := by
  have each : ∀ node ∈ cluster.nodes, ∀ later, Spares n key c later →
      Spares n key c (execute node (stage.specializeFor node cluster) later).2 := by
    intro node member later spares
    refine spares.trans (spares_execute (fun here drops => ?_) later)
    rw [Stage.drops_specializeFor] at drops
    exact keeps (here ▸ List.mem_map_of_mem member) drops
  exact askAll_keeps each (.refl c)

theorem ranOn_askAll (stage : Stage) (nodes : List ClusterNode) (c : LocalCluster)
    : c.ranOn n
        <+: (askAll (fun node => execute node (stage.specializeFor node cluster)) nodes c).2.ranOn
              n := by
  have each : ∀ node ∈ nodes, ∀ later, c.ranOn n <+: later.ranOn n →
      c.ranOn n <+: (execute node (stage.specializeFor node cluster) later).2.ranOn n :=
    fun node _ later more => more.trans (ranOn_execute node _ later)
  exact askAll_keeps each (List.prefix_refl _)

theorem ranOn_dispatch (stage : Stage) (c : LocalCluster)
    : c.ranOn n <+: (service.dispatch cluster stage c).2.ranOn n :=
  ranOn_askAll cluster stage cluster.nodes c

/-- A stage that all nodes carry out is written by each of them. -/
theorem not_unwritten_of_dispatch {stage : Stage}
    (ok : (service.dispatch cluster stage c).1 = .ok ())
    (member : n ∈ cluster.nodes.map ClusterNode.id) (writes : stage.Writes key)
    : ¬ c.Unwritten (service.dispatch cluster stage c).2 n key := by
  have asked : ∀ (nodes : List ClusterNode) (c : LocalCluster), n ∈ nodes.map ClusterNode.id →
      (∀ answer ∈
          (askAll (fun node => execute node (stage.specializeFor node cluster)) nodes c).1,
          answer.2 = .ok ()) →
        ¬ c.Unwritten
            (askAll (fun node => execute node (stage.specializeFor node cluster)) nodes c).2 n
            key := by
    intro nodes
    induction nodes with
    | nil => simp
    | cons node rest ih =>
        intro c member answers unwritten
        rw [askAll] at answers unwritten
        by_cases here : n = node.id
        · rcases execute_cases node (stage.specializeFor node cluster) c with
            carried | ⟨error, failed⟩
          · have first := unwritten.earlier (ranOn_askAll cluster stage rest _)
            refine first (stage.specializeFor node cluster) ?_ ?_
            · rw [carried, ranOn_afterStage, if_pos here]
              simp
            · simpa using writes
          · have well := answers _ List.mem_cons_self
            rw [failed] at well
            simp at well
        · have later : n ∈ rest.map ClusterNode.id := by simpa [here] using member
          exact ih _ later (fun answer member => answers answer (List.mem_cons_of_mem _ member))
            (unwritten.later (ranOn_execute node _ c))
  exact asked cluster.nodes c member (firstError_eq_ok.mp ok)

end LocalCluster

end DataflowPlan
