import DataflowPlan.Proofs.Cluster.Reports

/-! The sizes that statistics give. Every node of a simulated cluster reports each of its sets once,
so that statistics give a set the bytes that all nodes hold of it, added up.
-/

namespace DataflowPlan

namespace SetReport

/-- The key of the set that the report is about. -/
def key (report : SetReport) : String := setKey report.database report.name

def bytes (report : SetReport) : Nat := report.pages * report.pageSize

/-- The bytes of those of the reports that are about one key. -/
def bytesOf (key : String) (reports : List SetReport) : Nat :=
  (reports.filter (·.key == key)).foldr (fun report total => report.bytes + total) 0

theorem bytesOf_cons (key : String) (report : SetReport) (rest : List SetReport)
    : bytesOf key (report :: rest)
        = (if report.key = key then report.bytes else 0) + bytesOf key rest := by
  simp only [bytesOf, List.filter_cons, beq_iff_eq]
  split <;> simp

theorem bytesOf_perm {key : String} {one other : List SetReport} (perm : one.Perm other)
    : bytesOf key one = bytesOf key other := by
  refine (perm.filter _).foldr_eq' ?_ 0
  exact fun one _ other _ total => Nat.add_left_comm other.bytes one.bytes total

end SetReport

-----------------------------------------------------------------------------------------------
-- Statistics
-----------------------------------------------------------------------------------------------

namespace Statistics

/-- The bytes that are known under a key. -/
def bytesAt (stats : Statistics) (key : String) : Nat :=
  ((stats.sets.get? key).map SetStats.bytes).getD 0

theorem costOf_eq (stats : Statistics) (set : SetId)
    : stats.costOf set = Float.ofNat (stats.bytesAt set.key / 1000000) := rfl

theorem bytesAt_recordPages (stats : Statistics) (report : SetReport) (key : String)
    : (stats.recordPages report.database report.name report.pages report.pageSize).bytesAt key
        = stats.bytesAt key + if report.key = key then report.bytes else 0 := by
  unfold recordPages update bytesAt
  rw [Table.get?_insert]
  by_cases same : report.key = key
  · subst same
    have here : stats.get? report.database report.name = stats.sets.get? report.key := rfl
    have own : report.key = setKey report.database report.name := rfl
    rw [if_pos rfl, if_pos own, here]
    cases stats.sets.get? report.key <;> simp [SetStats.unknown, SetReport.bytes]
  · rw [if_neg same, if_neg (show key ≠ setKey report.database report.name from Ne.symm same),
      Nat.add_zero]

/-- Reports add the bytes that they have under a key. -/
theorem bytesAt_foldl (reports : List SetReport) (stats : Statistics) (key : String)
    : (reports.foldl (fun stats r => stats.recordPages r.database r.name r.pages r.pageSize)
          stats).bytesAt key
        = stats.bytesAt key + SetReport.bytesOf key reports := by
  induction reports generalizing stats with
  | nil => rfl
  | cons report rest ih =>
      rw [List.foldl_cons, ih, bytesAt_recordPages, SetReport.bytesOf_cons, Nat.add_assoc]

end Statistics

-----------------------------------------------------------------------------------------------
-- Clusters
-----------------------------------------------------------------------------------------------

namespace LocalCluster

/-- Each node holds a set once, and under the key that its report has. -/
structure Keyed (c : LocalCluster) : Prop where
  once : (c.sets.map Prod.fst).Nodup
  named : ∀ entry ∈ c.sets, entry.1.2 = entry.2.key

/-- The bytes that a node holds under a key. -/
def bytesAt (c : LocalCluster) (n : Nat) (key : String) : Nat :=
  ((c.report? n key).map SetReport.bytes).getD 0

variable {c : LocalCluster} {n : Nat} {key : String}

/-- What a node reports under a key is what it holds there.
Witness: induction on the sets; behind the one of the node and key there is none of both.
-/
theorem Keyed.bytesOf_reports (keyed : c.Keyed) (n : Nat) (key : String)
    : SetReport.bytesOf key (c.reports n) = c.bytesAt n key := by
  have held : ∀ sets : List ((Nat × String) × SetReport), (sets.map Prod.fst).Nodup →
      (∀ entry ∈ sets, entry.1.2 = entry.2.key) →
        SetReport.bytesOf key ((sets.filter (·.1.1 == n)).map Prod.snd)
          = (((sets.find? (·.1 == (n, key))).map Prod.snd).map SetReport.bytes).getD 0 := by
    intro sets once named
    induction sets with
    | nil => rfl
    | cons head rest ih =>
        obtain ⟨⟨node, own⟩, report⟩ := head
        obtain ⟨fresh, once⟩ := List.nodup_cons.mp once
        have same : own = report.key := named _ List.mem_cons_self
        have others := ih once fun entry member => named entry (List.mem_cons_of_mem _ member)
        by_cases here : node = n
        · subst here
          rw [List.filter_cons_of_pos (by simp), List.map_cons, SetReport.bytesOf_cons, others,
            ← same]
          by_cases about : own = key
          · subst about
            have none : rest.find? (·.1 == (node, own)) = none := by
              refine List.find?_eq_none.mpr fun entry member found => fresh ?_
              exact List.mem_map.mpr ⟨entry, member, beq_iff_eq.mp found⟩
            rw [none]
            simp
          · rw [if_neg about, Nat.zero_add, List.find?_cons_of_neg (by simpa using about)]
        · rw [List.filter_cons_of_neg (by simpa using here), others,
            List.find?_cons_of_neg (by simp [here])]
  exact (SetReport.bytesOf_perm (List.mergeSort_perm _ _)).trans (held _ keyed.once keyed.named)

/-- Statistics give a set the bytes that all nodes hold of it.
Witness: induction on the nodes that are asked.
-/
theorem Keyed.bytesAt_refresh (keyed : c.Keyed) {cluster : ClusterConfig} {stats : Statistics}
    (asked : (service.refresh cluster c).1 = .ok stats) (key : String)
    : stats.bytesAt key
        = cluster.nodes.foldr (fun node total => c.bytesAt node.id key + total) 0 := by
  have added : ∀ (nodes : List ClusterNode) (before : Statistics),
      addReports before (askAll collect nodes c).1 = .ok stats →
        stats.bytesAt key
          = before.bytesAt key
            + nodes.foldr (fun node total => c.bytesAt node.id key + total) 0 := by
    intro nodes
    induction nodes with
    | nil =>
        intro before asked
        obtain rfl := Except.ok.inj asked
        rfl
    | cons node rest ih =>
        intro before asked
        by_cases silent : (c.failStats == some node.id) = true
        · simp [askAll, collect, silent, addReports] at asked
        · have answer : collect node c = (.ok (c.reports node.id), c) := if_neg silent
          rw [askAll, answer] at asked
          rw [ih _ asked, Statistics.bytesAt_foldl, keyed.bytesOf_reports, List.foldr_cons,
            Nat.add_assoc]
  exact (added cluster.nodes .empty asked).trans (Nat.zero_add _)

-----------------------------------------------------------------------------------------------
-- Requests
-----------------------------------------------------------------------------------------------

theorem keyed_empty : empty.Keyed :=
  ⟨List.nodup_nil, by simp [empty]⟩

theorem Keyed.drop (keyed : c.Keyed) (node : Nat) (dropped : String)
    : (c.drop node dropped).Keyed :=
  ⟨keyed.once.sublist (List.filter_sublist.map _),
    fun entry member => keyed.named entry (List.mem_filter.mp member).1⟩

theorem Keyed.put (keyed : c.Keyed) (node : Nat) {report : SetReport} (same : key = report.key)
    : (c.put node key report).Keyed := by
  have others := keyed.drop node key
  refine ⟨?_, ?_⟩
  · rw [LocalCluster.put, List.map_append]
    refine List.nodup_append.mpr ⟨others.once, by simp, ?_⟩
    rintro place there _ made rfl
    obtain ⟨entry, member, rfl⟩ := List.mem_map.mp there
    have differs := (List.mem_filter.mp member).2
    rw [List.mem_singleton.mp made] at differs
    simp at differs
  · intro entry member
    rcases List.mem_append.mp member with before | made
    · exact others.named entry before
    · rw [List.mem_singleton.mp made, same]

theorem Keyed.seed (keyed : c.Keyed) (node : Nat) (database name : String) (pages pageSize : Nat)
    : (c.seed node database name pages pageSize).Keyed :=
  keyed.put node rfl

theorem Keyed.createSet (keyed : c.Keyed) (node : ClusterNode) (set : SetId)
    : (LocalCluster.createSet node set c).2.Keyed := by
  unfold LocalCluster.createSet
  split
  · exact keyed
  · have made : (c.put node.id set.key (blank set)).Keyed := keyed.put node.id rfl
    exact ⟨made.once, made.named⟩

theorem Keyed.removeSet (keyed : c.Keyed) (node : ClusterNode) (set : SetId)
    : (LocalCluster.removeSet node set c).2.Keyed :=
  ⟨(keyed.drop _ _).once, (keyed.drop _ _).named⟩

/-- A sink that is there keeps its key, and one that is not is made under its own. -/
theorem Keyed.write (keyed : c.Keyed) (node : Nat) (sink : SetId)
    : (c.write node sink).Keyed := by
  refine keyed.put node ?_
  cases held : c.report? node sink.key with
  | none => rfl
  | some report =>
      obtain ⟨⟨place, own⟩, found, rfl⟩ := Option.map_eq_some_iff.mp held
      have here : place = (node, sink.key) := by simpa using List.find?_some found
      have named := keyed.named _ (List.mem_of_find?_eq_some found)
      rw [here] at named
      exact named

theorem Keyed.execute (keyed : c.Keyed) (node : ClusterNode) (stage : Stage)
    : (LocalCluster.execute node stage c).2.Keyed := by
  rcases execute_cases node stage c with carried | ⟨error, failed⟩
  · rw [carried, afterStage]
    cases stage.sink? <;> cases consumed? stage
    · exact ⟨keyed.once, keyed.named⟩
    · exact ⟨(keyed.drop _ _).once, (keyed.drop _ _).named⟩
    · exact ⟨(keyed.write _ _).once, (keyed.write _ _).named⟩
    · exact ⟨((keyed.write _ _).drop _ _).once, ((keyed.write _ _).drop _ _).named⟩
  · rw [failed]
    exact keyed

-----------------------------------------------------------------------------------------------
-- Sets that no request is about
-----------------------------------------------------------------------------------------------

/-- Sets are held as reported, and those of the given keys as they were before. -/
structure Undisturbed (keys : List String) (before after : LocalCluster) : Prop where
  keyed : after.Keyed
  same : ∀ n key, key ∈ keys → after.report? n key = before.report? n key

namespace Undisturbed

variable {keys : List String} {before : LocalCluster} {set : SetId} {stage : Stage}
  (undisturbed : Undisturbed keys before c) (cluster : ClusterConfig)

include undisturbed

theorem createEverywhere (apart : set.key ∉ keys)
    : Undisturbed keys before (service.createEverywhere cluster set c).2 := by
  have each : ∀ node ∈ cluster.nodes, ∀ c, Undisturbed keys before c →
      Undisturbed keys before (createSet node set c).2 := by
    intro node _ c undisturbed
    refine ⟨undisturbed.keyed.createSet node set, fun n key member => ?_⟩
    have differs : ¬ (n = node.id ∧ key = set.key) := fun both => apart (both.2 ▸ member)
    rw [report?_createSet (.inr differs)]
    exact undisturbed.same n key member
  exact askAll_keeps each undisturbed

theorem removeEverywhere (apart : set.key ∉ keys)
    : Undisturbed keys before (service.removeEverywhere cluster set c).2 := by
  have each : ∀ node ∈ cluster.nodes, ∀ c, Undisturbed keys before c →
      Undisturbed keys before (removeSet node set c).2 := by
    intro node _ c undisturbed
    refine ⟨undisturbed.keyed.removeSet node set, fun n key member => ?_⟩
    have differs : ¬ (n = node.id ∧ key = set.key) := fun both => apart (both.2 ▸ member)
    rw [report?_removeSet, if_neg differs]
    exact undisturbed.same n key member
  exact askAll_keeps each undisturbed

theorem dispatch (apart : ∀ key ∈ keys, ¬ stage.Writes key ∧ ¬ stage.Drops key)
    : Undisturbed keys before (service.dispatch cluster stage c).2 := by
  have each : ∀ node ∈ cluster.nodes, ∀ c, Undisturbed keys before c →
      Undisturbed keys before (execute node (stage.specializeFor node cluster) c).2 := by
    intro node _ c undisturbed
    refine ⟨undisturbed.keyed.execute _ _, fun n key member => ?_⟩
    rcases execute_cases node (stage.specializeFor node cluster) c with
      carried | ⟨error, failed⟩
    · rw [carried, report?_afterStage fun _ => by simpa using apart key member]
      exact undisturbed.same n key member
    · rw [failed]
      exact undisturbed.same n key member
  exact askAll_keeps each undisturbed

/-- Statistics give the sets of the keys the costs that they gave them before. -/
theorem costOf_refresh {stats other : Statistics}
    (keyed : before.Keyed) (asked : (service.refresh cluster before).1 = .ok stats)
    (again : (service.refresh cluster c).1 = .ok other) (member : set.key ∈ keys)
    : other.costOf set = stats.costOf set := by
  have same : ∀ n, c.bytesAt n set.key = before.bytesAt n set.key := fun n => by
    rw [bytesAt, bytesAt, undisturbed.same n set.key member]
  rw [Statistics.costOf_eq, Statistics.costOf_eq, keyed.bytesAt_refresh asked,
    undisturbed.keyed.bytesAt_refresh again]
  simp only [same]

end Undisturbed

end LocalCluster

end DataflowPlan
