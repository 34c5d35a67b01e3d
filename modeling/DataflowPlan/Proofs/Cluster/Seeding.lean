import Mathlib.Algebra.BigOperators.Ring.List
import Mathlib.Algebra.Ring.Nat
import DataflowPlan.Proofs.Cluster.Holdings
import DataflowPlan.Proofs.Cluster.Sizes
import DataflowPlan.Simulation

/-! Stated sizes on a simulated cluster. The shares of all nodes add up to the whole pages of a set,
so that the cluster reports the cost of every set that the sizes state by themselves.
-/

namespace DataflowPlan

namespace SetSize

def key (s : SetSize) : String := setKey s.database s.name

/-- The bytes of the last of the entries under a key, none if there is no entry. -/
def lastBytes (sizes : List SetSize) (key : String) : Nat :=
  ((sizes.filter (·.key == key)).getLast?.map SetSize.bytes).getD 0

theorem lastBytes_concat (sizes : List SetSize) (s : SetSize) (key : String)
    : lastBytes (sizes ++ [s]) key = if key = s.key then s.bytes else lastBytes sizes key := by
  rw [lastBytes, List.filter_append]
  by_cases same : key = s.key
  · simp [same]
  · have differs : (s.key == key) = false := beq_eq_false_iff_ne.mpr (Ne.symm same)
    simp [same, differs, lastBytes]

/-- What one of the nodes reports of a set that is spread over them. -/
def part (s : SetSize) (nodes node : Nat) : SetReport where
  database := s.database
  name := s.name
  pages := LocalCluster.share (s.bytes / LocalCluster.statedPageSize) nodes node
  pageSize := LocalCluster.statedPageSize

end SetSize

-----------------------------------------------------------------------------------------------
-- Statistics
-----------------------------------------------------------------------------------------------

theorem Statistics.bytesAt_setBytes (stats : Statistics) (database name : String) (bytes : Nat)
    (key : String)
    : (stats.setBytes database name bytes).bytesAt key
        = if key = setKey database name then bytes else stats.bytesAt key := by
  unfold setBytes update bytesAt
  rw [Table.get?_insert]
  split <;> rfl

/-- The statistics of a job keep the last size of each set. -/
theorem Job.bytesAt_statistics (job : Job) (key : String)
    : job.statistics.bytesAt key = SetSize.lastBytes job.sizes key := by
  unfold Job.statistics
  induction job.sizes using List.reverseRecOn with
  | nil => rfl
  | append_singleton sizes s ih =>
      rw [List.foldl_append, List.foldl_cons, List.foldl_nil, Statistics.bytesAt_setBytes, ih,
        SetSize.lastBytes_concat, SetSize.key]

namespace LocalCluster

-----------------------------------------------------------------------------------------------
-- Shares
-----------------------------------------------------------------------------------------------

/-- The first nodes have the pages that every node has, and the first of those that are left. -/
theorem sum_share (pages nodes count : Nat)
    : ((List.range count).map (share pages nodes)).sum
        = count * (pages / nodes) + min count (pages % nodes) := by
  induction count with
  | zero => simp
  | succ count ih =>
      rw [List.range_succ, List.map_append, List.sum_append_nat, ih, List.map_singleton,
        List.sum_singleton, share, Nat.succ_mul]
      split <;> omega

/-- No page gets lost, and none is there twice. -/
theorem sum_shares {nodes : Nat} (some : 0 < nodes) (pages : Nat)
    : ((List.range nodes).map (share pages nodes)).sum = pages := by
  have rest := Nat.mod_lt pages some
  rw [sum_share, Nat.min_eq_right rest.le, Nat.div_add_mod]

-----------------------------------------------------------------------------------------------
-- Spreading
-----------------------------------------------------------------------------------------------

variable {c : LocalCluster} {n : Nat} {key : String} {nodes : Nat}

/-- What is spread replaces what the nodes had under the same key, and nothing else. -/
theorem report?_spread (c : LocalCluster) (nodes : Nat) (s : SetSize) (n : Nat) (key : String)
    : (c.spread nodes s).report? n key
        = if n < nodes ∧ key = s.key then some (s.part nodes n) else c.report? n key := by
  have first : ∀ count,
      ((List.range count).foldl
          (fun c node =>
            c.seed node s.database s.name (share (s.bytes / statedPageSize) nodes node)
              statedPageSize)
          c).report? n key
        = if n < count ∧ key = s.key then some (s.part nodes n) else c.report? n key := by
    intro count
    induction count with
    | zero => simp
    | succ count ih =>
        rw [List.range_succ, List.foldl_append, List.foldl_cons, List.foldl_nil, seed,
          report?_put, ih, ← SetSize.key]
        by_cases same : key = s.key
        · by_cases last : n = count
          · simp [same, last, SetSize.part]
          · have before : n < count + 1 ↔ n < count := by omega
            simp [same, last, before]
        · simp [same]
  exact first nodes

/-- Each set is held once and under its own key, and every node has statistics. -/
structure Reporting (c : LocalCluster) : Prop where
  keyed : c.Keyed
  answers : c.failStats = none

theorem Reporting.spread (reporting : c.Reporting) (nodes : Nat) (s : SetSize)
    : (c.spread nodes s).Reporting :=
  List.foldlRecOn (motive := Reporting) _ _ reporting fun _ earlier node _ =>
    ⟨earlier.keyed.seed node _ _ _ _, earlier.answers⟩

theorem reporting_ofSizes (sizes : List SetSize) (nodes : Nat)
    : (ofSizes sizes nodes).Reporting :=
  List.foldlRecOn (motive := Reporting) _ _ ⟨keyed_empty, rfl⟩ fun _ earlier s _ =>
    earlier.spread nodes s

theorem ofSizes_concat (sizes : List SetSize) (s : SetSize) (nodes : Nat)
    : ofSizes (sizes ++ [s]) nodes = (ofSizes sizes nodes).spread nodes s := by
  rw [ofSizes, List.foldl_append, List.foldl_cons, List.foldl_nil, ofSizes]

/-- Of the entries of one key the last one is what the nodes hold.
Witness: induction on the entries; a later one replaces the parts that an earlier one left.
-/
theorem bytesAt_ofSizes (sizes : List SetSize) {node : Nat} (inside : node < nodes) (key : String)
    : (ofSizes sizes nodes).bytesAt node key
        = share (SetSize.lastBytes sizes key / statedPageSize) nodes node * statedPageSize := by
  induction sizes using List.reverseRecOn with
  | nil => simp [ofSizes, bytesAt, report?, empty, SetSize.lastBytes, share]
  | append_singleton sizes s ih =>
      rw [ofSizes_concat, bytesAt, report?_spread, SetSize.lastBytes_concat]
      by_cases same : key = s.key
      · simp [inside, same, SetSize.part, SetReport.bytes]
      · rw [if_neg fun both => same both.2, if_neg same]
        exact ih

-----------------------------------------------------------------------------------------------
-- Costs
-----------------------------------------------------------------------------------------------

/-- Where no node keeps silent the cluster has statistics. -/
theorem Reporting.exists_refresh (reporting : c.Reporting) (cluster : ClusterConfig)
    : ∃ stats, service.refresh cluster c = (.ok stats, c) := by
  have added : ∀ (nodes : List ClusterNode) (before : Statistics),
      ∃ stats, addReports before (askAll collect nodes c).1 = .ok stats := by
    intro nodes
    induction nodes with
    | nil => exact fun before => ⟨before, rfl⟩
    | cons node rest ih =>
        intro before
        have answer : collect node c = (.ok (c.reports node.id), c) := by
          simp [collect, reporting.answers]
        rw [askAll, answer]
        exact ih _
  obtain ⟨stats, asked⟩ := added cluster.nodes .empty
  exact ⟨stats, Prod.ext asked (refresh_state cluster c)⟩

/-- The nodes report of every set the whole pages of its last entry. -/
theorem bytesAt_refresh_ofSizes (some : 0 < nodes) {cluster : ClusterConfig}
    (ids : (cluster.nodes.map ClusterNode.id).Perm (List.range nodes)) {sizes : List SetSize}
    {stats : Statistics} (asked : (service.refresh cluster (ofSizes sizes nodes)).1 = .ok stats)
    (key : String)
    : stats.bytesAt key = SetSize.lastBytes sizes key / statedPageSize * statedPageSize := by
  let held (node : Nat) : Nat := (ofSizes sizes nodes).bytesAt node key
  let pages := SetSize.lastBytes sizes key / statedPageSize
  calc stats.bytesAt key
      = cluster.nodes.foldr (fun node total => held node.id + total) 0 :=
        (reporting_ofSizes sizes nodes).keyed.bytesAt_refresh asked key
    _ = ((cluster.nodes.map ClusterNode.id).map held).sum := by
        rw [List.map_map, List.sum_eq_foldr, List.foldr_map]
        rfl
    _ = ((List.range nodes).map held).sum := (ids.map held).sum_nat
    _ = ((List.range nodes).map (share pages nodes · * statedPageSize)).sum :=
        congrArg List.sum <| List.map_congr_left fun node inside =>
          bytesAt_ofSizes sizes (List.mem_range.mp inside) key
    _ = pages * statedPageSize := by
        rw [List.sum_map_mul_right, sum_shares some]

end LocalCluster

/-- A page of a stated size costs as much as a megabyte. -/
theorem Statistics.cost_eq (stats : Statistics) (database name : String)
    : stats.cost database name
        = Float.ofNat (stats.bytesAt (setKey database name) / LocalCluster.statedPageSize) :=
  rfl

theorem Job.cost_statistics (job : Job) (database name : String)
    : job.statistics.cost database name
        = Float.ofNat (SetSize.lastBytes job.sizes (setKey database name) / 1000000) := by
  rw [Statistics.cost_eq, job.bytesAt_statistics, LocalCluster.statedPageSize]

/-- Nodes over which the stated sizes are spread report the costs that the job states. -/
theorem LocalCluster.exists_refresh_ofSizes (job : Job) {nodes : Nat} (some : 0 < nodes)
    {cluster : ClusterConfig}
    (ids : (cluster.nodes.map ClusterNode.id).Perm (List.range nodes))
    : ∃ stats,
        service.refresh cluster (ofSizes job.sizes nodes) = (.ok stats, ofSizes job.sizes nodes)
        ∧ ∀ database name, stats.cost database name = job.statistics.cost database name := by
  obtain ⟨stats, asked⟩ := (reporting_ofSizes job.sizes nodes).exists_refresh cluster
  refine ⟨stats, asked, fun database name => ?_⟩
  have whole := bytesAt_refresh_ofSizes some ids (congrArg Prod.fst asked) (setKey database name)
  rw [Statistics.cost_eq, Statistics.cost_eq, whole, Nat.mul_div_cancel _ (by decide),
    job.bytesAt_statistics]

end DataflowPlan
