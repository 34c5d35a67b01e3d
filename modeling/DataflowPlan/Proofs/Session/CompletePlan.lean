import DataflowPlan.Proofs.Analysis.Accounting
import DataflowPlan.Proofs.Session.OwnSets
import Mathlib.Algebra.BigOperators.Group.List.Basic
import Mathlib.Algebra.GroupWithZero.Nat

/-! Complete plans. If no live source is lost, planning all follows every edge, so that the
account of each atomic is closed: its stages are known exactly, and the plan has no others.
-/

namespace DataflowPlan

/-- Nothing reads what the atomic makes. -/
def Graph.isUnread (g : Graph) (a : Atomic) : Bool :=
  (g.consumersOf a.output).isEmpty

/-- Several atomics read what the atomic makes. -/
def Graph.isShared (g : Graph) (a : Atomic) : Bool :=
  decide (2 ≤ (g.consumersOf a.output).length)

/-- The stages of an atomic in a complete plan. A join can be carried out on data that is split by
key.
-/
def Graph.stageCount (g : Graph) (split : Bool) (a : Atomic) : Nat :=
  match a.kind with
  | .scan => 0
  | .other => if g.isUnread a || g.isShared a then 1 else 0
  | .partition => 1
  | .aggregate => 2
  | .joinSets => 2 + (if g.isShared a then 1 else 0) + if split then 1 else 0

namespace Account

variable {g : Graph} {a : Atomic} {strategy : Option JoinStrategy} {count : Nat}
  {stages : List Stage} (account : Account g a strategy count stages)
  (closed : count = a.kind.arity)

include account closed

theorem closed_output (other : a.kind = .other) (unread : g.isUnread a = true)
    : ∃ c stage,
        g.computation a.computation = .ok c
        ∧ c.sinkSet = .ok stage.sink
        ∧ stages = [.tupleSet stage] := by
  rw [Graph.isUnread, List.isEmpty_iff] at unread
  rw [other] at closed
  cases account with
  | untouched => simp [AtomicKind.arity] at closed
  | output kind none found sink => exact ⟨_, _, found, sink, rfl⟩
  | passed kind single => simp [unread] at single
  | materialized kind shared => simp [unread] at shared
  | aggregated kind | partitioned kind | built kind | joined kind => simp [other] at kind

theorem closed_shared (other : a.kind = .other) (shared : g.isShared a = true)
    : ∃ stage, stages = [.tupleSet stage] := by
  rw [Graph.isShared, decide_eq_true_eq] at shared
  rw [other] at closed
  cases account with
  | untouched => simp [AtomicKind.arity] at closed
  | output kind unread => simp [unread] at shared
  | passed kind single => omega
  | materialized kind => exact ⟨_, rfl⟩
  | aggregated kind | partitioned kind | built kind | joined kind => simp [other] at kind

theorem closed_passed (other : a.kind = .other) (unread : g.isUnread a = false)
    (shared : g.isShared a = false)
    : stages = [] := by
  rw [Graph.isUnread, List.isEmpty_eq_false_iff] at unread
  rw [Graph.isShared, decide_eq_false_iff_not] at shared
  cases account with
  | untouched => rfl
  | output kind none => exact absurd none unread
  | passed kind => rfl
  | materialized kind read => exact absurd read shared
  | aggregated kind | partitioned kind | built kind | joined kind => simp [other] at kind

theorem closed_aggregate (aggregate : a.kind = .aggregate)
    : ∃ shuffle merge, stages = [.tupleSet shuffle, .aggregation merge] := by
  rw [aggregate] at closed
  cases account with
  | untouched => simp [AtomicKind.arity] at closed
  | aggregated kind => exact ⟨_, _, rfl⟩
  | output kind | passed kind | materialized kind | partitioned kind | built kind
  | joined kind => simp [aggregate] at kind

theorem closed_partition (partition : a.kind = .partition)
    : ∃ stage, stage.repartitionVector = true ∧ stages = [.tupleSet stage] := by
  rw [partition] at closed
  cases account with
  | untouched => simp [AtomicKind.arity] at closed
  | partitioned kind vector => exact ⟨_, vector, rfl⟩
  | output kind | passed kind | materialized kind | aggregated kind | built kind
  | joined kind => simp [partition] at kind

theorem closed_join (join : a.kind = .joinSets)
    : ∃ started stage build split gathered,
        strategy = some started
        ∧ build.isBuild = true
        ∧ View.Splits started split
        ∧ Gathers (g.consumersOf a.output).length gathered
        ∧ stages = .tupleSet stage :: build :: (split ++ gathered) := by
  rw [join] at closed
  cases account with
  | untouched | built => simp [AtomicKind.arity] at closed
  | joined kind builds partitioned splits gathers =>
      exact ⟨_, _, _, _, _, rfl, builds, splits, gathers, rfl⟩
  | output kind | passed kind | materialized kind | aggregated kind | partitioned kind =>
      simp [join] at kind

theorem closed_builds (join : a.kind = .joinSets)
    : stages.countP (·.isBuild) = 1 := by
  obtain ⟨started, stage, build, split, gathered, rfl, builds, splits, gathers, rfl⟩ :=
    account.closed_join closed join
  have noneSplit : split.countP (·.isBuild) = 0 := by
    cases started with
    | broadcast => simp [show split = [] from splits]
    | hashPartitioned =>
        obtain ⟨extra, rfl⟩ := splits
        rfl
  have noneGathered : gathered.countP (·.isBuild) = 0 := by
    unfold Gathers at gathers
    split at gathers
    · obtain ⟨extra, rfl⟩ := gathers
      rfl
    · rw [gathers, List.countP_nil]
  have first : (Stage.tupleSet stage).isBuild = false := rfl
  simp [first, builds, noneSplit, noneGathered]

theorem closed_scan (scan : a.kind = .scan)
    : stages = [] := by
  rw [scan] at closed
  exact account.eq_nil closed

/-- A closed account has as many stages as the atomic asks for. -/
theorem length_of_closed
    : stages.length = g.stageCount (decide (strategy = some .hashPartitioned)) a := by
  unfold Graph.stageCount
  cases kind : a.kind with
  | scan => simp [account.closed_scan closed kind]
  | other =>
      cases unread : g.isUnread a with
      | true =>
          obtain ⟨c, stage, -, -, rfl⟩ := account.closed_output closed kind unread
          simp
      | false =>
          cases shared : g.isShared a with
          | true =>
              obtain ⟨stage, rfl⟩ := account.closed_shared closed kind shared
              simp
          | false => simp [account.closed_passed closed kind unread shared]
  | partition =>
      obtain ⟨stage, -, rfl⟩ := account.closed_partition closed kind
      simp
  | aggregate =>
      obtain ⟨shuffle, merge, rfl⟩ := account.closed_aggregate closed kind
      simp
  | joinSets =>
      obtain ⟨started, stage, build, split, gathered, rfl, -, splits, gathers, rfl⟩ :=
        account.closed_join closed kind
      have splitLength : split.length = if started = .hashPartitioned then 1 else 0 := by
        cases started with
        | broadcast => simp [show split = [] from splits]
        | hashPartitioned =>
            obtain ⟨extra, rfl⟩ := splits
            simp
      have gatheredLength : gathered.length = if g.isShared a then 1 else 0 := by
        unfold Gathers at gathers
        split at gathers
        · next shared =>
            obtain ⟨extra, rfl⟩ := gathers
            simp [Graph.isShared, shared]
        · next few => simp [gathers, Graph.isShared, few]
      simp only [List.length_cons, List.length_append, splitLength, gatheredLength,
        Option.some.injEq, decide_eq_true_eq]
      omega

end Account

/-- Stages that are all for some of different names are as many as those for each of them. -/
theorem Stage.length_eq_sum {names : List String} (distinct : names.Nodup) {stages : List Stage}
    (known : ∀ stage ∈ stages, stage.computation ∈ names)
    : stages.length = (names.map fun name => (stages.filter (·.isFor name)).length).sum := by
  induction stages with
  | nil => simp
  | cons head rest ih =>
      have later := ih fun stage member => known stage (List.mem_cons_of_mem head member)
      have own : (names.map fun name => if head.isFor name then 1 else 0).sum = 1 := by
        rw [List.sum_map_eq_nsmul_single head.computation,
          List.count_eq_one_of_mem distinct (known head List.mem_cons_self)]
        · simp [Stage.isFor]
        · intro name differs _
          simp [Stage.isFor, differs.symm]
      have each : ∀ name, ((head :: rest).filter (·.isFor name)).length
          = (rest.filter (·.isFor name)).length + if head.isFor name then 1 else 0 := by
        intro name
        rw [← List.countP_eq_length_filter, ← List.countP_eq_length_filter, List.countP_cons]
      simp only [each, List.sum_map_add, ← later, own, List.length_cons]

/-- The stages that atomics ask for, summed up by their kinds. -/
theorem Graph.sum_stageCount (g : Graph) (split : Atomic → Bool) (atomics : List Atomic)
    : (atomics.map fun a => g.stageCount (split a) a).sum
        = atomics.countP (fun a => a.kind == .other && g.isUnread a)
          + atomics.countP (fun a => a.kind == .other && g.isShared a)
          + atomics.countP (fun a => a.kind == .joinSets && g.isShared a)
          + atomics.countP (·.kind == .partition)
          + 2 * atomics.countP (·.kind == .aggregate)
          + 2 * atomics.countP (·.kind == .joinSets)
          + atomics.countP (fun a => a.kind == .joinSets && split a) := by
  induction atomics with
  | nil => rfl
  | cons head rest ih =>
      have apart : g.isUnread head = true → g.isShared head = false := by
        intro unread
        rw [Graph.isUnread, List.isEmpty_iff] at unread
        simp [Graph.isShared, unread]
      rw [List.map_cons, List.sum_cons, ih, Graph.stageCount]
      simp only [List.countP_cons]
      cases kind : head.kind with
      | scan => simp
      | other =>
          cases unread : g.isUnread head with
          | true =>
              simp [apart unread]
              omega
          | false =>
              cases shared : g.isShared head with
              | true =>
                  simp
                  omega
              | false => simp
      | partition | aggregate =>
          simp
          omega
      | joinSets =>
          cases g.isShared head <;> cases split head <;> simp <;> omega

namespace Session

/-- The join that makes the atomic's output is carried out on data that is split by key. -/
def splits (s : Session) (a : Atomic) : Bool :=
  match s.join? a.output with
  | some (.started .hashPartitioned _) => true
  | _ => false

/-- What the stages of a whole graph are, atomic by atomic and altogether. -/
structure Accounts (g : Graph) (s : Session) (stages : List Stage) : Prop where
  outputs
    : ∀ a ∈ g.atomics,
        a.kind = .other →
          g.isUnread a = true →
            ∃ c stage,
              g.computation a.computation = .ok c
              ∧ c.set? = some stage.sink
              ∧ stages.filter (·.isFor a.computation) = [.tupleSet stage]
  shared
    : ∀ a ∈ g.atomics,
        a.kind = .other →
          g.isShared a = true →
            ∃ stage, stages.filter (·.isFor a.computation) = [.tupleSet stage]
  aggregates
    : ∀ a ∈ g.atomics,
        a.kind = .aggregate →
          stages.countP (fun stage => stage.isAggregation && stage.isFor a.computation) = 1
  partitions
    : ∀ a ∈ g.atomics,
        a.kind = .partition →
          stages.countP (fun stage => stage.isVector && stage.isFor a.computation) = 1
  builds
    : ∀ a ∈ g.atomics,
        a.kind = .joinSets →
          stages.countP (fun stage => stage.isBuild && stage.isFor a.computation) = 1
  probes
    : ∀ a ∈ g.atomics, a.kind = .joinSets → stages.countP (·.probesJoin a.output) = 1
  total
    : stages.length
        = g.atomics.countP (fun a => a.kind == .other && g.isUnread a)
          + g.atomics.countP (fun a => a.kind == .other && g.isShared a)
          + g.atomics.countP (fun a => a.kind == .joinSets && g.isShared a)
          + g.atomics.countP (·.kind == .partition)
          + 2 * g.atomics.countP (·.kind == .aggregate)
          + 2 * g.atomics.countP (·.kind == .joinSets)
          + g.atomics.countP (fun a => a.kind == .joinSets && s.splits a)

variable {g : Graph} {first s : Session} {followed : List Arena.Edge} {stages : List Stage}

theorem splits_eq (wired : Arena.Wired g s.topology.arena) {p : NodeId}
    (inside : s.topology.arena.Has p)
    : s.splits (s.node p).atomic = decide ((s.node p).strategy? = some .hashPartitioned) := by
  have found : s.topology.arena.lookup (s.node p).atomic.output = some p :=
    wired.sound.lookup_eq_some_iff.mpr ⟨inside, rfl⟩
  rw [splits, join?, found, Option.bind_some, PhysicalNode.join?, PhysicalNode.strategy?]
  cases (s.node p).kind with
  | pipeline | aggregation | partition => rfl
  | join state =>
      cases state with
      | notStarted => rfl
      | started strategy hashSet => cases strategy <;> rfl

/-- Closed accounts say what all stages are.
Witness: each atomic has a node, whose account tells the stages of its computation.
-/
theorem accounts_of_closed (wired : Arena.Wired g s.topology.arena)
    (distinct : (g.atomics.map Atomic.computation).Nodup)
    (accounted : Accounted g s.topology followed stages)
    (closed
      : ∀ p,
          s.topology.arena.Has p →
            Arena.incoming followed p = (s.node p).atomic.kind.arity)
    : Accounts g s stages := by
  refine ⟨?_, ?_, ?_, ?_, ?_, ?_, ?_⟩
  · intro a member other unread
    obtain ⟨p, inside, rfl⟩ := wired.covers a member
    obtain ⟨c, stage, found, sink, only⟩ :=
      (accounted.accounts p inside).closed_output (closed p inside) other unread
    exact ⟨c, stage, found, Computation.set?_of_sinkSet sink, only⟩
  · intro a member other shared
    obtain ⟨p, inside, rfl⟩ := wired.covers a member
    exact (accounted.accounts p inside).closed_shared (closed p inside) other shared
  · intro a member aggregate
    obtain ⟨p, inside, rfl⟩ := wired.covers a member
    obtain ⟨shuffle, merge, only⟩ :=
      (accounted.accounts p inside).closed_aggregate (closed p inside) aggregate
    rw [← List.countP_filter, only]
    rfl
  · intro a member partition
    obtain ⟨p, inside, rfl⟩ := wired.covers a member
    obtain ⟨stage, vector, only⟩ :=
      (accounted.accounts p inside).closed_partition (closed p inside) partition
    rw [← List.countP_filter, only]
    simp [Stage.isVector, vector]
  · intro a member join
    obtain ⟨p, inside, rfl⟩ := wired.covers a member
    rw [← List.countP_filter]
    exact (accounted.accounts p inside).closed_builds (closed p inside) join
  · intro a member join
    obtain ⟨p, inside, rfl⟩ := wired.covers a member
    have both := closed p inside
    rw [show (s.node p).atomic.kind = _ from join] at both
    have counted := accounted.probes p inside join
    rw [both] at counted
    exact counted
  · have each : ∀ a ∈ g.atomics,
        (stages.filter (·.isFor a.computation)).length = g.stageCount (s.splits a) a := by
      intro a member
      obtain ⟨p, inside, rfl⟩ := wired.covers a member
      have split := splits_eq wired inside
      rw [show s.splits (s.topology.arena.node p).atomic = _ from split]
      exact (accounted.accounts p inside).length_of_closed (closed p inside)
    rw [Stage.length_eq_sum distinct accounted.known, List.map_map, ← Graph.sum_stageCount]
    exact congrArg List.sum (List.map_congr_left each)

/-- In every session that a run leads to, the stages planned so far are accounted for. -/
theorem steady_accounted (g : Graph) (first : Session)
    (distinct : (g.atomics.map Atomic.computation).Nodup)
    (single : ∀ a ∈ g.atomics, a.kind = .other → ∃ input, a.ReadsOnly input)
    : Steady fun out s =>
        ∃ followed,
          ReachesNamed g first s followed ∧ Accounted g s.topology followed out.stages := by
  refine steady_of_named (P := fun followed out s => Accounted g s.topology followed out.stages)
    ?_ (fun accounted _ source => accounted.rotate source) (fun accounted => accounted)
  intro followed out s stats skip key source reached segment init last set inner reaches accounted
    done course pipeline whole
  rw [topology_commit]
  exact Accounted.planned (v := s.view stats) reaches.wired reaches.ledger course single
    accounted reaches.named distinct pipeline whole

/-- Once every edge is followed, as many came in to each node as its atomic reads tuple sets. -/
theorem Reaches.closed (reaches : Reaches g first s followed)
    (single : ∀ a ∈ g.atomics, a.kind = .other → ∃ input, a.ReadsOnly input)
    (all : ∀ q, ∀ c ∈ (s.node q).consumers, (q, c) ∈ followed) {p : NodeId}
    (inside : s.topology.arena.Has p)
    : Arena.incoming followed p = (s.node p).atomic.kind.arity := by
  have wired := reaches.wired
  obtain ⟨reads, distinct, same, arity⟩ := exists_reads wired.valid single (wired.known p inside)
  have most := Arena.incoming_le wired reaches.ledger p fun input => (same input).mpr
  have least := Arena.le_incoming wired p inside all distinct fun input => (same input).mp
  rw [node, ← arity]
  omega

/-- A plan of a whole graph has exactly the stages that its atomics ask for, if computations are
filed under their own names.
Witness: no live source is lost, so that every edge is followed in the end and all accounts are
closed.
-/
theorem planAll_accounts {jobId : String} {config : PlannerConfig} {first next : Session}
    {stats : Statistics} {plan : Plan} (started : Session.start jobId g config = .ok first)
    (named : g.Named) (distinct : (g.atomics.map Atomic.computation).Nodup)
    (single : ∀ a ∈ g.atomics, a.kind = .other → ∃ input, a.ReadsOnly input)
    (keys : (g.atomics.flatMap (g.sourceKeys jobId)).Nodup)
    (planned : first.planAll stats = (.ok plan, next))
    : Accounts g next plan.stages := by
  obtain ⟨beginning, rfl, -⟩ := beginning_of_start started
  obtain ⟨idle, calls, ran, -⟩ := planAll_eq_ok planned
  have registered := beginning.registered_of_keys named distinct keys calls
  obtain ⟨followed, reaches, accounted⟩ := (steady_accounted _ first distinct single).run
    ⟨[], beginning.reachesNamed named, beginning.mirrors.accounted beginning.graph⟩ calls
  rw [ran] at registered reaches accounted
  have unwanted : ∀ p, (next.node p).sourceSet ≠ none → (next.node p).active = [] := by
    intro p isSource
    by_contra waiting
    exact registered.none_wanted idle p ⟨isSource, waiting⟩
  have all := reaches.ledger.all_followed reaches.wired unwanted
  exact accounts_of_closed reaches.wired distinct accounted fun p inside =>
    reaches.closed single all inside

theorem planJob_eq_ok {jobId : String} {g : Graph} {config : PlannerConfig} {stats : Statistics}
    {plan : Plan} (planned : planJob jobId g config stats = .ok plan)
    : ∃ first next,
        Session.start jobId g config = .ok first ∧ first.planAll stats = (.ok plan, next) := by
  rw [planJob, Except.bind_eq_ok] at planned
  obtain ⟨first, started, planned⟩ := planned
  exact ⟨first, (first.planAll stats).2, started, Prod.ext planned rfl⟩

/-- A job with an atomic of each kind, and with several readers for a join and for a step. -/
def everyKind : Graph :=
  .ofLists
    [.scan "scan_l" "db" "left", .scan "scan_r" "db" "right", .ofKind "join" .join,
      .ofKind "clean" .selection, .ofKind "sum" .aggregation, .ofKind "spread" .partition,
      (Computation.ofKind "write_all" .write).setOutput "db" "all",
      (Computation.ofKind "write_sums" .write).setOutput "db" "sums",
      (Computation.ofKind "write_parts" .write).setOutput "db" "parts"]
    [.scan "l" "scan_l", .scan "r" "scan_r", .join "both" "l" "r" "join",
      .apply "cleaned" "both" "clean", .aggregate "sums" "cleaned" "sum",
      .partition "parts" "cleaned" "spread", .apply "out_all" "both" "write_all",
      .apply "out_sums" "sums" "write_sums", .apply "out_parts" "parts" "write_parts"]

theorem everyKind_readsOnly
    : ∀ a ∈ everyKind.atomics, a.kind = .other → ∃ input, a.ReadsOnly input :=
  Graph.readsOnly_of_length (by decide)

theorem everyKind_accounts
    : ∃ first plan next,
        Session.start "job" everyKind .standard = .ok first
        ∧ first.planAll .empty = (.ok plan, next)
        ∧ Accounts everyKind next plan.stages := by
  have plans : (planJob "job" everyKind .standard .empty).isOk = true := by decide +kernel
  obtain ⟨plan, outcome⟩ := Except.isOk_iff.mp plans
  obtain ⟨first, next, started, planned⟩ := planJob_eq_ok outcome
  exact ⟨first, plan, next, started, planned,
    planAll_accounts started (Graph.named_ofLists _ _) (by decide) everyKind_readsOnly
      (by decide +kernel) planned⟩

/-- A set is written by a computation that calls itself otherwise than it is filed. -/
def renamedWrite : Graph :=
  .renamed
    (.ofLists
      [.scan "scan" "db" "in", (Computation.ofKind "write" .write).setOutput "db" "out"]
      [.scan "in" "scan", .apply "out" "in" "write"])
    "write" "writeX"

/-- The only stage of this job goes by the name that the computation calls itself, so that none is
accounted for under the name that the atomic gives.
-/
theorem renamedWrite_unaccounted
    : ∃ first plan next,
        Session.start "job" renamedWrite .standard = .ok first
        ∧ (renamedWrite.atomics.map Atomic.computation).Nodup
        ∧ (∀ a ∈ renamedWrite.atomics, a.kind = .other → ∃ input, a.ReadsOnly input)
        ∧ (renamedWrite.atomics.flatMap (renamedWrite.sourceKeys "job")).Nodup
        ∧ first.planAll .empty = (.ok plan, next)
        ∧ plan.stages.map Stage.computation = ["writeX"]
        ∧ ¬ Accounts renamedWrite next plan.stages := by
  have planned : (planJob "job" renamedWrite .standard .empty).toOption.map
      (fun plan => plan.stages.map Stage.computation) = some ["writeX"] := by
    decide +kernel
  obtain ⟨plan, outcome, planned⟩ := Except.toOption_map_eq_some_iff.mp planned
  obtain ⟨first, next, started, whole⟩ := planJob_eq_ok outcome
  refine ⟨first, plan, next, started, by decide, Graph.readsOnly_of_length (by decide),
    by decide +kernel, whole, planned, fun accounts => ?_⟩
  obtain ⟨c, stage, -, -, only⟩ :=
    accounts.outputs (.apply "out" "in" "write") (by decide) rfl (by decide)
  have listed : Stage.tupleSet stage ∈ plan.stages.filter (·.isFor "write") := by
    rw [show plan.stages.filter (·.isFor "write") = _ from only]
    exact List.mem_singleton.mpr rfl
  obtain ⟨member, target⟩ := List.mem_filter.mp listed
  have own : (Stage.tupleSet stage).computation ∈ plan.stages.map Stage.computation :=
    List.mem_map_of_mem member
  rw [planned, List.mem_singleton] at own
  simp [Stage.isFor, own] at target

end Session

end DataflowPlan
