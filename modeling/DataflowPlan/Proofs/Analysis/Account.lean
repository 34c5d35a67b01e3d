import DataflowPlan.Proofs.Analysis.Ledger
import DataflowPlan.Proofs.Analysis.Visits

/-! Accounts: the stages that were planned for one node, by how many of the edges to it were
followed. A planned pipeline adds one visit to the account of each node that it comes to.
-/

namespace DataflowPlan

namespace Arena

/-- How many edges to the node were followed. -/
def incoming (followed : List Edge) (p : NodeId) : Nat :=
  (followed.map Prod.snd).count p

theorem map_snd_links (first : NodeId) (path : List NodeId)
    : (links (first :: path)).map Prod.snd = path := by
  induction path generalizing first with
  | nil => rfl
  | cons second rest ih => simp [links, ih]

theorem incoming_append (followed : List Edge) (first : NodeId) (path : List NodeId)
    (p : NodeId)
    : incoming (followed ++ links (first :: path)) p = incoming followed p + path.count p := by
  rw [incoming, List.map_append, map_snd_links, List.count_append, incoming]

variable {g : Graph} {arena : Arena} {followed : List Edge} (wired : Wired g arena)
  (ledger : arena.Ledger followed) (p : NodeId)

theorem incoming_eq_length (arena : Arena) (followed : List Edge) (p : NodeId)
    : incoming followed p
        = ((followed.filter (·.2 == p)).map fun e => (arena.node e.1).output).length := by
  rw [incoming, List.count_eq_countP, List.countP_map, List.countP_eq_length_filter,
    List.length_map]
  rfl

include wired ledger

theorem incoming_outputs_nodup
    : ((followed.filter (·.2 == p)).map fun e => (arena.node e.1).output).Nodup := by
  refine List.Nodup.map_on ?_ (ledger.unique.filter _)
  intro e left f right same
  obtain ⟨come, toNode⟩ := List.mem_filter.mp left
  obtain ⟨come', toNode'⟩ := List.mem_filter.mp right
  have start := wired.sound.id_eq (has_of_edge (ledger.edges e come))
    (has_of_edge (ledger.edges f come')) same
  have finish : e.2 = f.2 := (beq_iff_eq.mp toNode).trans (beq_iff_eq.mp toNode').symm
  exact Prod.ext start finish

/-- No more edges to a node are followed than it reads tuple sets. -/
theorem incoming_le {reads : List String}
    (covers : ∀ input ∈ (arena.node p).atomic.inputs, input ∈ reads)
    : incoming followed p ≤ reads.length := by
  rw [incoming_eq_length arena]
  refine (incoming_outputs_nodup wired ledger p).length_le_of_subset ?_
  intro output member
  obtain ⟨e, inFilter, rfl⟩ := List.mem_map.mp member
  obtain ⟨come, toNode⟩ := List.mem_filter.mp inFilter
  obtain rfl := beq_iff_eq.mp toNode
  exact covers _ (wired.read_of_edge (ledger.edges e come))

/-- Fewer edges are followed than the node reads tuple sets while one of them is not. -/
theorem incoming_lt {reads : List String}
    (covers : ∀ input ∈ (arena.node p).atomic.inputs, input ∈ reads) {q : NodeId}
    (edge : p ∈ (arena.node q).consumers) (fresh : (q, p) ∉ followed)
    : incoming followed p < reads.length := by
  rw [incoming_eq_length arena]
  have distinct : ((arena.node q).output
      :: (followed.filter (·.2 == p)).map fun e => (arena.node e.1).output).Nodup := by
    refine List.nodup_cons.mpr ⟨?_, incoming_outputs_nodup wired ledger p⟩
    intro again
    obtain ⟨e, inFilter, same⟩ := List.mem_map.mp again
    obtain ⟨come, toNode⟩ := List.mem_filter.mp inFilter
    obtain rfl := beq_iff_eq.mp toNode
    have start := wired.sound.id_eq (has_of_edge (ledger.edges e come)) (has_of_edge edge) same
    exact fresh (start ▸ come)
  refine distinct.length_le_of_subset (List.cons_subset.mpr ⟨?_, ?_⟩)
  · exact covers _ (wired.read_of_edge edge)
  · intro output member
    obtain ⟨e, inFilter, rfl⟩ := List.mem_map.mp member
    obtain ⟨come, toNode⟩ := List.mem_filter.mp inFilter
    obtain rfl := beq_iff_eq.mp toNode
    exact covers _ (wired.read_of_edge (ledger.edges e come))

omit ledger in
/-- Once all edges are followed, as many came in as the node reads tuple sets. -/
theorem le_incoming (inside : arena.Has p)
    (all : ∀ q, ∀ c ∈ (arena.node q).consumers, (q, c) ∈ followed) {reads : List String}
    (distinct : reads.Nodup)
    (among : ∀ input ∈ reads, input ∈ (arena.node p).atomic.inputs)
    : reads.length ≤ incoming followed p := by
  rw [incoming_eq_length arena]
  refine distinct.length_le_of_subset ?_
  intro input read
  obtain ⟨q, edge, rfl⟩ := wired.exists_producer inside (among input read)
  exact List.mem_map.mpr ⟨(q, p), List.mem_filter.mpr ⟨all q p edge, by simp⟩, rfl⟩

end Arena

/-- The stage is planned for the computation of that name. -/
def Stage.isFor (name : String) (stage : Stage) : Bool :=
  stage.computation == name

theorem Stage.computation_of_flatten {α : Type} {R : α → List Stage → Prop} {name : α → String}
    (targets : ∀ a part, R a part → ∀ stage ∈ part, stage.computation = name a)
    {path : List α} {parts : List (List Stage)} (visits : List.Forall₂ R path parts)
    : ∀ stage ∈ parts.flatten, ∃ a ∈ path, stage.computation = name a := by
  induction visits with
  | nil => simp
  | @cons a part path parts visit rest ih =>
      intro stage member
      rcases List.mem_append.mp (List.flatten_cons ▸ member) with here | later
      · exact ⟨a, by simp, targets a part visit stage here⟩
      · obtain ⟨b, onPath, same⟩ := ih stage later
        exact ⟨b, List.mem_cons_of_mem a onPath, same⟩

/-- Parts that belong to different names come apart by these names. -/
theorem Stage.filter_flatten {α : Type} {R : α → List Stage → Prop} {name : α → String}
    (targets : ∀ a part, R a part → ∀ stage ∈ part, stage.computation = name a)
    {path : List α} {parts : List (List Stage)} (visits : List.Forall₂ R path parts)
    (distinct : (path.map name).Nodup)
    : (∀ other, other ∉ path.map name → parts.flatten.filter (·.isFor other) = [])
      ∧ ∀ a ∈ path, ∃ part, R a part ∧ parts.flatten.filter (·.isFor (name a)) = part := by
  induction visits with
  | nil => simp
  | @cons a part path parts visit rest ih =>
      obtain ⟨apart, distinct⟩ := List.nodup_cons.mp distinct
      obtain ⟨elsewhere, there⟩ := ih distinct
      have target := targets a part visit
      have own : part.filter (·.isFor (name a)) = part := by
        refine List.filter_eq_self.mpr fun stage member => ?_
        simp [Stage.isFor, target stage member]
      have foreign : ∀ other, other ≠ name a → part.filter (·.isFor other) = [] := by
        intro other differs
        refine List.filter_eq_nil_iff.mpr fun stage member => ?_
        simp [Stage.isFor, target stage member, differs.symm]
      refine ⟨?_, ?_⟩
      · intro other absent
        rw [List.map_cons, List.mem_cons, not_or] at absent
        rw [List.flatten_cons, List.filter_append, foreign other absent.1, elsewhere other absent.2,
          List.append_nil]
      · intro b member
        rw [List.flatten_cons, List.filter_append]
        rcases List.mem_cons.mp member with rfl | later
        · exact ⟨part, visit, by rw [own, elsewhere _ apart, List.append_nil]⟩
        · have differs : name b ≠ name a := fun same => apart (same ▸ List.mem_map_of_mem later)
          rw [foreign _ differs, List.nil_append]
          exact there b later

/-- The strategy of a join whose hash table is built. -/
def PhysicalNode.strategy? (node : PhysicalNode) : Option JoinStrategy :=
  match node.kind with
  | .join (.started strategy _) => some strategy
  | _ => none

/-- What a join leaves after it was crossed: a set for several readers. -/
def Gathers (readers : Nat) (stages : List Stage) : Prop :=
  if 2 ≤ readers then ∃ stage, stages = [.tupleSet stage] else stages = []

/-- The stages that are planned for an atomic once so many edges to its node were followed. -/
inductive Account (g : Graph) (a : Atomic) : Option JoinStrategy → Nat → List Stage → Prop
  | untouched : Account g a none 0 []
  | output {c stage} (kind : a.kind = .other) (unread : g.consumersOf a.output = [])
    (found : g.computation a.computation = .ok c) (sink : c.sinkSet = .ok stage.sink)
    : Account g a none 1 [.tupleSet stage]
  | passed (kind : a.kind = .other) (single : (g.consumersOf a.output).length = 1)
    : Account g a none 1 []
  | materialized {stage} (kind : a.kind = .other)
    (shared : 2 ≤ (g.consumersOf a.output).length)
    : Account g a none 1 [.tupleSet stage]
  | aggregated {shuffle merge} (kind : a.kind = .aggregate)
    : Account g a none 1 [.tupleSet shuffle, .aggregation merge]
  | partitioned {stage} (kind : a.kind = .partition) (vector : stage.repartitionVector = true)
    : Account g a none 1 [.tupleSet stage]
  | built {strategy stage build} (kind : a.kind = .joinSets) (builds : build.isBuild = true)
    (partitioned : build.isPartitionedBuild = true ↔ strategy = .hashPartitioned)
    : Account g a (some strategy) 1 [.tupleSet stage, build]
  | joined {strategy stage build split gathered} (kind : a.kind = .joinSets)
    (builds : build.isBuild = true)
    (partitioned : build.isPartitionedBuild = true ↔ strategy = .hashPartitioned)
    (splits : View.Splits strategy split)
    (gathers : Gathers (g.consumersOf a.output).length gathered)
    : Account g a (some strategy) 2 (.tupleSet stage :: build :: (split ++ gathered))

namespace Account

variable {g : Graph} {a : Atomic} {count : Nat} {stages : List Stage}

theorem eq_nil {strategy : Option JoinStrategy} (account : Account g a strategy count stages)
    (untouched : count = 0)
    : stages = [] := by
  cases account with
  | untouched => rfl
  | _ => simp at untouched

/-- Nothing came in to a join that is not started. -/
theorem unstarted (account : Account g a none count stages) (join : a.kind = .joinSets)
    : count = 0 := by
  cases account with
  | untouched => rfl
  | output kind | passed kind | materialized kind | aggregated kind | partitioned kind =>
      simp [join] at kind

/-- One side came in to a started join if both did not. -/
theorem started {strategy : JoinStrategy} (account : Account g a (some strategy) count stages)
    (few : count < 2)
    : count = 1
      ∧ ∃ stage build,
          stages = [.tupleSet stage, build]
          ∧ build.isBuild = true
          ∧ (build.isPartitionedBuild = true ↔ strategy = .hashPartitioned) := by
  cases account with
  | built kind builds partitioned => exact ⟨rfl, _, _, rfl, builds, partitioned⟩
  | joined kind builds partitioned splits gathers => simp at few

end Account

/-- How many tuple sets an atomic of that kind reads, if a step reads one. -/
def AtomicKind.arity : AtomicKind → Nat
  | .scan => 0
  | .joinSets => 2
  | .aggregate | .partition | .other => 1

/-- The tuple sets that an atomic reads, each once, if steps read one. -/
theorem exists_reads {g : Graph} (valid : g.Valid)
    (single : ∀ a ∈ g.atomics, a.kind = .other → ∃ input, a.ReadsOnly input) {a : Atomic}
    (member : a ∈ g.atomics)
    : ∃ reads : List String,
        reads.Nodup
        ∧ (∀ input, input ∈ reads ↔ input ∈ a.inputs)
        ∧ reads.length = a.kind.arity := by
  have fit := valid.fit a member
  cases kind : a.kind with
  | scan =>
      simp only [Atomic.hasFitInputs, kind, List.isEmpty_iff] at fit
      exact ⟨[], List.nodup_nil, by simp [fit], rfl⟩
  | joinSets =>
      simp only [Atomic.hasFitInputs, kind, beq_iff_eq] at fit
      exact ⟨a.inputs, valid.sides a member kind, fun _ => Iff.rfl, fit⟩
  | aggregate | partition =>
      simp only [Atomic.hasFitInputs, kind, beq_iff_eq] at fit
      obtain ⟨input, only⟩ := List.length_eq_one_iff.mp fit
      exact ⟨[input], List.nodup_singleton _, by simp [only], rfl⟩
  | other =>
      obtain ⟨input, reads⟩ := single a member kind
      exact ⟨[input], List.nodup_singleton _, fun other => by rw [reads, List.mem_singleton], rfl⟩

section Visit

variable {g : Graph} {v : View} {followed : List Arena.Edge}
  (wired : Arena.Wired g v.topology.arena) (ledger : v.topology.arena.Ledger followed)
  (single : ∀ a ∈ g.atomics, a.kind = .other → ∃ input, a.ReadsOnly input)
  {q p : NodeId} (edge : p ∈ (v.node q).consumers) (fresh : (q, p) ∉ followed)

include wired ledger single edge fresh

theorem incoming_lt_arity
    : Arena.incoming followed p < (v.node p).atomic.kind.arity := by
  have inside := wired.has_consumer edge
  obtain ⟨reads, -, same, arity⟩ := exists_reads wired.valid single (wired.known p inside)
  rw [View.node, ← arity]
  exact Arena.incoming_lt wired ledger p (fun input read => (same input).mpr read) edge fresh

/-- A node that an edge still leads to is not complete. -/
theorem not_reached_of_fresh
    : ¬ v.topology.arena.Reached followed p := by
  have inside := wired.has_consumer edge
  obtain ⟨reads, -, same, arity⟩ := exists_reads wired.valid single (wired.known p inside)
  refine ledger.not_reached wired edge fresh ?_
  intro step i here j there
  have one : reads.length ≤ 1 := by
    rw [arity]
    cases kind : (v.topology.arena.node p).atomic.kind with
    | joinSets => exact absurd kind step
    | scan | aggregate | partition | other => simp [AtomicKind.arity]
  match reads, one with
  | [], _ => simp [← same] at here
  | [only], _ =>
      rw [← same, List.mem_singleton] at here there
      exact here.trans there.symm

/-- The queue of a node that an edge still leads to is as long as its atomic has consumers. -/
theorem length_active
    : (v.node p).active.length = (g.consumersOf (v.node p).atomic.output).length := by
  have perm := ledger.active_perm wired (not_reached_of_fresh wired ledger single edge fresh)
  have attached := congrArg List.length (wired.attached p (wired.has_consumer edge)).consumers
  rw [List.length_map] at attached
  exact perm.length_eq.trans attached

/-- Nothing came in before to a node of one input. -/
theorem Account.untouched_of_single {strategy : Option JoinStrategy} {stages : List Stage}
    (account : Account g (v.node p).atomic strategy (Arena.incoming followed p) stages)
    (one : (v.node p).atomic.kind.arity = 1)
    : Arena.incoming followed p = 0 ∧ stages = [] := by
  have fewer := incoming_lt_arity wired ledger single edge fresh
  have zero : Arena.incoming followed p = 0 := by omega
  exact ⟨zero, account.eq_nil zero⟩

/-- A step was untouched before, and is no join. -/
theorem Account.untouched_of_step {stages : List Stage}
    (account
      : Account g (v.node p).atomic (v.node p).strategy? (Arena.incoming followed p) stages)
    (kind : (v.node p).kind = .pipeline)
    : (v.node p).atomic.kind = .other
      ∧ (v.node p).strategy? = none
      ∧ Arena.incoming followed p = 0
      ∧ stages = [] := by
  have other : (v.node p).atomic.kind = .other :=
    ((wired.pipeline_iff (wired.has_consumer edge)).mp kind).resolve_left
      fun scan => wired.scan_reads_nothing scan q edge
  refine ⟨other, by rw [PhysicalNode.strategy?, kind], ?_⟩
  exact account.untouched_of_single wired ledger single edge fresh (by rw [other]; rfl)

/-- The second side that comes in closes the account of a join. -/
theorem Account.cross {stages split gathered : List Stage} {strategy : JoinStrategy}
    {hashSet : String}
    (account
      : Account g (v.node p).atomic (v.node p).strategy? (Arena.incoming followed p) stages)
    (started : (v.node p).IsStarted strategy hashSet) (splits : View.Splits strategy split)
    (gathers : Gathers (v.node p).active.length gathered)
    : Account g (v.node p).atomic (v.node p).strategy? (Arena.incoming followed p + 1)
        (stages ++ (split ++ gathered)) := by
  have join : (v.node p).atomic.kind = .joinSets :=
    (wired.join_iff (wired.has_consumer edge)).mp ⟨_, started⟩
  have fewer := incoming_lt_arity wired ledger single edge fresh
  rw [join] at fewer
  rw [PhysicalNode.strategy?, started] at account ⊢
  obtain ⟨one, stage, build, rfl, builds, partitioned⟩ := account.started fewer
  rw [length_active wired ledger single edge fresh] at gathers
  rw [one]
  have closed : Account g (v.node p).atomic (some strategy) 2
      (.tupleSet stage :: build :: (split ++ gathered)) :=
    .joined join builds partitioned splits gathers
  exact closed

/-- A visit adds to the account of its node.
Witness: cases of what the pipeline finds there. A node of one input was untouched, and of a join
one side came in before if it is started.
-/
theorem Account.visit {changes : List Change} {stages part : List Stage}
    (account
      : Account g (v.node p).atomic (v.node p).strategy? (Arena.incoming followed p) stages)
    (leaves : v.Leaves changes p part)
    (same
      : g.consumersOf (v.node p).atomic.output = [] →
          (v.node p).kind = .pipeline →
            v.computation p = g.computation (v.node p).atomic.computation)
    : ∃ strategy,
        Account g (v.node p).atomic strategy (Arena.incoming followed p + 1) (stages ++ part)
        ∧ (strategy = (v.node p).strategy? ∧ (v.node p).kind ≠ .join .notStarted
            ∨ ∃ started name hashSet,
                strategy = some started ∧ .startJoin p name started hashSet ∈ changes) := by
  have inside := wired.has_consumer edge
  have length := length_active wired ledger single edge fresh
  have step := account.untouched_of_step wired ledger single edge fresh
  have alone := account.untouched_of_single wired ledger single edge fresh
  cases leaves with
  | passed kind active =>
      obtain ⟨other, unstarted, zero, rfl⟩ := step kind
      rw [zero, unstarted]
      rw [active] at length
      exact ⟨none, .passed other length.symm, .inl ⟨rfl, by simp [kind]⟩⟩
  | @output c stage kind unread found sink =>
      obtain ⟨other, unstarted, zero, rfl⟩ := step kind
      rw [zero, unstarted]
      rw [unread] at length
      have readers : g.consumersOf (v.node p).atomic.output = [] :=
        List.eq_nil_of_length_eq_zero length.symm
      exact ⟨none, .output other readers (same readers kind ▸ found) sink,
        .inl ⟨rfl, by simp [kind]⟩⟩
  | materialized kind shared =>
      obtain ⟨other, unstarted, zero, rfl⟩ := step kind
      rw [zero, unstarted]
      rw [length] at shared
      exact ⟨none, .materialized other shared, .inl ⟨rfl, by simp [kind]⟩⟩
  | aggregated kind =>
      have aggregate : (v.node p).atomic.kind = .aggregate :=
        (wired.aggregation_iff inside).mp kind
      obtain ⟨zero, rfl⟩ := alone (by rw [aggregate]; rfl)
      rw [zero, PhysicalNode.strategy?, kind]
      exact ⟨none, .aggregated aggregate, .inl ⟨rfl, by simp⟩⟩
  | partitioned kind vector =>
      have partition : (v.node p).atomic.kind = .partition :=
        (wired.partition_iff inside).mp kind
      obtain ⟨zero, rfl⟩ := alone (by rw [partition]; rfl)
      rw [zero, PhysicalNode.strategy?, kind]
      exact ⟨none, .partitioned partition vector, .inl ⟨rfl, by simp⟩⟩
  | built kind starts builds partitioned =>
      have join := (wired.join_iff inside).mp ⟨_, kind⟩
      rw [PhysicalNode.strategy?, kind] at account
      have zero := account.unstarted join
      obtain rfl := account.eq_nil zero
      rw [zero]
      exact ⟨some _, .built join builds partitioned, .inr ⟨_, _, _, rfl, starts⟩⟩
  | crossed started splits active =>
      have gathers : Gathers (v.node p).active.length [] := by simp [Gathers, active]
      have after := account.cross wired ledger single edge fresh started splits gathers
      rw [List.append_nil] at after
      exact ⟨_, after, .inl ⟨rfl, by rw [started]; simp⟩⟩
  | @gathered strategy hashSet split stage started splits shared =>
      have gathers : Gathers (v.node p).active.length [.tupleSet stage] := by
        rw [Gathers, if_pos shared]
        exact ⟨stage, rfl⟩
      have after := account.cross wired ledger single edge fresh started splits gathers
      exact ⟨_, after, .inl ⟨rfl, by rw [started]; simp⟩⟩

end Visit

end DataflowPlan
