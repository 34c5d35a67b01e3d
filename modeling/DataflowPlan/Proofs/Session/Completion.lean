import DataflowPlan.Proofs.Session.Run

/-! Planning to the end. Every planned pipeline takes a consumer off the arena, so that planning all
stops when no source is left, and not before. It does what increments in turn do.
-/

namespace DataflowPlan

namespace Arena

/-- A node of one list that has as few consumers to plan as that of another, place by place. -/
theorem foldr_active_le {xs ys : List PhysicalNode} (same : xs.length = ys.length)
    (fewer
      : ∀ i : Nat,
          (xs[i]?.getD default).active.length ≤ (ys[i]?.getD default).active.length)
    : xs.foldr (fun node total => node.active.length + total) 0
        ≤ ys.foldr (fun node total => node.active.length + total) 0 := by
  induction xs generalizing ys with
  | nil => simp
  | cons x xs ih =>
      cases ys with
      | nil => simp at same
      | cons y ys =>
          have first := fewer 0
          have rest := ih (by simpa using same) fun i => by simpa using fewer (i + 1)
          simp only [List.getElem?_cons_zero, Option.getD_some] at first
          simp only [List.foldr_cons]
          omega

theorem foldr_active_lt {xs ys : List PhysicalNode} (same : xs.length = ys.length)
    (fewer
      : ∀ i : Nat,
          (xs[i]?.getD default).active.length ≤ (ys[i]?.getD default).active.length)
    (place : Nat)
    (less
      : (xs[place]?.getD default).active.length < (ys[place]?.getD default).active.length)
    : xs.foldr (fun node total => node.active.length + total) 0
        < ys.foldr (fun node total => node.active.length + total) 0 := by
  induction xs generalizing ys place with
  | nil =>
      obtain rfl : ys = [] := by simpa using same.symm
      simp at less
  | cons x xs ih =>
      cases ys with
      | nil => simp at same
      | cons y ys =>
          have length : xs.length = ys.length := by simpa using same
          have first := fewer 0
          have later : ∀ i : Nat,
              (xs[i]?.getD default).active.length ≤ (ys[i]?.getD default).active.length :=
            fun i => by simpa using fewer (i + 1)
          simp only [List.getElem?_cons_zero, Option.getD_some] at first
          simp only [List.foldr_cons]
          cases place with
          | zero =>
              have rest := foldr_active_le length later
              simp only [List.getElem?_cons_zero, Option.getD_some] at less
              omega
          | succ place =>
              have rest := ih length later place (by simpa using less)
              omega

variable {after before : Arena}

theorem activeCount_le (size : after.size = before.size)
    (fewer : ∀ p, (after.node p).active.length ≤ (before.node p).active.length)
    : after.activeCount ≤ before.activeCount :=
  foldr_active_le size fun i => fewer ⟨i⟩

theorem activeCount_lt (size : after.size = before.size)
    (fewer : ∀ p, (after.node p).active.length ≤ (before.node p).active.length) {p : NodeId}
    (less : (after.node p).active.length < (before.node p).active.length)
    : after.activeCount < before.activeCount :=
  foldr_active_lt size (fun i => fewer ⟨i⟩) p.index less

/-- A node with consumers to plan is counted. -/
theorem active_eq_nil_of_activeCount {arena : Arena} (none : arena.activeCount = 0) (p : NodeId)
    : (arena.node p).active = [] := by
  by_contra read
  have inside : arena.Has p := by
    by_contra outside
    rw [node_of_not_has outside] at read
    exact read rfl
  have counted : ∀ (nodes : List PhysicalNode) (node : PhysicalNode), node ∈ nodes →
      node.active.length ≤ nodes.foldr (fun node total => node.active.length + total) 0 := by
    intro nodes node member
    induction nodes with
    | nil => simp at member
    | cons head rest ih =>
        rw [List.foldr_cons]
        rcases List.mem_cons.mp member with rfl | later
        · omega
        · have := ih later
          omega
  have below := counted _ _ (mem_nodes_iff.mpr ⟨p, inside, rfl⟩)
  rw [show arena.nodes.foldr _ 0 = 0 from none] at below
  exact read (List.eq_nil_of_length_eq_zero (by omega))

end Arena

namespace Session

variable {s : Session} {stats : Statistics} {skip : List String}

/-- A planned pipeline leaves fewer consumers to plan. -/
theorem activeCount_of_planned {increment : Increment} {next : Session}
    (planned : s.attempt stats skip = (.planned increment, next))
    : next.topology.arena.activeCount < s.topology.arena.activeCount := by
  obtain ⟨key, source, reached, segment, done, -, rfl⟩ := committed_of_attempt planned
  obtain ⟨init, last, course⟩ := done.course
  have active : ∀ p, ((segment.apply s.topology).arena.node p).active
      = (s.node p).active.drop ((source :: (s.view stats).steps init).count p) := course.active
  rw [topology_commit]
  refine Arena.activeCount_lt course.frame.size (p := source) ?_ ?_
  · intro p
    rw [active, List.length_drop]
    exact Nat.sub_le _ _
  · rw [active, List.length_drop, List.count_cons_self]
    have waiting := List.length_pos_iff.mpr done.live.2
    rw [node] at waiting ⊢
    omega

theorem length_rotate (node : PhysicalNode) : node.rotate.active.length = node.active.length :=
  (Arena.rotate_perm node).length_eq

/-- A refusal leaves as many consumers to plan everywhere. -/
theorem length_active_penalize (s : Session) (key : String) (source p : NodeId)
    : ((s.penalize key source).node p).active.length = (s.node p).active.length := by
  change ((s.topology.arena.rotate source).node p).active.length = _
  rw [Arena.node_rotate]
  split
  · next same => rw [same, length_rotate]; rfl
  · rfl

theorem activeCount_penalize (s : Session) (key : String) (source : NodeId)
    : (s.penalize key source).topology.arena.activeCount ≤ s.topology.arena.activeCount :=
  Arena.activeCount_le (Arena.frame_rotate _ source).size fun p =>
    Nat.le_of_eq (length_active_penalize s key source p)

theorem hasSources_penalize (s : Session) (key : String) (source : NodeId)
    : (s.penalize key source).hasSources = s.hasSources := by
  have live : ∀ id, (s.penalize key source).isLive id = s.isLive id := by
    intro id
    rw [Bool.eq_iff_iff, isLive_iff, isLive_iff, ← List.length_pos_iff, ← List.length_pos_iff,
      length_active_penalize]
  exact List.any_congr rfl live

theorem hasSources_prune (s : Session) : s.prune.hasSources = s.hasSources := by
  rw [Bool.eq_iff_iff, hasSources_iff, hasSources_iff]
  refine exists_congr fun source => ?_
  obtain ⟨key, id⟩ := source
  rw [mem_liveSources_iff, mem_liveSources_iff]
  have kept : s.prune.sources.get? key = (s.sources.get? key).filter s.isLive := by
    rw [prune, Table.get?_filter]
  have same : (s.prune.node id).active = (s.node id).active := rfl
  rw [kept, same, Option.filter_eq_some_iff, isLive_iff]
  tauto

/-- The attempts of an increment before the last one take no consumer off, and leave the sources. -/
theorem Tries.unplanned {m : Session} {count : Nat} (tries : s.Tries stats count skip m)
    : m.topology.arena.activeCount ≤ s.topology.arena.activeCount
        ∧ m.hasSources = s.hasSources := by
  induction tries with
  | first => exact ⟨Nat.le_refl _, rfl⟩
  | again earlier left refused ih =>
      obtain ⟨source, -, -, rfl⟩ := refused_of_attempt refused
      exact ⟨Nat.le_trans (activeCount_penalize _ _ source) ih.1,
        (hasSources_penalize _ _ source).trans ih.2⟩

/-- An increment that succeeds takes a consumer off the arena, if any source is live. -/
theorem activeCount_of_planIncrement (live : s.hasSources = true) {increment : Increment}
    {next : Session} (planned : s.planIncrement stats = (.ok increment, next))
    : next.topology.arena.activeCount < s.topology.arena.activeCount := by
  have ends := s.planIncrement_comesTo stats
  rw [planned] at ends
  cases ends with
  | idle tries none =>
      have still := tries.unplanned.2
      rw [hasSources_prune, live, none] at still
      simp at still
  | planned tries planned =>
      exact Nat.lt_of_lt_of_le (activeCount_of_planned planned) tries.unplanned.1

/-- Without consumers to plan no source is live. -/
theorem hasSources_of_activeCount (none : s.topology.arena.activeCount = 0)
    : s.hasSources = false := by
  rw [Bool.eq_false_iff, ne_eq, hasSources_iff]
  rintro ⟨⟨key, id⟩, member⟩
  exact (mem_liveSources_iff.mp member).2 (Arena.active_eq_nil_of_activeCount none id)

/-- Without a live source an increment only cleans up. -/
theorem planIncrement_of_idle (none : s.hasSources = false) (stats : Statistics)
    : s.planIncrement stats = (.ok .empty, s.prune) := by
  rw [planIncrement, retry.eq_def]
  simp [hasSources_prune, none]

theorem increment_append_assoc (i j k : Increment)
    : (i.append j).append k = i.append (j.append k) := by
  simp [Increment.append]

theorem call_append (s : Session) (out more : Increment) (stats : Statistics) (c : Call)
    : s.call (out.append more) stats c
        = (out.append (s.call more stats c).1, (s.call more stats c).2) := by
  cases c with
  | nextStages =>
      simp only [call, nextStages]
      rcases s.attempt stats [] with ⟨attempt, next⟩
      cases attempt <;> simp [increment_append_assoc]
  | planIncrement =>
      simp only [call]
      rcases s.planIncrement stats with ⟨result, next⟩
      cases result <;> simp [collect, increment_append_assoc]

theorem run_cons (s : Session) (c : Call) (stats : Statistics) (calls : List (Call × Statistics))
    : s.run ((c, stats) :: calls)
        = ((s.call .empty stats c).1.append ((s.call .empty stats c).2.run calls).1,
            ((s.call .empty stats c).2.run calls).2) := by
  have shift : ∀ (calls : List (Call × Statistics)) (out more : Increment) (m : Session),
      calls.foldl (fun state c => state.2.call state.1 c.2 c.1) (out.append more, m)
        = (out.append (calls.foldl (fun state c => state.2.call state.1 c.2 c.1) (more, m)).1,
            (calls.foldl (fun state c => state.2.call state.1 c.2 c.1) (more, m)).2) := by
    intro calls
    induction calls with
    | nil => simp
    | cons head rest ih =>
        intro out more m
        rw [List.foldl_cons, List.foldl_cons]
        simp only
        rw [call_append, ih]
  have whole := shift calls (s.call .empty stats c).1 .empty (s.call .empty stats c).2
  have unit : (s.call .empty stats c).1.append .empty = (s.call .empty stats c).1 := by
    simp [Increment.append, Increment.empty]
  rw [unit] at whole
  exact whole

theorem run_of_idle (none : s.hasSources = false) (stats : Statistics)
    : s.run [(.planIncrement, stats)] = (.empty, s.prune) := by
  simp [run, call, planIncrement_of_idle none, collect, Increment.append, Increment.empty]

theorem extend_empty (plan : Plan) : plan.extend .empty = plan := by
  simp [Plan.extend, Increment.empty]

/-- Planning all that succeeds is a run of increments, and ends without live sources.
Witness: induction on the fuel, which is never less than the consumers that are left to plan.
-/
theorem planWithin_eq_ok {fuel : Nat} {plan result : Plan} {next : Session}
    (planned : planWithin stats fuel plan s = (.ok result, next))
    (enough : s.topology.arena.activeCount ≤ fuel)
    : next.hasSources = false
        ∧ ∃ calls out, s.run calls = (out, next) ∧ result = plan.extend out := by
  induction fuel generalizing plan s with
  | zero =>
      simp only [planWithin, Prod.mk.injEq, Except.ok.injEq] at planned
      obtain ⟨rfl, rfl⟩ := planned
      have none := hasSources_of_activeCount (Nat.le_zero.mp enough)
      exact ⟨(hasSources_prune s).trans none, _, _, run_of_idle none stats,
        (extend_empty _).symm⟩
  | succ fuel ih =>
      rw [planWithin] at planned
      cases live : s.hasSources with
      | false =>
          simp only [live, Bool.not_false, if_true, Prod.mk.injEq, Except.ok.injEq] at planned
          obtain ⟨rfl, rfl⟩ := planned
          exact ⟨(hasSources_prune s).trans live, _, _, run_of_idle live stats,
            (extend_empty _).symm⟩
      | true =>
          simp only [live, Bool.not_true, Bool.false_eq_true, if_false] at planned
          cases outcome : s.planIncrement stats with
          | mk step middle =>
              rw [outcome] at planned
              cases step with
              | error error => simp at planned
              | ok increment =>
                  have fewer := activeCount_of_planIncrement live outcome
                  obtain ⟨idle, calls, out, ran, rfl⟩ := ih planned (by omega)
                  refine ⟨idle, (.planIncrement, stats) :: calls, increment.append out, ?_, ?_⟩
                  · rw [run_cons, call, outcome, collect]
                    simp [Increment.append, Increment.empty, ran]
                  · simp [Plan.extend, Increment.append]

/-- A plan of all is what some run plans, and no source is left after it. -/
theorem planAll_eq_ok {plan : Plan} {next : Session}
    (planned : s.planAll stats = (.ok plan, next))
    : next.hasSources = false
        ∧ ∃ calls,
            s.run calls = (⟨plan.stages, plan.intermediateSets⟩, next)
            ∧ plan.jobId = s.jobId := by
  obtain ⟨idle, calls, out, ran, rfl⟩ := planWithin_eq_ok planned (Nat.le_refl _)
  exact ⟨idle, calls, by simpa [Plan.extend, Plan.ofJob] using ran, rfl⟩

end Session

end DataflowPlan
