import DataflowPlan.Proofs.Session.Registry

/-! Live sources in the registry. A source with consumers to plan stays registered, unless a planned
pipeline makes a node a source whose set has the key of its set: then the one displaces the other,
or is dropped in its place.
-/

namespace DataflowPlan.Session

/-- The node reads a set and has consumers to plan. -/
structure Wanted (s : Session) (id : NodeId) : Prop where
  source : (s.node id).sourceSet ≠ none
  active : (s.node id).active ≠ []

/-- Every source with consumers to plan is registered. -/
def Registered (s : Session) : Prop :=
  ∀ id, s.Wanted id → ∃ key, s.sources.get? key = some id

/-- The segment makes a node a source under the key of another source, which is the one that the
segment is planned from or still has consumers to plan afterwards.
-/
def Clashes (s : Session) (source : NodeId) (segment : Segment) : Prop :=
  ∃ id set other kept,
    segment.newSource = some (id, set)
    ∧ other ≠ id
    ∧ (s.node other).sourceSet = some kept
    ∧ kept.key = set.key
    ∧ (other = source ∨ ((segment.apply s.topology).arena.node other).active ≠ [])

variable {g : Graph} {first s : Session} {followed : List Arena.Edge} {stats : Statistics}
  {skip : List String} {key : String} {source last : NodeId} {init : List NodeId}
  {reached : StageId} {segment : Segment}

theorem Beginning.registered_all (beginning : s.Beginning g)
    : s.Registered := by
  intro id wanted
  obtain ⟨set, source⟩ := Option.ne_none_iff_exists'.mp wanted.source
  exact ⟨set.key, (beginning.registered _ _).mpr ⟨set, source, rfl⟩⟩

theorem Registered.prune (registered : s.Registered)
    : s.prune.Registered := by
  intro id wanted
  obtain ⟨key, found⟩ := registered id ⟨wanted.source, wanted.active⟩
  refine ⟨key, ?_⟩
  rw [Session.prune, Table.get?_filter, Option.filter_eq_some_iff]
  exact ⟨found, isLive_iff.mpr wanted.active⟩

theorem active_penalize_ne (s : Session) (key : String) (source p : NodeId)
    : ((s.penalize key source).node p).active ≠ [] ↔ (s.node p).active ≠ [] := by
  rw [← List.length_pos_iff, ← List.length_pos_iff, length_active_penalize]

theorem Registered.penalize (registered : s.Registered) (key : String) (source : NodeId)
    : (s.penalize key source).Registered := by
  intro id wanted
  refine registered id ⟨?_, (active_penalize_ne s key source id).mp wanted.active⟩
  rw [← sourceSet_penalize s key source id]
  exact wanted.source

theorem Registered.waits {m : Session} (registered : s.Registered) (waits : s.Waits m)
    : m.Registered :=
  waits.keeps (fun registered key source => registered.penalize key source)
    (fun registered => registered.prune) registered

theorem active_of_commit (course : (s.view stats).Course source init last segment) {p : NodeId}
    (left : ((s.commit key source reached segment).node p).active ≠ [])
    : (s.node p).active ≠ [] := by
  intro none
  simp [active_commit course, none] at left

/-- Without a clash every live source is registered after a commit as before.
Witness: the entry of another source goes only if the new source takes its key, and the entry of the
new one only if it has the key of the source that is dropped.
-/
theorem Registered.commit (registered : s.Registered) (keyed : s.Keyed)
    (reaches : Reaches g first s followed)
    (done : s.Committed stats skip key source reached segment)
    (course : (s.view stats).Course source init last segment)
    (free : ¬ s.Clashes source segment)
    : (s.commit key source reached segment).Registered := by
  have inside := reaches.has_last course
  obtain ⟨own, isSource, ownKey⟩ := keyed.entries key source done.live.1
  intro id wanted
  -- an entry of its own key is dropped only with the planned source
  have stays : ∀ k, (k = key ∧ ((segment.apply s.topology).arena.node source).active = []) →
      s.sources.get? k = some id → False := by
    rintro k ⟨rfl, drained⟩ found
    obtain rfl := Option.some.inj (done.live.1.symm.trans found)
    have left := wanted.active
    rw [node_commit] at left
    exact left drained
  have source' := wanted.source
  rw [sourceSet_commit course inside] at source'
  cases new : segment.newSource with
  | none =>
      rw [new] at source'
      obtain ⟨k, found⟩ := registered id ⟨source', active_of_commit course wanted.active⟩
      refine ⟨k, ?_⟩
      rw [sources_commit, if_neg fun gone => stays k gone found, new]
      exact found
  | some pair =>
      obtain ⟨target, set⟩ := pair
      rw [new] at source'
      simp only at source'
      by_cases same : id = target
      · subst same
        refine ⟨set.key, ?_⟩
        rw [sources_commit, new]
        simp only [if_true]
        rw [if_neg]
        rintro ⟨taken, drained⟩
        by_cases itself : source = id
        · subst itself
          have left := wanted.active
          rw [node_commit] at left
          exact left drained
        · exact free ⟨id, set, source, own, new, itself, isSource, ownKey.trans taken.symm,
            .inl rfl⟩
      · rw [if_neg same] at source'
        obtain ⟨k, found⟩ := registered id ⟨source', active_of_commit course wanted.active⟩
        obtain ⟨mine, isMine, mineKey⟩ := keyed.entries k id found
        refine ⟨k, ?_⟩
        rw [sources_commit, if_neg fun gone => stays k gone found, new]
        simp only
        rw [if_neg]
        · exact found
        · intro taken
          have left := wanted.active
          rw [node_commit] at left
          exact free ⟨target, set, id, mine, new, same, isMine, mineKey.trans taken, .inr left⟩

/-- After a clash some live source is not registered.
Witness: the two sources have one key, and the registry has room for one of them, or for none if the
planned source is dropped.
-/
theorem not_registered_of_clash (keyed : s.Keyed) (reaches : ReachesNamed g first s followed)
    (done : s.Committed stats skip key source reached segment)
    (course : (s.view stats).Course source init last segment)
    (clash : s.Clashes source segment)
    : ¬ (s.commit key source reached segment).Registered := by
  intro registered
  have inside := reaches.has_last course
  have keyed' : (s.commit key source reached segment).Keyed := keyed.commit reaches course
  obtain ⟨id, set, other, kept, new, differ, isSource, sameKey, wanted⟩ := clash
  obtain ⟨own, sourceOwn, ownKey⟩ := keyed.entries key source done.live.1
  have newSet : ((s.commit key source reached segment).node id).sourceSet = some set := by
    rw [sourceSet_commit course inside, new]
    simp
  have otherSet : ((s.commit key source reached segment).node other).sourceSet = some kept := by
    rw [sourceSet_commit course inside, new]
    simp only [differ, if_false]
    exact isSource
  by_cases left : ((segment.apply s.topology).arena.node other).active = []
  · -- the other source is the planned one and is dropped, and the new one with it
    obtain rfl := wanted.resolve_right fun still => still left
    have live : (s.commit key other reached segment).Wanted id :=
      ⟨by rw [newSet]; simp, reaches.newSource_live course new⟩
    obtain ⟨k, found⟩ := registered id live
    obtain ⟨_, here, named⟩ := keyed'.entries k id found
    obtain rfl := Option.some.inj (newSet.symm.trans here)
    obtain rfl := Option.some.inj (isSource.symm.trans sourceOwn)
    rw [sources_commit, if_pos ⟨by rw [← named, ← sameKey, ownKey], left⟩] at found
    simp at found
  · have live : (s.commit key source reached segment).Wanted other :=
      ⟨by rw [otherSet]; simp, by rw [node_commit]; exact left⟩
    obtain ⟨k, found⟩ := registered other live
    obtain ⟨_, here, named⟩ := keyed'.entries k other found
    obtain rfl := Option.some.inj (otherSet.symm.trans here)
    rw [sources_commit] at found
    split at found
    · simp at found
    · rw [new] at found
      simp only [named.symm.trans sameKey, if_true] at found
      exact differ (Option.some.inj found).symm

/-- No run loses a live source: it stays registered, a session without registered live sources has
none at all, and planning all does not succeed while consumers of a source are left.
-/
structure NoneLost (first : Session) : Prop where
  registered : ∀ calls, (first.run calls).2.Registered
  complete
    : ∀ calls, (first.run calls).2.hasSources = false → ∀ id, ¬ (first.run calls).2.Wanted id
  planned
    : ∀ calls stats plan next,
        (first.run calls).2.planAll stats = (.ok plan, next) → ∀ id, ¬ next.Wanted id

theorem Registered.none_wanted (registered : s.Registered) (idle : s.hasSources = false)
    (id : NodeId)
    : ¬ s.Wanted id := by
  intro wanted
  obtain ⟨key, found⟩ := registered id wanted
  have live : s.hasSources = true :=
    hasSources_iff.mpr ⟨(key, id), mem_liveSources_iff.mpr ⟨found, wanted.active⟩⟩
  rw [idle] at live
  simp at live

theorem call_snd (s : Session) (out more : Increment) (stats : Statistics) (c : Call)
    : (s.call out stats c).2 = (s.call more stats c).2 := by
  have unit : ∀ i : Increment, i.append .empty = i := by
    intro i
    simp [Increment.append, Increment.empty]
  rw [← unit out, ← unit more, call_append, call_append]

theorem run_append_snd (s : Session) (before later : List (Call × Statistics))
    : (s.run (before ++ later)).2 = ((s.run before).2.run later).2 := by
  induction later using List.reverseRecOn with
  | nil => simp [run]
  | append_singleton later last ih =>
      obtain ⟨c, stats⟩ := last
      rw [← List.append_assoc, run_concat, run_concat, ih]
      exact call_snd _ _ _ _ _

theorem Beginning.keyed_of_waits {m : Session} (beginning : first.Beginning g) (named : g.Named)
    (calls : List (Call × Statistics)) (waits : (first.run calls).2.Waits m)
    : ∃ followed, ReachesNamed g first m followed ∧ m.Keyed := by
  have steady := steady_keyed g first
  have ran := steady.run ⟨[], beginning.reachesNamed named, beginning.keyed⟩ calls
  exact @Steady.waits _ steady _ _ .empty ran waits

/-- Runs whose planned pipelines clash with no source keep the live ones registered.
Witness: induction on the calls; a call waits or plans one pipeline.
-/
theorem registered_of_free (beginning : first.Beginning g) (named : g.Named)
    (free
      : ∀ calls stats c m key source reached segment,
          (first.run calls).2.Plans stats c m key source reached segment →
            ¬ m.Clashes source segment)
    (calls : List (Call × Statistics))
    : (first.run calls).2.Registered := by
  induction calls using List.reverseRecOn with
  | nil => exact beginning.registered_all
  | append_singleton calls last ih =>
      obtain ⟨c, stats⟩ := last
      rw [run_concat]
      rcases call_cases (first.run calls).2 (first.run calls).1 stats c with
        waits | ⟨m, key, source, reached, segment, plans, next⟩
      · exact ih.waits waits
      · rw [next]
        obtain ⟨followed, reaches, keyed⟩ := beginning.keyed_of_waits named _ plans.waits
        obtain ⟨skip, done⟩ := plans.committed
        obtain ⟨init, last, course⟩ := done.course
        exact (ih.waits plans.waits).commit keyed reaches.toReaches done course
          (free calls stats c m key source reached segment plans)

/-- If computations are filed under their own names, no live source is lost exactly if no call plans
a pipeline that clashes with a source.
-/
theorem noneLost_iff {jobId : String} {g : Graph} {config : PlannerConfig} {first : Session}
    (started : Session.start jobId g config = .ok first) (named : g.Named)
    : first.NoneLost
        ↔ ∀ calls stats c m key source reached segment,
            (first.run calls).2.Plans stats c m key source reached segment →
              ¬ m.Clashes source segment := by
  obtain ⟨beginning, -⟩ := beginning_of_start started
  constructor
  · intro kept calls stats c m key source reached segment plans clash
    obtain ⟨followed, reaches, keyed⟩ := beginning.keyed_of_waits named _ plans.waits
    obtain ⟨skip, done⟩ := plans.committed
    obtain ⟨init, last, course⟩ := done.course
    have after := kept.registered (calls ++ [(c, stats)])
    rw [run_concat, plans.call] at after
    exact not_registered_of_clash keyed reaches done course clash after
  · intro free
    have registered := registered_of_free beginning named free
    refine ⟨registered, fun calls idle => (registered calls).none_wanted idle, ?_⟩
    intro calls stats plan next planned
    obtain ⟨idle, more, ran, -⟩ := planAll_eq_ok planned
    have there : (first.run (calls ++ more)).2 = next := by rw [run_append_snd, ran]
    exact there ▸ (registered (calls ++ more)).none_wanted (there ▸ idle)

/-- A selection keeps its output in the set that it is made from, and two writes read it. -/
def sharedSet : Graph :=
  .ofLists
    [.scan "scan" "db" "data",
      (Computation.ofKind "clean" .selection).setOutput "db" "data",
      (Computation.ofKind "left" .write).setOutput "db" "left",
      (Computation.ofKind "right" .write).setOutput "db" "right"]
    [.scan "in" "scan", .apply "clean" "in" "clean", .apply "left" "clean" "left",
      .apply "right" "clean" "right"]

/-- The selection takes the place of the scan in the registry and is dropped with it. -/
theorem planAll_sharedSet
    : ∃ first plan next,
        Session.start "job" sharedSet .standard = .ok first
        ∧ first.planAll .empty = (.ok plan, next)
        ∧ next.Wanted ⟨1⟩ := by
  have evaluated :
      (Session.start "job" sharedSet .standard).toOption.map (fun first =>
        ((first.planAll .empty).1.isOk, ((first.planAll .empty).2.node ⟨1⟩).sourceSet.isSome,
          ((first.planAll .empty).2.node ⟨1⟩).active.length))
        = some (true, true, 2) := by
    decide +kernel
  obtain ⟨first, started, evaluated⟩ := Except.toOption_map_eq_some_iff.mp evaluated
  simp only [Prod.mk.injEq] at evaluated
  obtain ⟨planned, isSource, left⟩ := evaluated
  obtain ⟨plan, planned⟩ := Except.isOk_iff.mp planned
  refine ⟨first, plan, _, started, Prod.ext planned rfl, Option.isSome_iff_ne_none.mp isSource, ?_⟩
  intro none
  simp [none] at left

/-- A run can lose a live source. -/
theorem sharedSet_loses
    : ∃ first, Session.start "job" sharedSet .standard = .ok first ∧ ¬ first.NoneLost := by
  obtain ⟨first, plan, next, started, planned, wanted⟩ := planAll_sharedSet
  exact ⟨first, started, fun kept => kept.planned [] .empty plan next planned _ wanted⟩

theorem sharedSet_clashes
    : ∃ first calls stats c m key source reached segment,
        Session.start "job" sharedSet .standard = .ok first
        ∧ (first.run calls).2.Plans stats c m key source reached segment
        ∧ m.Clashes source segment := by
  obtain ⟨first, plan, next, started, planned, wanted⟩ := planAll_sharedSet
  by_contra none
  refine ((noneLost_iff started (Graph.named_ofLists _ _)).mpr ?_).planned [] .empty plan next
    planned _ wanted
  intro calls stats c m key source reached segment plans clash
  exact none ⟨first, calls, stats, c, m, key, source, reached, segment, started, plans, clash⟩

end DataflowPlan.Session
