import DataflowPlan.Proofs.Session.Registry

/-! The sources that read sets of the job's. A computation that is filed under another name than its
own can send the output of one step to the set of another, and then a source is registered under a
key that it had before. But a source that reads a set of the job's is registered under that set's
key, however computations are filed.
-/

namespace DataflowPlan.Session

/-- The registry and the sets of the job's fit together: an entry is a source and has the key of its
set if that is the job's; a step's set of the job's goes by its output, and a step that reads a set
of the user's keeps its output.
-/
structure JobKeyed (s : Session) : Prop where
  entries
    : ∀ key id,
        s.sources.get? key = some id →
          ∃ set, (s.node id).sourceSet = some set ∧ (set.kind ≠ .user → set.key = key)
  made
    : ∀ p set,
        (s.node p).atomic.kind = .other →
          (s.node p).sourceSet = some set →
            set.kind ≠ .user → set.key = setKey s.jobId (s.node p).output
  kept
    : ∀ p set,
        (s.node p).atomic.kind = .other →
          (s.node p).sourceSet = some set →
            set.kind = .user →
              ∃ c,
                s.topology.graph.computation (s.node p).atomic.computation = .ok c
                ∧ c.materializeOutput = true

variable {g : Graph} {first s : Session} {followed : List Arena.Edge} {stats : Statistics}
  {skip : List String} {key : String} {source last : NodeId} {init : List NodeId}
  {reached : StageId} {segment : Segment} {set old : SetId}

theorem Beginning.jobKeyed (beginning : s.Beginning g)
    : s.JobKeyed := by
  have scans (p : NodeId) (set : SetId) (other : (s.node p).atomic.kind = .other)
      : (s.node p).sourceSet ≠ some set := by
    intro isSource
    obtain ⟨c, scan, -⟩ := beginning.exists_scan isSource
    simp [other] at scan
  refine ⟨?_, fun p set other isSource => absurd isSource (scans p set other),
    fun p set other isSource => absurd isSource (scans p set other)⟩
  intro key id found
  obtain ⟨set, isSource, named⟩ := (beginning.registered key id).mp found
  exact ⟨set, isSource, fun _ => named⟩

/-- A node that becomes a source again with a set of the job's read that set before.
Witness: it is a step that did not keep its output, and so it was not kept for the user before.
-/
theorem JobKeyed.same_key (keyed : s.JobKeyed) (reaches : Reaches g first s followed)
    (course : (s.view stats).Course source init last segment)
    (new : segment.newSource = some (last, set)) (was : (s.node last).sourceSet = some old)
    (job : set.kind ≠ .user)
    : old.kind ≠ .user ∧ set.key = old.key := by
  have other := reaches.other_of_source course (by simp [was])
  cases course.sourced new with
  | kept found keeps names key same user => exact absurd user job
  | redirected found unkept key changed kind =>
      have before : old.kind ≠ .user := by
        intro user
        obtain ⟨c, found', keeps⟩ := keyed.kept last old other was user
        obtain rfl := Except.ok.inj (found.symm.trans found')
        simp [unkept] at keeps
      exact ⟨before, key.trans (keyed.made last old other was before).symm⟩
  | handed kind key same => exact absurd kind (reaches.not_aggregation course other)

theorem JobKeyed.entries_commit (keyed : s.JobKeyed) (reaches : Reaches g first s followed)
    (course : (s.view stats).Course source init last segment) {other : String} {id : NodeId}
    (found : (s.commit key source reached segment).sources.get? other = some id)
    : ∃ set,
        ((s.commit key source reached segment).node id).sourceSet = some set
        ∧ (set.kind ≠ .user → set.key = other) := by
  have inside := reaches.has_last course
  rcases registered_commit_cases found with before | ⟨set, new, same⟩
  · obtain ⟨old, was, named⟩ := keyed.entries other id before
    obtain ⟨set, now, rfl | ⟨rfl, new⟩⟩ :=
      exists_sourceSet_commit key reached course inside was
    · exact ⟨set, now, named⟩
    · refine ⟨set, now, fun job => ?_⟩
      obtain ⟨before, same⟩ := keyed.same_key reaches course new was job
      exact same.trans (named before)
  · exact ⟨set, sourceSet_newSource course inside new, fun _ => same⟩

theorem JobKeyed.commit (keyed : s.JobKeyed) (reaches : Reaches g first s followed)
    (course : (s.view stats).Course source init last segment)
    : (s.commit key source reached segment).JobKeyed := by
  have inside := reaches.has_last course
  have job : (s.commit key source reached segment).jobId = s.jobId :=
    (settings_commit s key source reached segment).1
  refine ⟨fun other id found => keyed.entries_commit reaches course found, ?_, ?_⟩
  · intro p set other isSource own
    rw [PhysicalNode.output, atomic_commit course, job]
    rw [atomic_commit course] at other
    rcases sourceSet_commit_cases course inside isSource with was | ⟨rfl, new⟩
    · exact keyed.made p set other was own
    · cases course.sourced new with
      | kept found keeps names key same user => exact absurd user own
      | redirected found unkept key changed kind => exact key
      | handed kind key same => exact absurd kind (reaches.not_aggregation course other)
  · intro p set other isSource user
    rw [atomic_commit course] at other ⊢
    rw [topology_commit]
    rcases sourceSet_commit_cases course inside isSource with was | ⟨rfl, new⟩
    · obtain ⟨c, found, keeps⟩ := keyed.kept p set other was user
      exact course.keeps_output found keeps
    · cases course.sourced new with
      | kept found keeps names key same kind =>
          exact ⟨_, same ▸ found, keeps⟩
      | redirected found unkept key changed kind => simp [user] at kind
      | handed kind key same => exact absurd kind (reaches.not_aggregation course other)

theorem JobKeyed.penalize (keyed : s.JobKeyed) (key : String) (source : NodeId)
    : (s.penalize key source).JobKeyed := by
  have atomic (p : NodeId) : ((s.penalize key source).node p).atomic = (s.node p).atomic :=
    (Arena.frame_rotate s.topology.arena source).atomic p
  refine ⟨?_, ?_, ?_⟩
  · intro other id found
    rw [sourceSet_penalize]
    exact keyed.entries other id found
  · intro p set other isSource own
    rw [sourceSet_penalize] at isSource
    rw [PhysicalNode.output, atomic]
    exact keyed.made p set (atomic p ▸ other) isSource own
  · intro p set other isSource user
    rw [sourceSet_penalize] at isSource
    rw [atomic]
    exact keyed.kept p set (atomic p ▸ other) isSource user

theorem JobKeyed.prune (keyed : s.JobKeyed)
    : s.prune.JobKeyed := by
  refine ⟨fun key id found => ?_, keyed.made, keyed.kept⟩
  rw [Session.prune, Table.get?_filter, Option.filter_eq_some_iff] at found
  exact keyed.entries key id found.1

/-- In every session that a run leads to, entries are sources, and those that read sets of the job's
have the keys of these.
-/
theorem steady_jobKeyed (g : Graph) (first : Session)
    : Steady fun _ s => ∃ followed, Reaches g first s followed ∧ s.JobKeyed :=
  steady_of_kept (P := fun _ _ s => s.JobKeyed)
    (fun reaches keyed _ course _ _ => keyed.commit reaches course)
    (fun keyed key source => keyed.penalize key source)
    (fun keyed => keyed.prune)

theorem Beginning.jobKeyed_of_waits {m : Session} (beginning : first.Beginning g)
    (calls : List (Call × Statistics)) (waits : (first.run calls).2.Waits m)
    : ∃ followed, Reaches g first m followed ∧ m.JobKeyed := by
  have steady := steady_jobKeyed g first
  have ran := steady.run ⟨[], beginning.reaches, beginning.jobKeyed⟩ calls
  exact @Steady.waits _ steady _ _ .empty ran waits

end DataflowPlan.Session
