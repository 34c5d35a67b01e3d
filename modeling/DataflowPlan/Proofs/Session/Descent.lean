import DataflowPlan.Proofs.Session.Run

/-! Where sessions come from: what a new session looks like, and what every session that a run leads
to still shares with it. The edges that were followed can be told from any such session.
-/

namespace DataflowPlan.Session

/-- A session in which nothing is planned yet: every source is registered under its own key. -/
structure Beginning (g : Graph) (s : Session) : Prop where
  graph : s.topology.graph = g
  mirrors : Arena.Mirrors g s.topology.arena
  registered
    : ∀ key id,
        s.sources.get? key = some id ↔ ∃ set, (s.node id).sourceSet = some set ∧ set.key = key

/-- The registry of scans holds each of them under the key of its set. -/
theorem registerScans_eq_ok {arena : Arena} {scans : List NodeId}
    {sources table : Table NodeId} (done : registerScans arena scans sources = .ok table)
    (key : String) (id : NodeId)
    : table.get? key = some id
        ↔ sources.get? key = some id
          ∨ id ∈ scans ∧ ∃ set, (arena.node id).sourceSet = some set ∧ set.key = key := by
  induction scans generalizing sources with
  | nil =>
      simp only [registerScans, Except.ok.injEq] at done
      simp [done]
  | cons head rest ih =>
      rw [registerScans] at done
      cases source : (arena.node head).sourceSet with
      | none => simp [source] at done
      | some set =>
          simp only [source] at done
          split at done
          · simp at done
          · next free =>
              rw [Table.contains_eq_isSome] at free
              rw [ih done, Table.get?_insert]
              by_cases same : key = set.key
              · have none : sources.get? key = none := by simpa [same] using free
                rw [if_pos same, none]
                constructor
                · rintro (here | ⟨member, found⟩)
                  · obtain rfl := Option.some.inj here
                    exact .inr ⟨by simp, set, source, same.symm⟩
                  · exact .inr ⟨by simp [member], found⟩
                · rintro (there | ⟨member, other, found, named⟩)
                  · simp at there
                  · rcases List.mem_cons.mp member with rfl | later
                    · exact .inl rfl
                    · exact .inr ⟨later, other, found, named⟩
              · rw [if_neg same]
                refine or_congr_right ?_
                constructor
                · rintro ⟨member, found⟩
                  exact ⟨by simp [member], found⟩
                · rintro ⟨member, other, found, named⟩
                  rcases List.mem_cons.mp member with rfl | later
                  · obtain rfl := Option.some.inj (source.symm.trans found)
                    exact absurd named.symm same
                  · exact ⟨later, other, found, named⟩

/-- A session that starts has everything in place, and its settings are those it was given. -/
theorem beginning_of_start {jobId : String} {g : Graph} {config : PlannerConfig} {s : Session}
    (started : Session.start jobId g config = .ok s)
    : s.Beginning g ∧ s.jobId = jobId ∧ s.config = config ∧ s.nextStage = ⟨0⟩ := by
  simp only [Session.start, Except.bind_eq_ok, Except.pure_eq, Except.ok.injEq] at started
  obtain ⟨⟨⟩, -, ⟨arena, scans⟩, built, sources, registered, rfl⟩ := started
  obtain ⟨mirrors, inside, atomics⟩ := Arena.mirrors_of_ofGraph built
  refine ⟨⟨rfl, mirrors, ?_⟩, rfl, rfl, rfl⟩
  intro key id
  rw [registerScans_eq_ok registered]
  constructor
  · rintro (none | ⟨-, found⟩)
    · simp at none
    · exact found
  · rintro ⟨set, source, named⟩
    refine .inr ⟨?_, set, source, named⟩
    -- a node with a set is a scan, and the scans are the places given
    have there : arena.Has id := by
      by_contra outside
      rw [node, Arena.node_of_not_has outside] at source
      simp [default, instInhabitedPhysicalNode.default] at source
    have scan : (arena.node id).atomic.kind = .scan := by
      by_contra other
      have fits := mirrors.sources id there
      rw [Arena.SourceFits, if_neg other] at fits
      rw [node, fits] at source
      simp at source
    have listed : (arena.node id).atomic ∈ g.scans :=
      List.mem_filter.mpr ⟨mirrors.known id there, by simpa using scan⟩
    rw [← atomics] at listed
    obtain ⟨other, member, same⟩ := List.mem_map.mp listed
    exact mirrors.sound.id_eq (inside other member) there (congrArg Atomic.output same) ▸ member

/-- A node that is a source stands in the arena. -/
theorem has_of_source {s : Session} {p : NodeId} {set : SetId}
    (isSource : (s.node p).sourceSet = some set)
    : s.topology.arena.Has p := by
  by_contra outside
  rw [node, Arena.node_of_not_has outside] at isSource
  simp [default, instInhabitedPhysicalNode.default] at isSource

/-- At the beginning the sets that pipelines can start from are those that scans name. -/
theorem Beginning.exists_scan {g : Graph} {s : Session} (beginning : s.Beginning g) {p : NodeId}
    {set : SetId} (isSource : (s.node p).sourceSet = some set)
    : ∃ c,
        (s.node p).atomic.kind = .scan
        ∧ g.computation (s.node p).atomic.computation = .ok c
        ∧ c.set? = some set := by
  have fits := beginning.mirrors.sources p (has_of_source isSource)
  unfold Arena.SourceFits at fits
  split at fits
  · next scan =>
      obtain ⟨c, scanned, found, reads, here⟩ := fits
      obtain rfl := Option.some.inj (isSource.symm.trans here)
      exact ⟨c, scan, found, Computation.set?_of_sourceSet reads⟩
  · rw [node, fits] at isSource
    simp at isSource

/-- At the beginning no join is started. -/
theorem Beginning.not_started {g : Graph} {s : Session} (beginning : s.Beginning g) (p : NodeId)
    (strategy : JoinStrategy) (hashSet : String)
    : ¬ (s.node p).IsStarted strategy hashSet := by
  intro started
  rw [PhysicalNode.IsStarted, node] at started
  by_cases inside : s.topology.arena.Has p
  · rw [beginning.mirrors.unstarted p inside] at started
    cases atomic : (s.topology.arena.node p).atomic.kind <;>
      simp [atomic, NodeKind.ofAtomic] at started
  · rw [Arena.node_of_not_has inside] at started
    simp [default, instInhabitedPhysicalNode.default, instInhabitedNodeKind.default] at started

/-- What a later session shares with the one it comes from. -/
structure Descends (s first : Session) : Prop where
  jobId : s.jobId = first.jobId
  config : s.config = first.config
  frame : s.topology.arena.Frame first.topology.arena

theorem Descends.refl (s : Session) : s.Descends s :=
  ⟨rfl, rfl, .refl _⟩

theorem Descends.commit {first s : Session} {stats : Statistics} {skip : List String}
    {key : String} {source : NodeId} {reached : StageId} {segment : Segment}
    (descends : s.Descends first)
    (done : s.Committed stats skip key source reached segment)
    : (s.commit key source reached segment).Descends first := by
  obtain ⟨init, last, course⟩ := done.course
  obtain ⟨jobId, config⟩ := settings_commit s key source reached segment
  refine ⟨jobId.trans descends.jobId, config.trans descends.config, ?_⟩
  rw [topology_commit]
  exact course.frame.trans descends.frame

theorem Descends.penalize {first s : Session} (descends : s.Descends first) (key : String)
    (source : NodeId)
    : (s.penalize key source).Descends first :=
  ⟨descends.jobId, descends.config, (Arena.frame_rotate _ source).trans descends.frame⟩

theorem Descends.prune {first s : Session} (descends : s.Descends first)
    : s.prune.Descends first :=
  ⟨descends.jobId, descends.config, descends.frame⟩

/-- A later session with the edges that were followed on the way to it. -/
structure Reaches (g : Graph) (first s : Session) (followed : List Arena.Edge) : Prop where
  descends : s.Descends first
  wired : Arena.Wired g s.topology.arena
  ledger : s.topology.arena.Ledger followed

theorem Reaches.commit {g : Graph} {first s : Session} {followed : List Arena.Edge}
    {stats : Statistics} {skip : List String} {key : String} {source : NodeId}
    {reached : StageId} {segment : Segment} (reaches : Reaches g first s followed)
    (done : s.Committed stats skip key source reached segment) {init : List NodeId} {last : NodeId}
    (course : (s.view stats).Course source init last segment)
    : Reaches g first (s.commit key source reached segment)
        (followed ++ links (Arena.coursePath source init last)) := by
  refine ⟨reaches.descends.commit done, ?_, ?_⟩
  · rw [topology_commit]
    exact reaches.wired.of_frame course.frame
  · rw [topology_commit]
    exact Arena.Ledger.planned (v := s.view stats) reaches.wired reaches.ledger course

theorem Reaches.penalize {g : Graph} {first s : Session} {followed : List Arena.Edge}
    (reaches : Reaches g first s followed) (key : String) (source : NodeId)
    : Reaches g first (s.penalize key source) followed :=
  ⟨reaches.descends.penalize key source, reaches.wired.of_frame (Arena.frame_rotate _ source),
    reaches.ledger.rotate source⟩

theorem Reaches.prune {g : Graph} {first s : Session} {followed : List Arena.Edge}
    (reaches : Reaches g first s followed)
    : Reaches g first s.prune followed :=
  ⟨reaches.descends.prune, reaches.wired, reaches.ledger⟩

theorem Beginning.reaches {g : Graph} {s : Session} (beginning : s.Beginning g)
    : Reaches g s s [] :=
  ⟨.refl s, beginning.mirrors.toWired, beginning.mirrors.ledger⟩

/-- What planned pipelines, refusals and clean-ups keep of sessions and their ledgers, every run
keeps.
Witness: each of them leads on to a ledger as well.
-/
theorem steady_of_kept {g : Graph} {first : Session}
    {P : List Arena.Edge → Increment → Session → Prop}
    (commit
      : ∀ {followed out s stats skip key source reached segment init last set inner},
          Reaches g first s followed →
            P followed out s →
              s.Committed stats skip key source reached segment →
                (s.view stats).Course source init last segment →
                  (s.view stats).Pipeline s.nextStage ((s.view stats).sourceDraft source set)
                    source (init ++ [last]) inner →
                    segment = inner.through source →
                      P (followed ++ links (Arena.coursePath source init last))
                        (out.append ⟨segment.stages, segment.intermediateSets⟩)
                        (s.commit key source reached segment))
    (penalize
      : ∀ {followed out s},
          P followed out s → ∀ key source, P followed out (s.penalize key source))
    (prune : ∀ {followed out s}, P followed out s → P followed out s.prune)
    : Steady fun out s => ∃ followed, Reaches g first s followed ∧ P followed out s := by
  refine steady_of_commit ?_ ?_ ?_
  · rintro out s stats skip key source reached segment ⟨followed, reaches, holds⟩ done
    obtain ⟨init, last, set, inner, course, -, pipeline, whole⟩ :=
      View.pipeline_of_analyze done.planned
    exact ⟨_, reaches.commit done course, commit reaches holds done course pipeline whole⟩
  · rintro out s ⟨followed, reaches, holds⟩ key source
    exact ⟨followed, reaches.penalize key source, penalize holds key source⟩
  · rintro out s ⟨followed, reaches, holds⟩
    exact ⟨followed, reaches.prune, prune holds⟩

theorem Beginning.reaches_of_waits {g : Graph} {first m : Session} (beginning : first.Beginning g)
    (calls : List (Call × Statistics)) (waits : (first.run calls).2.Waits m)
    : ∃ followed, Reaches g first m followed := by
  have steady : Steady fun _ s => ∃ followed, Reaches g first s followed ∧ True :=
    steady_of_kept (P := fun _ _ _ => True) (fun _ _ _ _ _ _ => trivial) (fun _ _ _ => trivial)
      fun _ => trivial
  have ran := steady.run ⟨[], beginning.reaches, trivial⟩ calls
  obtain ⟨followed, reaches, -⟩ := @Steady.waits _ steady _ _ .empty ran waits
  exact ⟨followed, reaches⟩

/-- A later session whose computations are filed under their own names: of each of them it keeps all
but where the output goes and how it is joined.
-/
structure ReachesNamed (g : Graph) (first s : Session) (followed : List Arena.Edge) : Prop
    extends Reaches g first s followed where
  kept : s.topology.graph.Kept first.topology.graph
  named : s.topology.graph.Named

theorem ReachesNamed.commit {g : Graph} {first s : Session} {followed : List Arena.Edge}
    {stats : Statistics} {skip : List String} {key : String} {source : NodeId}
    {reached : StageId} {segment : Segment} (reaches : ReachesNamed g first s followed)
    (done : s.Committed stats skip key source reached segment) {init : List NodeId} {last : NodeId}
    (course : (s.view stats).Course source init last segment)
    : ReachesNamed g first (s.commit key source reached segment)
        (followed ++ links (Arena.coursePath source init last)) := by
  refine ⟨reaches.toReaches.commit done course, ?_, ?_⟩
  · rw [topology_commit]
    exact (course.kept reaches.named).trans reaches.kept
  · rw [topology_commit]
    exact course.named reaches.named

theorem Beginning.reachesNamed {g : Graph} {s : Session} (beginning : s.Beginning g)
    (named : g.Named)
    : ReachesNamed g s s [] :=
  ⟨beginning.reaches, .refl _, beginning.graph ▸ named⟩

/-- The same for sessions whose computations are filed under their own names. -/
theorem steady_of_named {g : Graph} {first : Session}
    {P : List Arena.Edge → Increment → Session → Prop}
    (commit
      : ∀ {followed out s stats skip key source reached segment init last set inner},
          ReachesNamed g first s followed →
            P followed out s →
              s.Committed stats skip key source reached segment →
                (s.view stats).Course source init last segment →
                  (s.view stats).Pipeline s.nextStage ((s.view stats).sourceDraft source set)
                    source (init ++ [last]) inner →
                    segment = inner.through source →
                      P (followed ++ links (Arena.coursePath source init last))
                        (out.append ⟨segment.stages, segment.intermediateSets⟩)
                        (s.commit key source reached segment))
    (penalize
      : ∀ {followed out s},
          P followed out s → ∀ key source, P followed out (s.penalize key source))
    (prune : ∀ {followed out s}, P followed out s → P followed out s.prune)
    : Steady fun out s => ∃ followed, ReachesNamed g first s followed ∧ P followed out s := by
  have both : Steady fun out s =>
      ∃ followed,
        Reaches g first s followed ∧ ReachesNamed g first s followed ∧ P followed out s := by
    refine steady_of_kept
      (P := fun followed out s => ReachesNamed g first s followed ∧ P followed out s) ?_ ?_ ?_
    · rintro _ _ _ _ _ _ _ _ _ _ _ _ _ - ⟨reaches, holds⟩ done course pipeline whole
      exact ⟨reaches.commit done course, commit reaches holds done course pipeline whole⟩
    · rintro _ _ _ ⟨reaches, holds⟩ key source
      exact ⟨⟨reaches.penalize key source, reaches.kept, reaches.named⟩,
        penalize holds key source⟩
    · rintro _ _ _ ⟨reaches, holds⟩
      exact ⟨⟨reaches.prune, reaches.kept, reaches.named⟩, prune holds⟩
  have same : ∀ out s,
      (∃ followed,
          Reaches g first s followed ∧ ReachesNamed g first s followed ∧ P followed out s)
        ↔ ∃ followed, ReachesNamed g first s followed ∧ P followed out s :=
    fun out s => exists_congr fun followed => and_iff_right_of_imp fun named => named.1.toReaches
  simpa only [same] using both

end DataflowPlan.Session
