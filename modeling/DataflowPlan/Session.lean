import DataflowPlan.Analysis
import DataflowPlan.Arena.Construction
import DataflowPlan.Plan

/-!
Planning sessions. A session keeps the sources that pipelines can start from, plans the cheapest
one first, and penalizes a source whose pipeline is refused. Within one increment no source is
tried again while another one is untried.
-/

namespace DataflowPlan

structure Session where
  jobId : String
  config : PlannerConfig
  topology : Topology
  /-- The nodes that pipelines can start from, by the keys of the sets they read. -/
  sources : Table NodeId
  /-- The keys of sources that were refused at some time. -/
  penalized : KeySet
  nextStage : StageId
deriving DecidableEq

namespace Session

-----------------------------------------------------------------------------------------------
-- Beginning

/-- Registers scans in turn; no two may read one set. -/
def registerScans (arena : Arena) : List NodeId → Table NodeId → Except Error (Table NodeId)
  | [], sources => .ok sources
  | id :: rest, sources =>
    match (arena.node id).sourceSet with
    | none => .error (.violation (.notASource (arena.node id).output))
    | some set =>
      if sources.contains set.key then .error (.graph (.scannedTwice set.key))
      else registerScans arena rest (sources.insert set.key id)

/-- A session in which nothing is planned yet. -/
def start (jobId : String) (graph : Graph) (config : PlannerConfig) : Except Error Session := do
  config.validate
  let (arena, scans) ← Arena.ofGraph graph
  let sources ← registerScans arena scans ∅
  pure {
    jobId, config, sources
    topology := ⟨graph, arena⟩
    penalized := ∅
    nextStage := ⟨0⟩
  }

-----------------------------------------------------------------------------------------------
-- Sources

def node (s : Session) (id : NodeId) : PhysicalNode := s.topology.arena.node id

/-- A source of which some consumer is not planned. -/
def isLive (s : Session) (id : NodeId) : Bool := (s.node id).hasConsumers

/-- Some registered source has consumers to plan. -/
def hasSources (s : Session) : Bool :=
  s.sources.values.any s.isLive

/-- The source registered under the key has consumers to plan. -/
def hasConsumers (s : Session) (key : String) : Bool :=
  match s.sources.get? key with
  | some id => s.isLive id
  | none => false

/-- The join state of the join that makes the tuple set. -/
def join? (s : Session) (output : String) : Option JoinState :=
  (s.topology.arena.lookup output).bind fun id => (s.node id).join?

/-- The cost of a source for ranking: that of its set, times the penalty factor if penalized. -/
def rankingCost (s : Session) (stats : Statistics) (key : String) (id : NodeId) : Float :=
  let cost := (s.node id).cost stats
  if s.penalized.contains key then cost * s.config.penaltyFactor else cost

/-- The place of a source among others. -/
structure Rank where
  skipped : Bool
  cost : Float
  penalized : Bool

/-- Sources that are not skipped come first, then those of lower cost, then unpenalized ones. -/
def Rank.before (a b : Rank) : Bool :=
  if a.skipped != b.skipped then !a.skipped
  else if a.cost != b.cost then a.cost < b.cost
  else !a.penalized && b.penalized

def rank (s : Session) (stats : Statistics) (skip : List String) (key : String) (id : NodeId)
    : Rank :=
  ⟨skip.contains key, s.rankingCost stats key id, s.penalized.contains key⟩

/-- The live sources with their keys, in key order. -/
def liveSources (s : Session) : List (String × NodeId) :=
  s.sources.entries.filter fun (_, id) => s.isLive id

def liveKeys (s : Session) : List String :=
  s.liveSources.map Prod.fst

/-- The better of the best source so far and one more; on equal rank the earlier one. -/
def better (s : Session) (stats : Statistics) (skip : List String)
    (best : Option (String × NodeId)) (source : String × NodeId) : Option (String × NodeId) :=
  match best with
  | none => some source
  | some earlier =>
    if (s.rank stats skip source.1 source.2).before (s.rank stats skip earlier.1 earlier.2) then
      some source
    else some earlier

/-- The live source of the best rank; skipped ones only if there is no other. -/
def pick (s : Session) (stats : Statistics) (skip : List String) : Option (String × NodeId) :=
  s.liveSources.foldl (s.better stats skip) none

/-- The live source of the best rank. -/
def bestSource (s : Session) (stats : Statistics) : Option (String × NodeId) :=
  s.pick stats []

/-- Drops sources without consumers to plan. -/
def prune (s : Session) : Session :=
  { s with sources := s.sources.filter fun _ id => s.isLive id }

-----------------------------------------------------------------------------------------------
-- Attempts

/-- What an attempt to plan one pipeline comes to. -/
inductive Attempt
  | planned (increment : Increment)
  | refused (key : String)
  /-- There is no live source. -/
  | idle
  | failed (error : Error)
deriving DecidableEq

def view (s : Session) (stats : Statistics) : View :=
  ⟨s.jobId, s.config, stats, s.topology⟩

/-- Makes the segment's new source known, in place of any other of its key. -/
def register (s : Session) (segment : Segment) : Session :=
  match segment.newSource with
  | some (id, set) => { s with sources := s.sources.insert set.key id }
  | none => s

/-- The source is dropped once all its consumers are planned. -/
def dropIfExhausted (s : Session) (key : String) (source : NodeId) : Session :=
  if s.isLive source then s else { s with sources := s.sources.erase key }

/-- The session after a pipeline is planned. -/
def commit (s : Session) (key : String) (source : NodeId) (reached : StageId)
    (segment : Segment) : Session :=
  let s := { s with topology := segment.apply s.topology, nextStage := reached }
  (s.register segment).dropIfExhausted key source

/-- The session after a source is refused: it is penalized, and its next consumer goes to the
back.
-/
def penalize (s : Session) (key : String) (source : NodeId) : Session :=
  { s with
    topology := { s.topology with arena := s.topology.arena.rotate source }
    penalized := s.penalized.add key }

/-- One attempt, from the best source. -/
def attempt (s : Session) (stats : Statistics) (skip : List String) : Attempt × Session :=
  match s.pick stats skip with
  | none => (.idle, s)
  | some (key, source) =>
    let analysis := (s.view stats).analyze source s.nextStage
    match analysis.verdict with
    | .planned segment =>
      (.planned ⟨segment.stages, segment.intermediateSets⟩,
        s.commit key source analysis.reached segment)
    | .refused => (.refused key, s.penalize key source)
    | .failed error => (.failed error, s)

/-- One attempt that adds to an increment. It tells whether a pipeline was planned. -/
def nextStages (s : Session) (stats : Statistics) (out : Increment)
    : Except Error Bool × Increment × Session :=
  match s.attempt stats [] with
  | (.planned increment, s) => (.ok true, out.append increment, s)
  | (.refused _, s) | (.idle, s) => (.ok false, out, s)
  | (.failed error, s) => (.error error, out, s)

-----------------------------------------------------------------------------------------------
-- Increments

/-- The sources to skip after one more refusal: none once every live one was refused. -/
def nextSkip (s : Session) (refused : List String) : List String :=
  if s.liveKeys.all refused.contains then [] else refused

/-- Attempts until one succeeds, with at most `left` refusals before the last one. -/
def retry (stats : Statistics) : (left refusals : Nat) → List String → Session
    → Except Error Increment × Session
  | left, refusals, skip, s =>
    if !s.hasSources then (.ok .empty, s)
    else
      match s.attempt stats skip with
      | (.planned increment, s) => (.ok increment, s)
      | (.idle, s) => (.ok .empty, s)
      | (.failed error, s) => (.error error, s)
      | (.refused key, s) =>
        match left with
        | 0 => (.error (.stalled (refusals + 1) s.sources.keys), s)
        | left + 1 => retry stats left (refusals + 1) (s.nextSkip (key :: skip)) s

/-- The consumers to plan over all sources: no order of attempts has more of them to try. -/
def budget (s : Session) : Nat :=
  s.sources.values.foldr (fun id total => (s.node id).active.length + total) 0

/-- Plans the next pipeline; fails when every source keeps refusing. -/
def planIncrement (s : Session) (stats : Statistics) : Except Error Increment × Session :=
  let s := s.prune
  retry stats s.budget 0 [] s

/-- Increments until no source is left. Each takes at least one consumer off the arena, so
`fuel` is enough if no more than that many are to plan.
-/
def planWithin (stats : Statistics) : Nat → Plan → Session → Except Error Plan × Session
  | 0, plan, s => (.ok plan, s.prune)
  | fuel + 1, plan, s =>
    if !s.hasSources then (.ok plan, s.prune)
    else
      match s.planIncrement stats with
      | (.ok increment, s) => planWithin stats fuel (plan.extend increment) s
      | (.error error, s) => (.error error, s)

/-- Plans all that is left of the job with fixed statistics. -/
def planAll (s : Session) (stats : Statistics) : Except Error Plan × Session :=
  planWithin stats s.topology.arena.activeCount (.ofJob s.jobId) s

end Session

/-- Plans a job in one go. -/
def planJob (jobId : String) (graph : Graph) (config : PlannerConfig) (stats : Statistics)
    : Except Error Plan := do
  let session ← Session.start jobId graph config
  (session.planAll stats).1

end DataflowPlan
