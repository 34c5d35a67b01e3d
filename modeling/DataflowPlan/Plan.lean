import DataflowPlan.Error
import DataflowPlan.Stage

/-!
Plans: the stages of a job in the order in which they run, and the sets that have to exist before
they do. A plan is in order when each stage finds what it reads and probes.
-/

namespace DataflowPlan

/-- What one round of planning adds to a plan. -/
structure Increment where
  stages : List Stage
  /-- Sets that have to exist before the stages run. -/
  intermediateSets : List SetId
deriving DecidableEq, Inhabited

namespace Increment

def empty : Increment := ⟨[], []⟩

def isEmpty (i : Increment) : Bool := i.stages.isEmpty

def append (i j : Increment) : Increment :=
  ⟨i.stages ++ j.stages, i.intermediateSets ++ j.intermediateSets⟩

end Increment

structure Plan where
  jobId : String
  stages : List Stage
  intermediateSets : List SetId
deriving DecidableEq, Inhabited

namespace Plan

def ofJob (jobId : String) : Plan := ⟨jobId, [], []⟩

def extend (p : Plan) (i : Increment) : Plan :=
  { p with
    stages := p.stages ++ i.stages
    intermediateSets := p.intermediateSets ++ i.intermediateSets }

-----------------------------------------------------------------------------------------------
-- Order

/-- What the stages so far have left. -/
structure Progress where
  last : Option StageId
  written : List String
  built : List String

namespace Progress

def start : Progress := ⟨none, [], []⟩

/-- The progress after one more stage. -/
def add (p : Progress) (s : Stage) : Progress :=
  ⟨some s.id, (s.sink?.map SetId.key).toList ++ p.written, s.built?.toList ++ p.built⟩

/-- The stage's identifier is above the last one. -/
def checkId (p : Progress) (s : Stage) : Except Error Unit :=
  match p.last with
  | some last =>
    if last < s.id then .ok () else .error (.violation (.outOfOrder s.id last))
  | none => .ok ()

/-- A set that is not the user's is read after it is written. -/
def checkSource (p : Progress) (s : Stage) : Except Error Unit :=
  if s.source.kind == .user || p.written.contains s.source.key then .ok ()
  else .error (.violation (.unwritten s.id s.source.key))

/-- Hash sets are probed after they are built. -/
def checkProbes (p : Progress) (s : Stage) : Except Error Unit :=
  match s.probed.find? (!p.built.contains ·) with
  | some hashSet => .error (.violation (.unbuilt s.id hashSet))
  | none => .ok ()

/-- The first fault of a stage that comes next. -/
def check (p : Progress) (s : Stage) : Except Error Unit := do
  p.checkId s
  p.checkSource s
  p.checkProbes s

/-- The first fault of stages that come next. -/
def checkAll : Progress → List Stage → Except Error Unit
  | _, [] => .ok ()
  | p, s :: rest => do
    p.check s
    checkAll (p.add s) rest

end Progress

/-- The first stage of the plan that comes too early, if there is one. -/
def checkOrder (p : Plan) : Except Error Unit :=
  Progress.start.checkAll p.stages

end Plan

end DataflowPlan
