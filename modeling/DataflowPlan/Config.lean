import DataflowPlan.Decimal.Reader
import DataflowPlan.Error
import DataflowPlan.Text.Blank

/-!
Planner settings: page sizes, the cost above which a join side is split by key, and the factor on
the cost of a source that was refused.
-/

namespace DataflowPlan

/-- Named text values that a program is started with. -/
abbrev Environment := List (String × String)

namespace Environment

/-- The value of a variable without blanks around it, if it has the form. -/
def read? {α : Type} (env : Environment) (name : String) (form : List Char → Option α)
    : Option α :=
  match env.find? (·.1 == name) with
  | some (_, value) => form (Text.trim value.toList)
  | none => none

/-- An unsigned integer of 64 bits. -/
def word? (env : Environment) (name : String) : Option Nat :=
  env.read? name Decimal.plusWord?

/-- A floating-point number. -/
def float? (env : Environment) (name : String) : Option Float :=
  env.read? name Decimal.float?

end Environment

structure PlannerConfig where
  /-- Page size of sets that a pipeline is materialized in. -/
  pageSize : Nat
  /-- Page size of data that is broadcast or split for a join. -/
  broadcastPageSize : Nat
  /-- Page size of data that is shuffled for an aggregation. -/
  shufflePageSize : Nat
  /-- A join side of higher cost is split by key, any other is broadcast. -/
  joinThreshold : Float
  /-- Multiplies the cost of a penalized source when sources are ranked. -/
  penaltyFactor : Float
deriving DecidableEq

namespace PlannerConfig

/-- 64 MiB. -/
def defaultPageSize : Nat := 67108864

def standard : PlannerConfig where
  pageSize := defaultPageSize
  broadcastPageSize := defaultPageSize
  shufflePageSize := defaultPageSize
  joinThreshold := 15000.0
  penaltyFactor := 1000.0

instance : Inhabited PlannerConfig where
  default := standard

/-- The standard settings, changed by the variables that are set and have the right form. -/
def ofEnvironment (env : Environment) : PlannerConfig where
  pageSize := (env.word? "STAGEPLAN_PAGE_SIZE").getD standard.pageSize
  broadcastPageSize := (env.word? "STAGEPLAN_BROADCAST_PAGE_SIZE").getD standard.broadcastPageSize
  shufflePageSize := (env.word? "STAGEPLAN_SHUFFLE_PAGE_SIZE").getD standard.shufflePageSize
  joinThreshold := (env.float? "STAGEPLAN_BROADCAST_JOIN_THRESHOLD").getD standard.joinThreshold
  penaltyFactor := (env.float? "STAGEPLAN_SOURCE_PENALTY").getD standard.penaltyFactor

/-- Pages have a size, the threshold is positive and the penalty at least 1. -/
def validate (config : PlannerConfig) : Except Error Unit :=
  if config.pageSize = 0 || config.broadcastPageSize = 0 || config.shufflePageSize = 0 then
    .error (.config .emptyPage)
  else if !(config.joinThreshold > 0.0) then
    .error (.config (.threshold config.joinThreshold))
  else if !(config.penaltyFactor ≥ 1.0) then
    .error (.config (.penalty config.penaltyFactor))
  else .ok ()

end PlannerConfig

end DataflowPlan
