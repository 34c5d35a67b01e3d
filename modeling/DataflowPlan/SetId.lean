/-!
Sets: named collections on the cluster that stages read and write. A set is addressed by its
database and its name, and its key joins the two with a colon.
-/

namespace DataflowPlan

inductive SetKind
  /-- Kept for the user. -/
  | user
  /-- Made for one job and removed once nothing reads it. -/
  | intermediate
  /-- A partitioned hash table that stays in memory between two stages. -/
  | partitionedHash
deriving DecidableEq, Inhabited

structure SetId where
  database : String
  name : String
  pageSize : Option Nat
  kind : SetKind
  /-- The output of an uncombined aggregation, which can be read once. -/
  isAggregationResult : Bool
deriving DecidableEq, Inhabited

/-- The key of a set: database, colon, name. -/
def setKey (database name : String) : String :=
  database ++ ":" ++ name

namespace SetId

/-- A set of the user's. -/
def user (database name : String) : SetId :=
  ⟨database, name, none, .user, false⟩

/-- A set of a job's, with its page size. -/
def intermediate (database name : String) (pageSize : Nat) : SetId :=
  ⟨database, name, some pageSize, .intermediate, false⟩

/-- The hash table that an aggregation leaves to its only consumer. -/
def aggregationResult (database name : String) : SetId :=
  ⟨database, name, none, .partitionedHash, true⟩

def withPageSize (set : SetId) (pageSize : Nat) : SetId :=
  { set with pageSize := some pageSize }

def key (set : SetId) : String :=
  setKey set.database set.name

def isIntermediate (set : SetId) : Bool :=
  set.kind == .intermediate

end SetId

end DataflowPlan
