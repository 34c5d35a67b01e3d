import DataflowPlan.SetId
import DataflowPlan.Table

/-!
Statistics: what is known of the size of sets, and the cost of reading one, which is its size in
whole megabytes. Sets of one key share one entry.
-/

namespace DataflowPlan

/-- What is known of one set. -/
structure SetStats where
  pages : Nat
  pageSize : Nat
  bytes : Nat
  tuples : Nat
  tupleSize : Nat
deriving DecidableEq, Inhabited

/-- A set of which nothing is known yet. -/
def SetStats.unknown : SetStats := ⟨0, 0, 0, 0, 0⟩

structure Statistics where
  sets : Table SetStats
deriving DecidableEq

namespace Statistics

def empty : Statistics := ⟨∅⟩

instance : Inhabited Statistics where
  default := empty

def get? (stats : Statistics) (database name : String) : Option SetStats :=
  stats.sets.get? (setKey database name)

def bytes? (stats : Statistics) (database name : String) : Option Nat :=
  (stats.get? database name).map SetStats.bytes

/-- Changes the entry of a set, which starts as unknown. -/
def update (stats : Statistics) (database name : String) (change : SetStats → SetStats)
    : Statistics :=
  let entry := (stats.get? database name).getD .unknown
  ⟨stats.sets.insert (setKey database name) (change entry)⟩

def setBytes (stats : Statistics) (database name : String) (bytes : Nat) : Statistics :=
  stats.update database name fun entry => { entry with bytes }

def setPages (stats : Statistics) (database name : String) (pages : Nat) : Statistics :=
  stats.update database name fun entry => { entry with pages }

def setPageSize (stats : Statistics) (database name : String) (pageSize : Nat) : Statistics :=
  stats.update database name fun entry => { entry with pageSize }

def setTuples (stats : Statistics) (database name : String) (tuples : Nat) : Statistics :=
  stats.update database name fun entry => { entry with tuples }

def setTupleSize (stats : Statistics) (database name : String) (tupleSize : Nat) : Statistics :=
  stats.update database name fun entry => { entry with tupleSize }

def removeSet (stats : Statistics) (database name : String) : Statistics :=
  ⟨stats.sets.erase (setKey database name)⟩

/-- Adds the pages of one report; the page size is that of the last report. -/
def recordPages (stats : Statistics) (database name : String) (pages pageSize : Nat)
    : Statistics :=
  stats.update database name fun entry =>
    { entry with
      pages := entry.pages + pages
      pageSize
      bytes := entry.bytes + pages * pageSize }

/-- The size of a set in whole megabytes, 0 for an unlisted set. -/
def megabytes (stats : Statistics) (database name : String) : Nat :=
  (stats.bytes? database name).getD 0 / 1000000

/-- The cost of reading a set. -/
def cost (stats : Statistics) (database name : String) : Float :=
  Float.ofNat (stats.megabytes database name)

def costOf (stats : Statistics) (set : SetId) : Float :=
  stats.cost set.database set.name

end Statistics

end DataflowPlan
