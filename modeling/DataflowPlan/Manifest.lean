import DataflowPlan.Decimal.Reader
import DataflowPlan.Digest

/-!
Manifests: the record of a finished run, and the identifiers that tell records apart.
-/

namespace DataflowPlan

/-- An identifier of 128 bits. -/
structure Uuid where
  value : Nat
deriving DecidableEq, Inhabited

namespace Uuid

/-- The last `count` hexadecimal digits, with zeros in front. -/
def lastDigits : Nat → Nat → List Char
  | 0, _ => []
  | count + 1, value => lastDigits count (value / 16) ++ [Nat.digitChar (value % 16)]

/-- Puts hyphens between groups of 8, 4, 4, 4 and 12 digits. -/
def hyphenate (ds : List Char) : List Char :=
  ds.take 8 ++ '-' :: ((ds.drop 8).take 4 ++ '-' :: ((ds.drop 12).take 4 ++ '-' ::
    ((ds.drop 16).take 4 ++ '-' :: ds.drop 20)))

/-- Lower-case digits in five groups. -/
def display (id : Uuid) : String :=
  String.ofList (hyphenate (lastDigits 32 id.value))

/-- 32 digits without hyphens. -/
def ofDigits? (ds : List Char) : Option Uuid :=
  if ds.length = 32 then (Decimal.natOfDigits? 16 ds).map Uuid.mk else none

/-- 32 digits in five groups. -/
def ofGroups? (text : List Char) : Option Uuid :=
  let ds := text.filter (· ≠ '-')
  if text.length = 36 && hyphenate ds = text then ofDigits? ds else none

/-- What may stand before the groups, in letters of either case. -/
def leader : List Char :=
  ['u', 'r', 'n', ':', 'u', 'u', 'i', 'd', ':']

/-- Digits alone or in groups; groups may stand between braces or after the leader. -/
def ofText? (text : String) : Option Uuid :=
  let cs := text.toList
  match cs with
  | '\x7b' :: rest => if rest.getLast? = some '\x7d' then ofGroups? rest.dropLast else none
  | _ =>
    if (cs.take leader.length).map Char.toLower = leader then ofGroups? (cs.drop leader.length)
    else if cs.length = 32 then ofDigits? cs
    else ofGroups? cs

end Uuid

structure Manifest where
  id : Uuid
  jobId : String
  /-- The digest of all stages that were sent out, in order. -/
  planHash : Digest
  engineVersion : String
  stages : Nat
  increments : Nat
  setsCreated : Nat
  /-- Milliseconds since the epoch. -/
  startedMs : Nat
  finishedMs : Nat
deriving DecidableEq

namespace Manifest

/-- The version that is recorded with a run. -/
def currentVersion : String := "0.1.0"

/-- The record of a run that has just begun. -/
def begin (id : Uuid) (jobId : String) (planHash : Digest) (startedMs : Nat) : Manifest :=
  ⟨id, jobId, planHash, currentVersion, 0, 0, 0, startedMs, startedMs⟩

def finish (m : Manifest) (finishedMs : Nat) : Manifest :=
  { m with finishedMs }

end Manifest

end DataflowPlan
