/-!
Records: values with named fields, as they stand in a text. Fields are given by name, or by place
in the order of the names.
-/

namespace DataflowPlan

variable {ν α : Type} {m : Type → Type} [Alternative m]

/-- What a record holds for one of its fields. -/
inductive Field (ν : Type)
  | given (value : ν)
  /-- No member has this name. -/
  | absent
  /-- The list ends before this field. -/
  | beyond

namespace Field

/-- A field that has to be given. -/
def required (decode : ν → m α) : Field ν → m α
  | .given v => decode v
  | .absent | .beyond => failure

/-- A field with a default. -/
def orElse (default : α) (decode : ν → m α) : Field ν → m α
  | .given v => decode v
  | .absent | .beyond => pure default

/-- A field without a default that may be left out where fields have names. -/
def nullable (decode : ν → m (Option α)) : Field ν → m (Option α)
  | .given v => decode v
  | .absent => pure none
  | .beyond => failure

/-- The item at each place of a list, as long as the names go. -/
def placed : List String → List ν → List (Field ν)
  | [], _ => []
  | _ :: names, [] => .beyond :: placed names []
  | _ :: names, item :: items => .given item :: placed names items

/-- The fields of a list that has no more items than there are names. -/
def ofItems? (names : List String) (items : List ν) : Option (List (Field ν)) :=
  if items.length ≤ names.length then some (placed names items) else none

/-- The field of a name among members; none if the name stands there twice. -/
def named? (members : List (String × ν)) (name : String) : Option (Field ν) :=
  match members.filter (·.1 == name) with
  | [] => some .absent
  | [(_, v)] => some (.given v)
  | _ => none

/-- The fields of members, in the order of the names. Members of other names do not count. -/
def ofMembers? (names : List String) (members : List (String × ν)) : Option (List (Field ν)) :=
  names.mapM (named? members)

end Field

end DataflowPlan
