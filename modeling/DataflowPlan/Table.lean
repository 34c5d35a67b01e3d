/-!
Tables: values under text keys, kept in key order. Keys compare code point by code point, which is
also the byte order of their UTF-8 form. Main statements: each operation read through `get?`.
-/

namespace DataflowPlan

/-- Entries strictly ascend by key. -/
abbrev Ascending {α : Type} (entries : List (String × α)) : Prop :=
  entries.Pairwise (fun a b => a.1 < b.1)

/-- Values under text keys, in key order and each key once. -/
structure Table (α : Type) where
  entries : List (String × α)
  ascending : Ascending entries
deriving DecidableEq

namespace Table

variable {α β : Type}

@[ext]
theorem ext {left right : Table α} (h : left.entries = right.entries)
    : left = right := by
  cases left; cases right; simp_all

instance : EmptyCollection (Table α) where
  emptyCollection := ⟨[], .nil⟩

instance : Inhabited (Table α) where
  default := ∅

-----------------------------------------------------------------------------------------------
-- Insertion

/-- Puts a value at its key's place, instead of any value that stands there. -/
def insertEntry (key : String) (value : α) : List (String × α) → List (String × α)
  | [] => [(key, value)]
  | (k, v) :: rest =>
    if key < k then (key, value) :: (k, v) :: rest
    else if k < key then (k, v) :: insertEntry key value rest
    else (key, value) :: rest

/-- An insertion adds at most the inserted entry. -/
theorem mem_insertEntry {key : String} {value : α} {entry : String × α}
    {entries : List (String × α)} (member : entry ∈ insertEntry key value entries)
    : entry = (key, value) ∨ entry ∈ entries := by
  induction entries with
  | nil => simpa [insertEntry] using member
  | cons head rest ih =>
    simp only [insertEntry] at member
    split at member
    · simpa using member
    · split at member
      · rcases List.mem_cons.1 member with h | h
        · exact .inr (h ▸ List.mem_cons_self)
        · exact (ih h).imp_right (List.mem_cons_of_mem _)
      · rcases List.mem_cons.1 member with h | h
        · exact .inl h
        · exact .inr (List.mem_cons_of_mem _ h)

/-- Keys that are neither below nor above each other are equal. -/
theorem key_eq_of_not_lt {a b : String} (h : ¬ a < b) (h' : ¬ b < a)
    : a = b :=
  String.le_antisymm (String.not_lt.1 h') (String.not_lt.1 h)

/-- Insertion keeps the key order. -/
theorem ascending_insertEntry (key : String) (value : α) {entries : List (String × α)}
    (h : Ascending entries)
    : Ascending (insertEntry key value entries) := by
  induction entries with
  | nil => simp [insertEntry]
  | cons head rest ih =>
    obtain ⟨below, h⟩ := List.pairwise_cons.1 h
    simp only [insertEntry]
    split
    · rename_i before
      refine List.pairwise_cons.2 ⟨fun entry member => ?_, List.pairwise_cons.2 ⟨below, h⟩⟩
      rcases List.mem_cons.1 member with rfl | member
      · exact before
      · exact String.lt_trans before (below entry member)
    · split
      · rename_i after
        refine List.pairwise_cons.2 ⟨fun entry member => ?_, ih h⟩
        rcases mem_insertEntry member with rfl | member
        · exact after
        · exact below entry member
      · rename_i notBefore notAfter
        have same : head.1 = key := key_eq_of_not_lt notAfter notBefore
        exact List.pairwise_cons.2 ⟨fun entry member => same ▸ below entry member, h⟩

/-- The table with `value` under `key`, whatever stood there before. -/
def insert (table : Table α) (key : String) (value : α) : Table α :=
  ⟨insertEntry key value table.entries, ascending_insertEntry key value table.ascending⟩

/-- The table of a list of entries; of two values under one key the later one stays. -/
def ofList (entries : List (String × α)) : Table α :=
  entries.foldl (fun table entry => table.insert entry.1 entry.2) ∅

-----------------------------------------------------------------------------------------------
-- Look-up and removal

/-- The value under a key. -/
def get? (table : Table α) (key : String) : Option α :=
  (table.entries.find? (·.1 == key)).map Prod.snd

/-- Whether a value stands under the key. -/
def contains (table : Table α) (key : String) : Bool :=
  table.entries.any (·.1 == key)

/-- Only the entries that pass the test. -/
def filter (table : Table α) (test : String → α → Bool) : Table α :=
  ⟨table.entries.filter (fun entry => test entry.1 entry.2), table.ascending.filter _⟩

/-- The table without the key. -/
def erase (table : Table α) (key : String) : Table α :=
  table.filter (fun k _ => k != key)

/-- Changes the value under a key, if one stands there. -/
def modify (table : Table α) (key : String) (change : α → α) : Table α :=
  match table.get? key with
  | some value => table.insert key (change value)
  | none => table

def keys (table : Table α) : List String :=
  table.entries.map Prod.fst

def values (table : Table α) : List α :=
  table.entries.map Prod.snd

def size (table : Table α) : Nat :=
  table.entries.length

def isEmpty (table : Table α) : Bool :=
  table.entries.isEmpty

-----------------------------------------------------------------------------------------------
-- The operations through `get?`

@[simp]
theorem get?_empty (key : String)
    : (∅ : Table α).get? key = none := rfl

/-- An insertion answers for its own key and leaves the others. -/
theorem get?_insert (table : Table α) (key other : String) (value : α)
    : (table.insert key value).get? other =
        if other = key then some value else table.get? other := by
  obtain ⟨entries, h⟩ := table
  simp only [get?, insert]
  induction entries with
  | nil =>
    by_cases same : other = key
    · subst same; simp [insertEntry]
    · simp [insertEntry, same, Ne.symm same]
  | cons head rest ih =>
    obtain ⟨below, h⟩ := List.pairwise_cons.1 h
    have ih := ih h
    simp only [insertEntry]
    split
    · by_cases same : other = key
      · subst same; simp
      · simp [same, Ne.symm same]
    · split
      · rename_i after
        by_cases here : head.1 = other
        · have : ¬ other = key := by
            rintro rfl
            exact String.lt_irrefl _ (here ▸ after)
          simp [here, this]
        · simpa [here] using ih
      · rename_i notBefore notAfter
        have headKey : head.1 = key := key_eq_of_not_lt notAfter notBefore
        by_cases same : other = key
        · subst same; simp
        · simp [headKey, same, Ne.symm same]

/-- A key is present exactly when look-up finds its value. -/
theorem contains_eq_isSome (table : Table α) (key : String)
    : table.contains key = (table.get? key).isSome := by
  obtain ⟨entries, h⟩ := table
  simp only [contains, get?, Option.isSome_map]
  clear h
  induction entries with
  | nil => rfl
  | cons head rest ih => by_cases here : head.1 == key <;> simp_all

/-- An insertion adds its own key and no other one. -/
theorem contains_insert_iff (table : Table α) (key other : String) (value : α)
    : (table.insert key value).contains other = true
        ↔ other = key ∨ table.contains other = true := by
  rw [contains_eq_isSome, contains_eq_isSome, get?_insert]
  by_cases same : other = key <;> simp [same]

/-- No two entries have one key. -/
theorem entry_unique (table : Table α) {key : String} {left right : α}
    (first : (key, left) ∈ table.entries) (second : (key, right) ∈ table.entries)
    : left = right := by
  obtain ⟨entries, h⟩ := table
  simp only at first second
  induction entries with
  | nil => simp at first
  | cons head rest ih =>
    obtain ⟨below, h⟩ := List.pairwise_cons.1 h
    rcases List.mem_cons.1 first with rfl | inRest
    · rcases List.mem_cons.1 second with same | other
      · exact (Prod.mk.inj same).2.symm
      · exact absurd (below _ other) (String.lt_irrefl _)
    · rcases List.mem_cons.1 second with rfl | other
      · exact absurd (below _ inRest) (String.lt_irrefl _)
      · exact ih h inRest other

/-- The entries are what look-up finds. -/
theorem mem_entries_iff (table : Table α) {key : String} {value : α}
    : (key, value) ∈ table.entries ↔ table.get? key = some value := by
  constructor
  · intro member
    cases found : table.entries.find? (·.1 == key) with
    | none => simpa using List.find?_eq_none.1 found _ member
    | some entry =>
      have same : entry.1 = key := by simpa using List.find?_some found
      have here : (key, entry.2) ∈ table.entries := same ▸ List.mem_of_find?_eq_some found
      simp [get?, found, table.entry_unique member here]
  · intro found
    obtain ⟨entry, here, rfl⟩ := Option.map_eq_some_iff.1 found
    have same : entry.1 = key := by simpa using List.find?_some here
    exact same ▸ List.mem_of_find?_eq_some here

theorem mem_values_iff (table : Table α) {value : α}
    : value ∈ table.values ↔ ∃ key, table.get? key = some value := by
  simp only [values, List.mem_map, Prod.exists, exists_eq_right, mem_entries_iff]

/-- A filter keeps the values that pass its test. -/
theorem get?_filter (table : Table α) (test : String → α → Bool) (key : String)
    : (table.filter test).get? key = (table.get? key).filter (test key) := by
  have entries_iff : ∀ value, (table.filter test).get? key = some value ↔
      table.get? key = some value ∧ test key value = true := by
    intro value
    rw [← mem_entries_iff, ← mem_entries_iff]
    simp [filter]
  ext value
  rw [entries_iff, Option.filter_eq_some_iff]

/-- An erasure leaves the other keys. -/
theorem get?_erase (table : Table α) (key other : String)
    : (table.erase key).get? other = if other = key then none else table.get? other := by
  rw [erase, get?_filter]
  by_cases same : other = key
  · simp [same]
  · have kept : (other != key) = true := by simpa using same
    cases table.get? other <;> simp [same, kept]

/-- A change answers for its own key and leaves the others. -/
theorem get?_modify (table : Table α) (key other : String) (change : α → α)
    : (table.modify key change).get? other =
        if other = key then (table.get? key).map change else table.get? other := by
  unfold modify
  cases found : table.get? key with
  | none =>
    by_cases same : other = key
    · simp [same, found]
    · simp [same]
  | some value => simp [get?_insert]

end Table

/-- A set of text keys, in key order. -/
abbrev KeySet := Table Unit

/-- The set with one more key. -/
def KeySet.add (keys : KeySet) (key : String) : KeySet :=
  Table.insert keys key ()

end DataflowPlan
