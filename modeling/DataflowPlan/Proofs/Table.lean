import DataflowPlan.Table
import Mathlib.Data.List.Nodup

/-! Tables as what they answer: two of them are equal if look-up finds the same under every key, and
values can be changed under all keys at once.
-/

namespace DataflowPlan.Table

variable {α β : Type}

theorem entries_nodup (table : Table α) : table.entries.Nodup := by
  refine table.ascending.imp ?_
  rintro a b below rfl
  exact String.lt_irrefl _ below

/-- Look-up tells tables apart.
Witness: the entries are the same, and there is only one order in which the keys ascend.
-/
theorem ext_get? {left right : Table α} (same : ∀ key, left.get? key = right.get? key)
    : left = right := by
  have perm : left.entries.Perm right.entries := by
    refine (List.perm_ext_iff_of_nodup left.entries_nodup right.entries_nodup).mpr ?_
    rintro ⟨key, value⟩
    rw [mem_entries_iff, mem_entries_iff, same]
  refine ext (perm.eq_of_pairwise ?_ left.ascending right.ascending)
  exact fun _ _ _ _ below above => absurd (String.lt_trans below above) (String.lt_irrefl _)

/-- Entries of different keys that are put in one after the other all stay.
Witness: induction on the entries; no later one has the key of the first.
-/
theorem get?_foldl_insert {entries : List (String × α)} (ascending : Ascending entries)
    (table : Table α) (key : String)
    : (entries.foldl (fun table entry => table.insert entry.1 entry.2) table).get? key
        = ((entries.find? (·.1 == key)).map Prod.snd).or (table.get? key) := by
  induction entries generalizing table with
  | nil => simp
  | cons entry rest ih =>
      obtain ⟨below, ascending⟩ := List.pairwise_cons.mp ascending
      rw [List.foldl_cons, ih ascending, get?_insert]
      by_cases same : entry.1 = key
      · have none : rest.find? (·.1 == key) = none := by
          refine List.find?_eq_none.mpr fun later member here => ?_
          have equal : later.1 = key := by simpa using here
          exact String.lt_irrefl _ (equal ▸ same ▸ below later member)
        simp [same, none]
      · simp [same, Ne.symm same]

/-- A table is that of its entries. -/
theorem ofList_entries (table : Table α) : ofList table.entries = table := by
  refine ext_get? fun key => ?_
  rw [ofList, get?_foldl_insert table.ascending, get?_empty, Option.or_none]
  rfl

/-- The table with each value changed. -/
def mapValues (change : α → β) (table : Table α) : Table β :=
  ⟨table.entries.map (Prod.map id change), List.pairwise_map.mpr table.ascending⟩

@[simp]
theorem get?_mapValues (change : α → β) (table : Table α) (key : String)
    : (table.mapValues change).get? key = (table.get? key).map change := by
  simp [get?, mapValues, List.find?_map, Function.comp_def]

theorem mapValues_insert (change : α → β) (table : Table α) (key : String) (value : α)
    : (table.insert key value).mapValues change
        = (table.mapValues change).insert key (change value) := by
  refine ext_get? fun other => ?_
  rw [get?_mapValues, get?_insert, get?_insert, get?_mapValues]
  split <;> rfl

theorem mapValues_filter (change : α → β) (table : Table α) {test : String → α → Bool}
    {test' : String → β → Bool} (alike : ∀ key value, test' key (change value) = test key value)
    : (table.filter test).mapValues change = (table.mapValues change).filter test' := by
  refine ext_get? fun key => ?_
  rw [get?_mapValues, get?_filter, get?_filter, get?_mapValues]
  cases table.get? key with
  | none => rfl
  | some value => simp [Option.filter, alike, apply_ite (Option.map change)]

theorem mapValues_erase (change : α → β) (table : Table α) (key : String)
    : (table.erase key).mapValues change = (table.mapValues change).erase key :=
  mapValues_filter change table fun _ _ => rfl

end DataflowPlan.Table
