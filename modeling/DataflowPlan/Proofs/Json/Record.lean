import DataflowPlan.Json.Record
import DataflowPlan.Proofs.Json.RoundTrip
import DataflowPlan.Proofs.Table

/-! Taking apart what was put together: each decoder gives back what its encoder was given, for
texts, words, optional values, lists, tables and records whose members stand in the order of the
fields.
-/

namespace DataflowPlan

variable {α β : Type}

/-- Items that are each taken apart as they were put together. -/
theorem mapM_map_eq_some {γ : Type} {encode : α → β} {decode : β → Option γ} {take : α → γ}
    {items : List α} (reads : ∀ a ∈ items, decode (encode a) = some (take a))
    : (items.map encode).mapM decode = some (items.map take) := by
  induction items with
  | nil => rfl
  | cons a items ih =>
      have rest := ih fun b member => reads b (List.mem_cons_of_mem _ member)
      rw [List.map_cons, List.mapM_cons, reads a List.mem_cons_self, rest]
      rfl

-----------------------------------------------------------------------------------------------
-- Fields
-----------------------------------------------------------------------------------------------

namespace Field

variable {ν : Type}

@[simp]
theorem required_given (decode : ν → Option α) (v : ν) : (given v).required decode = decode v := rfl

@[simp]
theorem orElse_given (default : α) (decode : ν → Option α) (v : ν)
    : (given v).orElse default decode = decode v := rfl

@[simp]
theorem nullable_given (decode : ν → Option (Option α)) (v : ν)
    : (given v).nullable decode = decode v := rfl

/-- If no name stands twice, each member is found under its name.
Witness: induction on the members, of which only one has the name.
-/
theorem named?_of_mem {members : List (String × ν)} (distinct : (members.map Prod.fst).Nodup)
    {entry : String × ν} (member : entry ∈ members)
    : named? members entry.1 = some (.given entry.2) := by
  have only : members.filter (·.1 == entry.1) = [entry] := by
    induction members with
    | nil => simp at member
    | cons head rest ih =>
        obtain ⟨fresh, distinct⟩ := List.nodup_cons.mp distinct
        rcases List.mem_cons.mp member with rfl | later
        · have none : rest.filter (·.1 == entry.1) = [] := by
            refine List.filter_eq_nil_iff.mpr fun other known same => fresh ?_
            exact List.mem_map.mpr ⟨other, known, by simpa using same⟩
          rw [List.filter_cons_of_pos (by simp), none]
        · have other : head.1 ≠ entry.1 := fun same =>
            fresh (List.mem_map.mpr ⟨entry, later, same.symm⟩)
          rw [List.filter_cons_of_neg (by simpa using other), ih distinct later]
  rw [named?, only]

/-- Members under different names are the fields of these names. -/
theorem ofMembers?_map_fst {members : List (String × ν)}
    (distinct : (members.map Prod.fst).Nodup)
    : ofMembers? (members.map Prod.fst) members
        = some (members.map fun entry => .given entry.2) :=
  mapM_map_eq_some fun _ member => named?_of_mem distinct member

end Field

namespace Json.Value

/-- The fields of a record in which each name of a field stands once, in their order. -/
theorem fields?_object {members : List (String × Value)} (names : List String)
    (distinct : names.Nodup) (named : members.map Prod.fst = names)
    : (object members).fields? names = some (members.map fun entry => .given entry.2) := by
  subst named
  exact Field.ofMembers?_map_fst distinct

-----------------------------------------------------------------------------------------------
-- Parts
-----------------------------------------------------------------------------------------------

@[simp]
theorem text?_text (s : String) : (text s).text? = some s := rfl

@[simp]
theorem boolean?_boolean (b : Bool) : (boolean b).boolean? = some b := rfl

theorem word?_natural {n : Nat} (fits : n ≤ Decimal.maxWord) : (natural n).word? = some n :=
  if_pos fits

theorem optional?_optional {encode : α → Value} {decode : Value → Option α} {value : Option α}
    (given : ∀ a, encode a ≠ .null) (reads : ∀ a ∈ value, decode (encode a) = some a)
    : (optional encode value).optional? decode = some value := by
  cases value with
  | none => rfl
  | some a =>
      rw [optional, optional?.eq_def]
      split
      · next null => exact absurd null (given a)
      · rw [reads a rfl, Option.map_some]

theorem optional?_natural {value : Option Nat} (fits : ∀ n ∈ value, n ≤ Decimal.maxWord)
    : (optional natural value).optional? word? = some value :=
  optional?_optional (fun _ => Value.noConfusion) fun n given => word?_natural (fits n given)

@[simp]
theorem optional?_text (value : Option String)
    : (optional text value).optional? text? = some value :=
  optional?_optional (fun _ => Value.noConfusion) fun _ _ => rfl

theorem list?_array {encode : α → Value} {decode : Value → Option α} {items : List α}
    (reads : ∀ a ∈ items, decode (encode a) = some a)
    : (array (items.map encode)).list? decode = some items := by
  rw [list?, mapM_map_eq_some reads, List.map_id']

@[simp]
theorem list?_texts (items : List String) : (texts items).list? text? = some items :=
  list?_array fun _ _ => rfl

/-- The members of a table give back the table. -/
theorem members?_entries {encode : α → Value} {decode : Value → Option α} {table : Table α}
    (reads : ∀ a ∈ table.values, decode (encode a) = some a)
    : ((object (table.entries.map fun (name, a) => (name, encode a))).members? decode).map
          Table.ofList
        = some table := by
  have taken : ∀ entry ∈ table.entries,
      (decode (encode entry.2)).map (entry.1, ·) = some entry := by
    rintro ⟨name, a⟩ member
    rw [reads a (table.mem_values_iff.mpr ⟨name, table.mem_entries_iff.mp member⟩)]
    rfl
  rw [members?, mapM_map_eq_some taken, List.map_id', Option.map_some, Table.ofList_entries]

-----------------------------------------------------------------------------------------------
-- Shape
-----------------------------------------------------------------------------------------------

attribute [simp] IsPlain.null IsPlain.boolean IsPlain.text

@[simp]
theorem isPlain_natural {n : Nat} : (natural n).IsPlain ↔ n ≤ Decimal.maxWord := by
  constructor
  · rintro ⟨⟩
    assumption
  · exact .word

@[simp]
theorem isPlain_array {items : List Value}
    : (array items).IsPlain ↔ ∀ item ∈ items, item.IsPlain := by
  constructor
  · rintro ⟨⟩
    assumption
  · exact .array

@[simp]
theorem isPlain_object {members : List (String × Value)}
    : (object members).IsPlain ↔ ∀ entry ∈ members, entry.2.IsPlain := by
  constructor
  · rintro ⟨⟩
    assumption
  · exact .object

@[simp]
theorem isPlain_optional {encode : α → Value} {value : Option α}
    : (optional encode value).IsPlain ↔ ∀ a ∈ value, (encode a).IsPlain := by
  cases value <;> simp [optional]

@[simp]
theorem isPlain_texts (items : List String) : (texts items).IsPlain := by
  simp [texts]

theorem isPlain_entries {encode : α → Value} {table : Table α}
    (plain : ∀ a ∈ table.values, (encode a).IsPlain)
    : (object (table.entries.map fun (name, a) => (name, encode a))).IsPlain := by
  refine .object fun entry member => ?_
  obtain ⟨⟨name, a⟩, known, rfl⟩ := List.mem_map.mp member
  exact plain a (List.mem_map_of_mem known)

/-- Plain values can be read in full. -/
theorem isReadable_of_isPlain {v : Value} (plain : v.IsPlain) : v.isReadable = true := by
  induction plain with
  | null | boolean | text => rfl
  | word fits => simp [natural, isReadable, Number.isReadable, Number.word?, fits]
  | @array items plain ih =>
      rw [isReadable]
      clear plain
      induction items with
      | nil => rfl
      | cons item items ih' =>
          obtain ⟨first, rest⟩ := List.forall_mem_cons.mp ih
          rw [areReadable, first, ih' rest, Bool.true_and]
  | @object members plain ih =>
      rw [isReadable]
      clear plain
      induction members with
      | nil => rfl
      | cons entry members ih' =>
          obtain ⟨first, rest⟩ := List.forall_mem_cons.mp ih
          rw [haveReadable, first, ih' rest, Bool.true_and]

theorem heightOfItems_le {items : List Value} {n : Nat} (low : ∀ item ∈ items, item.height ≤ n)
    : heightOfItems items ≤ n := by
  induction items with
  | nil => exact Nat.zero_le n
  | cons item items ih =>
      obtain ⟨first, rest⟩ := List.forall_mem_cons.mp low
      exact max_le first (ih rest)

theorem heightOfMembers_le {members : List (String × Value)} {n : Nat}
    (low : ∀ entry ∈ members, entry.2.height ≤ n)
    : heightOfMembers members ≤ n := by
  induction members with
  | nil => exact Nat.zero_le n
  | cons entry members ih =>
      obtain ⟨first, rest⟩ := List.forall_mem_cons.mp low
      exact max_le first (ih rest)

theorem height_optional_le {encode : α → Value} {value : Option α} {n : Nat}
    (low : ∀ a, (encode a).height ≤ n)
    : (optional encode value).height ≤ n := by
  cases value with
  | none => exact Nat.zero_le n
  | some a => exact low a

@[simp]
theorem height_natural (n : Nat) : (natural n).height = 0 := rfl

@[simp]
theorem height_optional_natural (value : Option Nat) : (optional natural value).height = 0 :=
  Nat.le_zero.mp (height_optional_le fun _ => Nat.le_refl 0)

theorem height_texts_le (items : List String) : (texts items).height ≤ 1 :=
  Nat.succ_le_succ (heightOfItems_le (by simp [height]))

end Json.Value

end DataflowPlan
