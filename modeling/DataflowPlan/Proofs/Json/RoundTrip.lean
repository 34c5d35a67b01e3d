import DataflowPlan.Proofs.Json.Text

/-! Values as they are written without spaces and read again. A value that holds nothing but texts,
booleans and words is read as it was, so that no two such values have one text.
-/

namespace DataflowPlan.Json

/-- The value holds nothing but texts, booleans and words, in lists and objects. -/
inductive Value.IsPlain : Value → Prop
  | null : IsPlain .null
  | boolean (b : Bool) : IsPlain (.boolean b)
  | word {n : Nat} (fits : n ≤ Decimal.maxWord) : IsPlain (.natural n)
  | text (s : String) : IsPlain (.text s)
  | array {items : List Value} (plain : ∀ item ∈ items, IsPlain item) : IsPlain (.array items)
  | object {members : List (String × Value)} (plain : ∀ entry ∈ members, IsPlain entry.2)
    : IsPlain (.object members)

namespace Value

/-- What comes after an item does not go on with a number. -/
theorem endsNumber_compactItems (items : List Value) (rest : List Char)
    : EndsNumber (compactItems items ++ rest) := by
  cases items <;> simp [compactItems, EndsNumber]

/-- What comes after a member does not go on with a number. -/
theorem endsNumber_compactMembers (members : List (String × Value)) (rest : List Char)
    : EndsNumber (compactMembers members ++ rest) := by
  cases members <;> simp [compactMembers, EndsNumber]

theorem isSpace_of_isDigit {c : Char} (digit : c.isDigit = true) : isSpace c = false := by
  rw [isSpace]
  simp only [Bool.or_eq_false_iff, beq_eq_false_iff_ne]
  refine ⟨⟨⟨?_, ?_⟩, ?_⟩, ?_⟩ <;> rintro rfl <;> exact absurd digit (by decide)

/-- A written value begins with neither a space nor the end of a list. -/
theorem IsPlain.exists_front {v : Value} (plain : v.IsPlain)
    : ∃ c tail, v.compact = c :: tail ∧ isSpace c = false ∧ c ≠ ']' := by
  cases plain with
  | null => exact ⟨_, _, rfl, by decide⟩
  | boolean b => cases b <;> exact ⟨_, _, rfl, by decide⟩
  | @word n =>
      obtain ⟨c, digits, front, digit⟩ := exists_digit n
      refine ⟨c, digits, front, isSpace_of_isDigit digit, ?_⟩
      rintro rfl
      exact absurd digit (by decide)
  | text s => exact ⟨_, _, rfl, by decide⟩
  | @array items => cases items <;> exact ⟨_, _, rfl, by decide⟩
  | @object members =>
      rcases members with - | ⟨⟨name, value⟩, rest⟩ <;> exact ⟨_, _, rfl, by decide⟩

/-- In front of anything that does not go on with a number, the written value is read as it was. -/
def ReadsBack (v : Value) : Prop :=
  ∀ fuel rest,
    v.compact.length < fuel → EndsNumber rest → readValue fuel (v.compact ++ rest) = some (v, rest)

/-- Items that are read as they were written follow one another.
Witness: induction on the items; each needs one unit less than those before it.
-/
theorem readItems_compactItems {item : Value} {items : List Value} {fuel : Nat} (rest : List Char)
    (reads : item.ReadsBack) (all : ∀ other ∈ items, other.ReadsBack)
    (enough : item.compact.length + (compactItems items).length < fuel)
    : readItems fuel (item.compact ++ (compactItems items ++ rest))
        = some (item :: items, rest) := by
  induction items generalizing item fuel with
  | nil =>
      obtain - | fuel := fuel
      · simp at enough
      · have first := reads fuel (compactItems [] ++ rest)
          (by simpa [compactItems] using enough) (endsNumber_compactItems [] rest)
        rw [readItems, first]
        rfl
  | cons next items ih =>
      obtain - | fuel := fuel
      · simp at enough
      · simp only [compactItems, List.length_append, List.length_cons] at enough
        have first := reads fuel (compactItems (next :: items) ++ rest) (by omega)
          (endsNumber_compactItems (next :: items) rest)
        have others := @ih next fuel (all next List.mem_cons_self)
          (fun other member => all other (List.mem_cons_of_mem _ member)) (by omega)
        have comma : skipSpace (compactItems (next :: items) ++ rest)
            = ',' :: (next.compact ++ (compactItems items ++ rest)) := by
          rw [compactItems, List.cons_append, List.append_assoc]
          rfl
        simp only [readItems, first, comma, others, Option.map_some]

/-- Behind its quotes and the colon, the value of a member is read. -/
theorem readMembers_named (name : String) (fuel : Nat) (rest : List Char)
    : readMembers (fuel + 1) (renderText name ++ ':' :: rest)
        = match readValue fuel rest with
          | none => none
          | some (value, rest) =>
            match skipSpace rest with
            | ',' :: rest =>
              (readMembers fuel rest).map fun (others, rest) =>
                (others.withMember (some name) value, rest)
            | '\x7d' :: rest => some (.object [(name, value)], rest)
            | _ => none := by
  have quote : skipSpace (renderText name ++ ':' :: rest)
      = '"' :: (name.toList.flatMap escape ++ '"' :: ':' :: rest) := by
    rw [renderText, List.append_assoc]
    rfl
  have colon : skipSpace (':' :: rest) = ':' :: rest := rfl
  rw [readMembers, quote]
  simp only [readText_escaped, colon]
  rfl

/-- Members whose values are read as they were written follow one another.
Witness: induction on the members; each needs one unit less than those before it.
-/
theorem readMembers_compactMembers {name : String} {value : Value}
    {members : List (String × Value)} {fuel : Nat} (rest : List Char)
    (reads : value.ReadsBack) (all : ∀ entry ∈ members, entry.2.ReadsBack)
    (enough : value.compact.length + (compactMembers members).length < fuel)
    : readMembers fuel
          (renderText name ++ ':' :: (value.compact ++ (compactMembers members ++ rest)))
        = some (.object ((name, value) :: members), rest) := by
  induction members generalizing name value fuel with
  | nil =>
      obtain - | fuel := fuel
      · simp at enough
      · have first := reads fuel (compactMembers [] ++ rest)
          (by simpa [compactMembers] using enough) (endsNumber_compactMembers [] rest)
        rw [readMembers_named, first]
        rfl
  | cons next members ih =>
      obtain - | fuel := fuel
      · simp at enough
      · obtain ⟨other, inside⟩ := next
        simp only [compactMembers, List.length_append, List.length_cons] at enough
        have first := reads fuel (compactMembers ((other, inside) :: members) ++ rest) (by omega)
          (endsNumber_compactMembers _ rest)
        have others := @ih other inside fuel (all _ List.mem_cons_self)
          (fun entry member => all entry (List.mem_cons_of_mem _ member)) (by omega)
        have comma : skipSpace (compactMembers ((other, inside) :: members) ++ rest)
            = ',' :: (renderText other ++ ':' ::
                (inside.compact ++ (compactMembers members ++ rest))) := by
          simp only [compactMembers, List.cons_append, List.append_assoc]
          rfl
        rw [readMembers_named, first]
        simp only [comma, others, Option.map_some]
        rfl

theorem readValue_digit (fuel : Nat) {c : Char} (tail : List Char) (digit : c.isDigit = true)
    : readValue (fuel + 1) (c :: tail)
        = (readNumber (c :: tail)).map fun (n, rest) => (.number n, rest) := by
  have space : skipSpace (c :: tail) = c :: tail := by
    simp [skipSpace, isSpace_of_isDigit digit]
  rw [readValue, space]
  split
  case h_7 => rfl
  all_goals
    next same =>
      obtain ⟨rfl, -⟩ := List.cons.inj same
      exact absurd digit (by decide)

theorem readValue_bracket (fuel : Nat) {c : Char} (tail : List Char) (space : isSpace c = false)
    (more : c ≠ ']')
    : readValue (fuel + 1) ('[' :: c :: tail)
        = (readItems fuel (c :: tail)).map fun (items, rest) => (.array items, rest) := by
  have bracket : skipSpace ('[' :: c :: tail) = '[' :: c :: tail := rfl
  have inside : skipSpace (c :: tail) = c :: tail := by simp [skipSpace, space]
  rw [readValue, bracket]
  simp only [inside]
  split
  · next same => exact absurd (List.cons.inj same).1 more
  · rfl

/-- A plain value is read as it was written.
Witness: induction on the value.
-/
theorem IsPlain.readsBack {v : Value} (plain : v.IsPlain) : v.ReadsBack := by
  induction plain with
  | null =>
      rintro (- | fuel) rest enough ends
      · simp at enough
      · rfl
  | boolean b =>
      rintro (- | fuel) rest enough ends
      · simp at enough
      · cases b <;> rfl
  | @word n fits =>
      rintro (- | fuel) rest enough ends
      · simp at enough
      · obtain ⟨c, digits, front, digit⟩ := exists_digit n
        have number := readNumber_toDigits n ends
        rw [natural, Value.compact, Number.render]
        rw [front, List.cons_append] at *
        rw [readValue_digit _ _ digit, number]
        rfl
  | text s =>
      rintro (- | fuel) rest enough ends
      · simp at enough
      · have quote : skipSpace ((Value.text s).compact ++ rest)
            = '"' :: (s.toList.flatMap escape ++ '"' :: rest) := by
          rw [Value.compact, renderText, List.append_assoc]
          rfl
        rw [readValue, quote]
        simp only [readText_escaped, Option.map_some]
        rfl
  | @array items plain ih =>
      rintro (- | fuel) rest enough ends
      · simp at enough
      · cases items with
        | nil => rfl
        | cons item items =>
            obtain ⟨c, tail, front, space, more⟩ := (plain item List.mem_cons_self).exists_front
            simp only [Value.compact, List.length_append, List.length_cons] at enough
            have all := @readItems_compactItems item items fuel rest (ih item List.mem_cons_self)
              (fun other member => ih other (List.mem_cons_of_mem _ member)) (by omega)
            rw [Value.compact, List.cons_append, List.append_assoc]
            rw [front, List.cons_append] at *
            rw [readValue_bracket _ _ space more, all]
            rfl
  | @object members plain ih =>
      rintro (- | fuel) rest enough ends
      · simp at enough
      · cases members with
        | nil => rfl
        | cons first members =>
            obtain ⟨name, value⟩ := first
            simp only [Value.compact, List.length_append, List.length_cons] at enough
            have all := @readMembers_compactMembers name value members fuel rest
              (ih _ List.mem_cons_self)
              (fun entry member => ih entry (List.mem_cons_of_mem _ member)) (by omega)
            have brace : skipSpace ((Value.object ((name, value) :: members)).compact ++ rest)
                = '\x7b' :: (renderText name ++ ':' ::
                    (value.compact ++ (compactMembers members ++ rest))) := by
              simp only [Value.compact, List.cons_append, List.append_assoc]
              rfl
            rw [readValue, brace]
            exact all

/-- The text of a plain value is read as that value. -/
theorem ofText?_compactText {v : Value} (plain : v.IsPlain) : ofText? v.compactText = some v := by
  have read := plain.readsBack (v.compact.length + 1) [] (Nat.lt_succ_self _)
    (fun c none => by simp at none)
  rw [List.append_nil] at read
  rw [ofText?, compactText, String.toList_ofList, ofChars?, read]
  rfl

/-- No two plain values have one text. -/
theorem eq_of_compactText {v w : Value} (plain : v.IsPlain) (plain' : w.IsPlain)
    (same : v.compactText = w.compactText)
    : v = w := by
  have read := ofText?_compactText plain
  rw [same, ofText?_compactText plain'] at read
  exact (Option.some.inj read).symm

end Value

end DataflowPlan.Json
