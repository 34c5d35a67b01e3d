import DataflowPlan.Error

/-! Steps that may fail, read forwards and backwards. -/

namespace DataflowPlan.Except

variable {ε α β : Type}

@[simp]
theorem ok_bind (a : α) (f : α → Except ε β) : (Except.ok a >>= f) = f a := rfl

@[simp]
theorem error_bind (e : ε) (f : α → Except ε β)
    : ((Except.error e : Except ε α) >>= f) = .error e := rfl

@[simp]
theorem throw_eq (e : ε) : (throw e : Except ε α) = .error e := rfl

@[simp]
theorem pure_eq (a : α) : (pure a : Except ε α) = .ok a := rfl

/-- What went well is a first step that went well and the rest from its result. -/
theorem bind_eq_ok {x : Except ε α} {f : α → Except ε β} {b : β}
    : x >>= f = .ok b ↔ ∃ a, x = .ok a ∧ f a = .ok b := by
  cases x <;> simp

/-- A result is changed at the end of the last step. -/
theorem map_bind (x : Except ε α) (f : α → Except ε β) {γ : Type} (change : β → γ)
    : (x >>= f).map change = x >>= fun a => (f a).map change := by
  cases x <;> rfl

theorem bind_map {γ : Type} (x : Except ε α) (change : α → β) (f : β → Except ε γ)
    : x.map change >>= f = x >>= fun a => f (change a) := by
  cases x <;> rfl

/-- Checks in turn go well exactly if each of them does. -/
theorem forM_eq_ok {check : α → Except ε Unit} {items : List α}
    : items.forM check = .ok () ↔ ∀ item ∈ items, check item = .ok () := by
  change forM items check = .ok () ↔ _
  induction items with
  | nil => simp
  | cons head rest ih =>
      rw [List.forM_cons, bind_eq_ok, List.forall_mem_cons, ← ih]
      constructor
      · rintro ⟨⟨⟩, first, others⟩
        exact ⟨first, others⟩
      · rintro ⟨first, others⟩
        exact ⟨(), first, others⟩

-----------------------------------------------------------------------------------------------
-- What an evaluation shows
-----------------------------------------------------------------------------------------------

variable {x : Except ε α}

theorem isOk_iff : x.isOk = true ↔ ∃ a, x = .ok a := by
  cases x <;> simp [Except.isOk, Except.toBool]

theorem toOption_eq_some_iff {a : α} : x.toOption = some a ↔ x = .ok a := by
  cases x <;> simp [Except.toOption]

theorem toOption_any_iff {p : α → Bool}
    : x.toOption.any p = true ↔ ∃ a, x = .ok a ∧ p a = true := by
  cases x <;> simp [Except.toOption]

theorem toOption_map_eq_some_iff {f : α → β} {b : β}
    : x.toOption.map f = some b ↔ ∃ a, x = .ok a ∧ f a = b := by
  cases x <;> simp [Except.toOption]

theorem toOption_bind_eq_some_iff {f : α → Option β} {b : β}
    : x.toOption.bind f = some b ↔ ∃ a, x = .ok a ∧ f a = some b := by
  cases x <;> simp [Except.toOption]

end DataflowPlan.Except
