/-!
Blank characters: the code points with the Unicode property White_Space, and text without blanks
at its ends. Main statements: a trimmed text neither starts nor ends with a blank.
-/

namespace DataflowPlan.Text

/-- Whether the character has the property White_Space. -/
def isBlank (c : Char) : Bool :=
  let code := c.toNat
  (0x9 ≤ code && code ≤ 0xd) || code == 0x20 || code == 0x85 || code == 0xa0 || code == 0x1680
    || (0x2000 ≤ code && code ≤ 0x200a) || code == 0x2028 || code == 0x2029 || code == 0x202f
    || code == 0x205f || code == 0x3000

/-- The characters between the leading and the trailing blanks. -/
def trim (text : List Char) : List Char :=
  ((text.dropWhile isBlank).reverse.dropWhile isBlank).reverse

/-- Whatever core counts as whitespace is blank. -/
theorem isBlank_of_isWhitespace {c : Char} (h : c.isWhitespace = true)
    : isBlank c = true := by
  simp only [Char.isWhitespace, Bool.or_eq_true, decide_eq_true_eq] at h
  rcases h with ((rfl | rfl) | rfl) | rfl <;> decide

/-- What is left after leading blanks starts with no blank. -/
theorem head?_dropWhile_isBlank (text : List Char)
    : ∀ c ∈ (text.dropWhile isBlank).head?, isBlank c = false := by
  intro c member
  have := List.head?_dropWhile_not isBlank text
  simp_all

/-- A trimmed text ends with no blank. -/
theorem getLast?_trim (text : List Char)
    : ∀ c ∈ (trim text).getLast?, isBlank c = false := by
  rw [trim, List.getLast?_reverse]
  exact head?_dropWhile_isBlank _

/-- A trimmed text starts with no blank. -/
theorem head?_trim (text : List Char)
    : ∀ c ∈ (trim text).head?, isBlank c = false := by
  intro c member
  refine head?_dropWhile_isBlank text c ?_
  have front : trim text <+: text.dropWhile isBlank := by
    have := List.dropWhile_suffix isBlank (l := (text.dropWhile isBlank).reverse)
    simpa [trim] using List.reverse_prefix.2 this
  obtain ⟨rest, h⟩ := front
  rw [← h, List.head?_append]
  simp_all

end DataflowPlan.Text
