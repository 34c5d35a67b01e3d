import DataflowPlan.Json.Printer
import DataflowPlan.Json.Reader
import Mathlib.Data.Nat.Digits.Defs

/-! Texts and numbers as they are written and read again: whatever characters a text holds, reading
what was written gives the same text, and the same goes for natural numbers of any size.
-/

namespace DataflowPlan.Json

-----------------------------------------------------------------------------------------------
-- Texts
-----------------------------------------------------------------------------------------------

/-- The piece that the character is read as. -/
def pieceOf (c : Char) : Piece :=
  if c.toNat < 0x20 ∧ c ∉ ['\n', '\r', '\t', '\x08', '\x0c'] then .unit c.toNat else .char c

/-- Control characters that have no letter of their own are written by their number. -/
theorem unit_of_control
    : ∀ n < 0x20,
        unit? '0' '0' (Nat.digitChar (n / 16)) (Nat.digitChar (n % 16)) = some n
        ∧ charOfUnit? n = some (Char.ofNat n) := by
  decide

theorem readPieces_escape (c : Char) (rest : List Char)
    : readPieces (escape c ++ rest)
        = (readPieces rest).map fun (pieces, rest) => (pieceOf c :: pieces, rest) := by
  by_cases letter : c ∈ ['"', '\\', '\n', '\r', '\t', '\x08', '\x0c']
  · simp only [List.mem_cons, List.not_mem_nil, or_false] at letter
    rcases letter with rfl | rfl | rfl | rfl | rfl | rfl | rfl <;> rfl
  · simp only [List.mem_cons, List.not_mem_nil, or_false, not_or] at letter
    obtain ⟨quote, backslash, line, back, tab, erase, page⟩ := letter
    by_cases control : c.toNat < 0x20
    · have unit := (unit_of_control _ control).1
      simp [escape, pieceOf, readPieces, *]
    · simp [escape, pieceOf, readPieces, *]

theorem textOfPieces_pieceOf (c : Char) (pieces : List Piece)
    : textOfPieces? (pieceOf c :: pieces) = (textOfPieces? pieces).map (c :: ·) := by
  unfold pieceOf
  split
  · next control =>
      simp only [textOfPieces?.eq_def (_ :: _), (unit_of_control _ control.1).2, Char.ofNat_toNat]
  · rw [textOfPieces?]

theorem readPieces_escaped (chars rest : List Char)
    : readPieces (chars.flatMap escape ++ '"' :: rest) = some (chars.map pieceOf, rest) := by
  induction chars with
  | nil => simp [readPieces]
  | cons c chars ih =>
      rw [List.flatMap_cons, List.append_assoc, readPieces_escape, ih]
      rfl

theorem textOfPieces_map_pieceOf (chars : List Char)
    : textOfPieces? (chars.map pieceOf) = some chars := by
  induction chars with
  | nil => rfl
  | cons c chars ih => rw [List.map_cons, textOfPieces_pieceOf, ih, Option.map_some]

/-- What was written between quotes is read as it was. -/
theorem readText_escaped (s : String) (rest : List Char)
    : readText (s.toList.flatMap escape ++ '"' :: rest) = some (some s, rest) := by
  simp only [readText, readPieces_escaped, Option.map_some, textOfPieces_map_pieceOf,
    String.ofList_toList]

-----------------------------------------------------------------------------------------------
-- Numbers
-----------------------------------------------------------------------------------------------

/-- The characters do not go on with a number. -/
def EndsNumber (rest : List Char) : Prop :=
  ∀ c ∈ rest.head?, c.isDigit = false ∧ c ≠ '.' ∧ c ≠ 'e' ∧ c ≠ 'E'

theorem exists_digit (n : Nat)
    : ∃ c digits, Nat.toDigits 10 n = c :: digits ∧ c.isDigit = true := by
  obtain ⟨c, digits, front⟩ :=
    List.exists_cons_of_ne_nil (Nat.toDigits_ne_nil (b := 10) (n := n))
  exact ⟨c, digits, front,
    Nat.isDigit_of_mem_toDigits (by omega) (by omega) (front ▸ List.mem_cons_self)⟩

/-- A number of several digits does not begin with zero. -/
theorem tail_eq_nil_of_zero {n : Nat} {digits : List Char}
    (zero : Nat.toDigits 10 n = '0' :: digits)
    : digits = [] := by
  induction n using Nat.strong_induction_on generalizing digits with
  | _ n ih =>
      by_cases small : n < 10
      · rw [Nat.toDigits_of_lt_base small] at zero
        exact (List.cons.inj zero).2.symm
      · rw [Nat.toDigits_of_base_le (by omega) (by omega)] at zero
        cases front : Nat.toDigits 10 (n / 10) with
        | nil => exact absurd front Nat.toDigits_ne_nil
        | cons c others =>
            rw [front, List.cons_append] at zero
            obtain ⟨rfl, -⟩ := List.cons.inj zero
            have single := ih (n / 10) (by omega) front
            have value := congrArg (Nat.ofDigitChars 10 · 0) front
            rw [single] at value
            simp only [Nat.ofDigitChars_ten_toDigits] at value
            have : n / 10 = 0 := value
            omega

theorem readWhole_toDigits (n : Nat) {rest : List Char} (ends : EndsNumber rest)
    : readWhole (Nat.toDigits 10 n ++ rest) = some (Nat.toDigits 10 n, rest) := by
  have digits : ∀ c ∈ Nat.toDigits 10 n, c.isDigit = true := fun c member =>
    Nat.isDigit_of_mem_toDigits (by omega) (by omega) member
  have after : rest.takeWhile Char.isDigit = [] ∧ rest.dropWhile Char.isDigit = rest := by
    cases rest with
    | nil => exact ⟨rfl, rfl⟩
    | cons c rest => simp [(ends c rfl).1]
  have taken : (Nat.toDigits 10 n ++ rest).takeWhile Char.isDigit = Nat.toDigits 10 n := by
    rw [List.takeWhile_append_of_pos digits, after.1, List.append_nil]
  have dropped : (Nat.toDigits 10 n ++ rest).dropWhile Char.isDigit = rest := by
    rw [List.dropWhile_append_of_pos digits, after.2]
  rw [readWhole, taken, dropped]
  split
  · next none => exact absurd none Nat.toDigits_ne_nil
  · next zero => exact absurd (tail_eq_nil_of_zero zero) (by simp)
  · rfl

theorem readFraction_of_ends {rest : List Char} (ends : EndsNumber rest)
    : readFraction rest = some ([], rest) := by
  unfold readFraction
  split
  · exact absurd rfl (ends _ rfl).2.1
  · rfl

theorem readExponent_of_ends {rest : List Char} (ends : EndsNumber rest)
    : readExponent rest = some (none, rest) := by
  cases rest with
  | nil => rfl
  | cons c rest =>
      obtain ⟨-, -, small, capital⟩ := ends c rfl
      simp [readExponent, small, capital]

/-- A natural number is read as it was written. -/
theorem readNumber_toDigits (n : Nat) {rest : List Char} (ends : EndsNumber rest)
    : readNumber (Nat.toDigits 10 n ++ rest) = some (.natural n, rest) := by
  have unsigned : ∀ tail, Nat.toDigits 10 n ++ rest ≠ '-' :: tail := by
    intro tail minus
    obtain ⟨c, digits, front, digit⟩ := exists_digit n
    rw [front, List.cons_append] at minus
    obtain ⟨rfl, -⟩ := List.cons.inj minus
    exact absurd digit (by decide)
  unfold readNumber
  split
  next sign =>
    split at sign
    · next minus => exact absurd minus (unsigned _)
    · obtain ⟨rfl, rfl⟩ := Prod.mk.inj sign
      simp [readWhole_toDigits n ends, readFraction_of_ends ends, readExponent_of_ends ends]

end DataflowPlan.Json
