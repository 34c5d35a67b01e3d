import DataflowPlan.Decimal.Reader
import DataflowPlan.Yaml.Source

/-!
Block scalars: indented lines, kept as they are or folded, with a choice of how the text ends.
-/

namespace DataflowPlan.Yaml

-----------------------------------------------------------------------------------------------
-- Headers

/-- How a block scalar ends. -/
inductive Chomping
  /-- With one line break. -/
  | clip
  /-- With none. -/
  | strip
  /-- With all that stand there. -/
  | keep
deriving DecidableEq

/-- What stands after the indicator of a block scalar. -/
structure BlockHeader where
  chomping : Chomping
  /-- The indentation relative to the surrounding block. -/
  extra : Option Nat

namespace BlockHeader

def chomping? : Char → Option Chomping
  | '-' => some .strip
  | '+' => some .keep
  | _ => none

/-- A digit from 1 to 9. -/
def extra? (c : Char) : Option Nat :=
  (Decimal.digitValue? 10 c).filter (· ≠ 0)

/-- At most one chomping and one digit, in any order. -/
def ofChars? : List Char → Option BlockHeader
  | [] => some ⟨.clip, none⟩
  | [a] =>
    match chomping? a, extra? a with
    | some chomping, _ => some ⟨chomping, none⟩
    | none, some extra => some ⟨.clip, some extra⟩
    | none, none => none
  | [a, b] =>
    match chomping? a, extra? b, extra? a, chomping? b with
    | some chomping, some extra, _, _ => some ⟨chomping, some extra⟩
    | _, _, some extra, some chomping => some ⟨chomping, some extra⟩
    | _, _, _, _ => none
  | _ => none

/-- The header, and the text from the next line on. Only a comment may follow in its line. -/
def read (source : Source) : Option (BlockHeader × Source) := do
  let isMark (c : Spot) : Bool := c.char == '-' || c.char == '+' || c.char.isDigit
  let header ← ofChars? (Source.chars (source.takeWhile isMark))
  let rest : Source := (source.dropWhile isMark).dropWhile fun c => isBlank c.char
  let rest := if rest.atOneOf ['#'] then rest.afterLine else rest
  match rest with
  | [] => some (header, [])
  | c :: rest => if isBreak c.char then some (header, rest) else none

end BlockHeader

-----------------------------------------------------------------------------------------------
-- Lines

/-- A line of a block scalar. -/
structure BlockLine where
  text : List Char
  /-- Its break; nothing at the end of the text. -/
  ending : List Char
  /-- The breaks of the empty lines after it. -/
  empty : List Char

/-- The line begins with a blank. -/
def BlockLine.isIndented (l : BlockLine) : Bool :=
  match l.text with
  | [] => false
  | c :: _ => isBlank c

/-- The breaks of empty lines, which are indented by at most `indent` spaces. -/
def emptyLines (indent : Nat) : Source → Reading
  | [] => some ([], [])
  | c :: rest =>
    if c.column < indent && c.char == ' ' then emptyLines indent rest
    else if c.column < indent && c.char == '\t' then none
    else if isBreak c.char then (emptyLines indent rest).after [c.char]
    else some ([], c :: rest)

/-- The breaks of empty lines before the first line, and the column of that or the longest of the
empty lines.
-/
def leadingLines (longest : Nat) : Source → Option (Nat × List Char × Source)
  | [] => some (longest, [], [])
  | c :: rest =>
    if c.char == ' ' then leadingLines longest rest
    else if c.char == '\t' then none
    else
      let longest := max longest c.column
      if isBreak c.char then
        (leadingLines longest rest).map fun (n, breaks, rest) => (n, c.char :: breaks, rest)
      else some (longest, [], c :: rest)

/-- The lines that begin at a column, at most `fuel` of them. -/
def blockLines (indent : Nat) : (fuel : Nat) → Source → Option (List BlockLine × Source)
  | 0, source => some ([], source)
  | _ + 1, [] => some ([], [])
  | fuel + 1, c :: rest =>
    let source : Source := c :: rest
    if c.column != indent then some ([], source)
    else
      match emptyLines indent (source.afterLine.drop 1) with
      | none => none
      | some (empty, rest) =>
        let line : BlockLine :=
          ⟨source.line.chars, Source.chars (source.afterLine.take 1), empty⟩
        (blockLines indent fuel rest).map fun (lines, rest) => (line :: lines, rest)

-----------------------------------------------------------------------------------------------
-- Text

/-- What stands between two lines. A break between two lines that are not indented is folded. -/
def between (literal : Bool) (first second : BlockLine) : List Char :=
  if !literal && first.ending == ['\n'] && !first.isIndented && !second.isIndented then
    if first.empty.isEmpty then [' '] else first.empty
  else first.ending ++ first.empty

/-- What stands after the last line. -/
def Chomping.ending (chomping : Chomping) (last : BlockLine) : List Char :=
  match chomping with
  | .clip => last.ending
  | .strip => []
  | .keep => last.ending ++ last.empty

/-- The text of a line and of those that follow. -/
def blockText (literal : Bool) (chomping : Chomping) (line : BlockLine)
    : List BlockLine → List Char
  | [] => line.text ++ chomping.ending line
  | next :: rest =>
    line.text ++ between literal line next ++ blockText literal chomping next rest

/-- The scalar after its indicator. Its lines begin at column `least` at the earliest. -/
def blockScalar (literal : Bool) (least : Nat) (source : Source) : Reading := do
  let (header, rest) ← BlockHeader.read source
  let (indent, leading, rest) ←
    match header.extra with
    | some extra =>
      let indent := least - 1 + extra
      let (leading, rest) ← emptyLines indent rest
      pure (indent, leading, rest)
    | none =>
      let (longest, leading, rest) ← leadingLines 0 rest
      pure (max longest (max least 1), leading, rest)
  let (lines, rest) ← blockLines indent rest.length rest
  match lines with
  | [] => pure (if header.chomping == .keep then leading else [], rest)
  | line :: lines => pure (leading ++ blockText literal header.chomping line lines, rest)

end DataflowPlan.Yaml
