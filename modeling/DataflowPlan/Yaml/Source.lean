/-!
Source text: characters with their places, every line break in one form, and the gaps of blanks and
breaks that stand between words and lines.
-/

namespace DataflowPlan.Yaml

-----------------------------------------------------------------------------------------------
-- Characters

/-- Whether the character may stand in a text at all. -/
def isAllowed (c : Char) : Bool :=
  let code := c.toNat
  code == 0x9 || code == 0xa || code == 0xd || (0x20 ≤ code && code ≤ 0x7e) || code == 0x85
    || (0xa0 ≤ code && code ≤ 0xfffd) || 0x10000 ≤ code

/-- Between words of one line. -/
def isBlank (c : Char) : Bool :=
  c == ' ' || c == '\t'

/-- Ends a line. A separator of lines or paragraphs is a break of its own. -/
def isBreak (c : Char) : Bool :=
  c == '\n' || c == '\u2028' || c == '\u2029'

def isGap (c : Char) : Bool :=
  isBlank c || isBreak c

/-- A letter, digit, hyphen or underscore. -/
def isNameChar (c : Char) : Bool :=
  c.isAlphanum || c == '-' || c == '_'

-----------------------------------------------------------------------------------------------
-- Places

/-- A character at its place. -/
structure Spot where
  char : Char
  /-- The bytes before it. -/
  index : Nat
  line : Nat
  column : Nat
deriving Inhabited

abbrev Source := List Spot

namespace Source

/-- Characters from a place on. A carriage return, with or without a line feed after it, and a next
line character break a line as a line feed does.
-/
def place (index line column : Nat) : List Char → Source
  | [] => []
  | '\r' :: '\n' :: rest => ⟨'\n', index, line, column⟩ :: place (index + 2) (line + 1) 0 rest
  | c :: rest =>
    let next := index + c.utf8Size
    let c := if c == '\r' || c == '\x85' then '\n' else c
    if isBreak c then ⟨c, index, line, column⟩ :: place next (line + 1) 0 rest
    else ⟨c, index, line, column⟩ :: place next line (column + 1) rest

/-- A text of characters that are allowed. -/
def ofText? (text : String) : Option Source :=
  if text.toList.all isAllowed then some (place 0 0 0 text.toList) else none

def chars (source : Source) : List Char :=
  source.map Spot.char

/-- The characters of the line. -/
def line (source : Source) : Source :=
  source.takeWhile fun c => !isBreak c.char

/-- The text from the end of the line on. -/
def afterLine (source : Source) : Source :=
  source.dropWhile fun c => !isBreak c.char

/-- A gap begins here, or the text ends. -/
def atGap : Source → Bool
  | [] => true
  | c :: _ => isGap c.char

/-- The next character is one of these. -/
def atOneOf (chars : List Char) : Source → Bool
  | [] => false
  | c :: _ => chars.contains c.char

/-- Three of this character at the beginning of a line, and a gap. -/
def atMarkOf (char : Char) : Source → Bool
  | a :: b :: c :: rest =>
    a.column == 0 && a.char == char && b.char == char && c.char == char && atGap rest
  | _ => false

/-- A document begins or ends here. -/
def atMark (source : Source) : Bool :=
  source.atMarkOf '-' || source.atMarkOf '.'

end Source

-----------------------------------------------------------------------------------------------
-- Gaps

/-- What a gap between two words stands for: the blanks of one line as they are; one line break is
a space, and of several breaks the first does not count.
-/
def fold (gap : List Char) : List Char :=
  match gap.filter isBreak with
  | [] => gap
  | first :: others =>
    if first != '\n' then first :: others
    else if others.isEmpty then [' ']
    else others

/-- Text that was read, and the source after it. -/
abbrev Reading := Option (List Char × Source)

/-- The reading with more text in front. -/
def Reading.after (reading : Reading) (text : List Char) : Reading :=
  reading.map fun (rest, source) => (text ++ rest, source)

end DataflowPlan.Yaml
