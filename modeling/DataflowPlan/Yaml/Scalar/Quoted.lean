import DataflowPlan.Decimal.Reader
import DataflowPlan.Yaml.Source

/-!
Quoted scalars. Gaps are folded, a single quote is doubled inside single quotes, and a backslash
begins an escape inside double quotes.
-/

namespace DataflowPlan.Yaml

/-- The text up to the closing single quote, after a gap. -/
def singleQuoted (gap : List Char) : Source → Reading
  | [] => none
  | c :: rest =>
    if isGap c.char then singleQuoted (gap ++ [c.char]) rest
    else if Source.atMark (c :: rest) then none
    else if c.char != '\'' then (singleQuoted [] rest).after (fold gap ++ [c.char])
    else
      match rest with
      | [] => some (fold gap, [])
      | d :: rest =>
        if d.char == '\'' then (singleQuoted [] rest).after (fold gap ++ ['\''])
        else some (fold gap, d :: rest)

-----------------------------------------------------------------------------------------------
-- Escapes

/-- The character that one after a backslash stands for. -/
def escaped? : Char → Option Char
  | '0' => some '\x00'
  | 'a' => some '\x07'
  | 'b' => some '\x08'
  | 't' | '\t' => some '\t'
  | 'n' => some '\n'
  | 'v' => some '\x0b'
  | 'f' => some '\x0c'
  | 'r' => some '\r'
  | 'e' => some '\x1b'
  | ' ' => some ' '
  | '"' => some '"'
  | '/' => some '/'
  | '\\' => some '\\'
  | 'N' => some '\x85'
  | '_' => some '\xa0'
  | 'L' => some '\u2028'
  | 'P' => some '\u2029'
  | _ => none

/-- How many hexadecimal digits follow the letter. -/
def digitsAfter? : Char → Option Nat
  | 'x' => some 2
  | 'u' => some 4
  | 'U' => some 8
  | _ => none

/-- The character of a code point. -/
def charOfCode? (code : Nat) : Option Char :=
  if h : code.isValidChar then some (Char.ofNatAux code h) else none

/-- The character whose code point the first `count` digits write. -/
def coded? (count : Nat) (source : Source) : Option Char :=
  if source.length < count then none
  else (Decimal.natOfDigits? 16 (Source.chars (source.take count))).bind charOfCode?

-----------------------------------------------------------------------------------------------
-- Double quotes

/-- A gap inside double quotes. -/
structure DoubleGap where
  /-- The gap begins with an escaped line break, which joins the lines. -/
  joined : Bool
  chars : List Char

namespace DoubleGap

def none : DoubleGap := ⟨false, []⟩

def add (gap : DoubleGap) (c : Char) : DoubleGap :=
  { gap with chars := gap.chars ++ [c] }

def text (gap : DoubleGap) : List Char :=
  if gap.joined then gap.chars.filter isBreak else fold gap.chars

end DoubleGap

/-- The text up to the closing double quote, after a gap. -/
def doubleQuoted (gap : DoubleGap) (source : Source) : Reading :=
  match source with
  | [] => none
  | c :: rest =>
    if isGap c.char then doubleQuoted (gap.add c.char) rest
    else if Source.atMark (c :: rest) then none
    else if c.char == '"' then some (gap.text, rest)
    else if c.char != '\\' then (doubleQuoted .none rest).after (gap.text ++ [c.char])
    else
      match rest with
      | [] => none
      | d :: rest =>
        if isBreak d.char then (doubleQuoted ⟨true, []⟩ rest).after gap.text
        else
          match escaped? d.char, digitsAfter? d.char with
          | some char, _ => (doubleQuoted .none rest).after (gap.text ++ [char])
          | none, some count =>
            match coded? count rest with
            | some char => (doubleQuoted .none (rest.drop count)).after (gap.text ++ [char])
            | none => none
          | none, none => none
termination_by source.length
decreasing_by all_goals simp only [List.length_cons, List.length_drop]; omega

end DataflowPlan.Yaml
