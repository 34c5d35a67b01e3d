import DataflowPlan.Yaml.Source

/-!
Plain scalars: words without quotes. They end where an indicator, a comment, a mark or a line that
is not indented enough begins.
-/

namespace DataflowPlan.Yaml

/-- A plain scalar that was read. -/
structure Plain where
  text : List Char
  /-- A line break comes right after the text. -/
  broken : Bool
  rest : Source

/-- The scalar with more text in front. -/
def Plain.after (p : Plain) (text : List Char) : Plain :=
  { p with text := text ++ p.text }

/-- The source, which begins with the character, is not part of a plain scalar. -/
def endsPlain (flow : Bool) (c : Char) (rest : Source) : Bool :=
  (c == ':' && rest.atGap) || (flow && [',', '[', ']', '\x7b', '\x7d'].contains c)

/-- A colon of a collection in brackets that is neither text nor an indicator. -/
def strayColon (flow : Bool) (c : Char) (rest : Source) : Bool :=
  flow && c == ':' && rest.atOneOf [',', '?', '[', ']', '\x7b', '\x7d']

/-- The scalar that goes on after a gap. Its lines begin at column `least` at the earliest, unless
it stands between brackets.
-/
def plain (flow : Bool) (least : Nat) (gap : List Char) : Source → Option Plain
  | [] => some ⟨[], gap.any isBreak, []⟩
  | c :: rest =>
    let source : Source := c :: rest
    if isGap c.char then
      -- a tab cannot indent
      if gap.any isBreak && c.char == '\t' && c.column < least then none
      else plain flow least (gap ++ [c.char]) rest
    else if !gap.isEmpty
        && (source.atMark || c.char == '#' || (!flow && c.column < least)) then
      some ⟨[], gap.any isBreak, source⟩
    else if strayColon flow c.char rest then none
    else if endsPlain flow c.char rest then some ⟨[], gap.any isBreak, source⟩
    else (plain flow least [] rest).map (·.after (fold gap ++ [c.char]))

end DataflowPlan.Yaml
