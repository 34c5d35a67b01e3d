import DataflowPlan.Yaml.Scalar.Block
import DataflowPlan.Yaml.Scalar.Plain
import DataflowPlan.Yaml.Scalar.Quoted
import DataflowPlan.Yaml.Tag

/-!
Tokens: indicators, names and scalars, with the beginnings and ends of blocks that only the
indentation shows. Whether a scalar or a collection is a key shows at the colon after it: the tokens
for a key are put in front of it then.
-/

namespace DataflowPlan.Yaml

/-- How a scalar is written. -/
inductive Style
  | plain
  | quoted
  | literal
  | folded
deriving DecidableEq

inductive Token
  | directive (d : Directive)
  | documentStart
  | documentEnd
  | blockSequence
  | blockMapping
  | blockEnd
  | flowSequence
  | flowSequenceEnd
  | flowMapping
  | flowMappingEnd
  /-- A comma between brackets. -/
  | separator
  /-- An item of a block sequence. -/
  | item
  | key
  | value
  | anchor (name : String)
  | alias (name : String)
  | tag (tag : Tag)
  | scalar (style : Style) (text : String)
deriving DecidableEq

-----------------------------------------------------------------------------------------------
-- Scanners

/-- Where a key may have begun. -/
structure PossibleKey where
  /-- Nothing but a key can stand at the indentation of its block. -/
  isRequired : Bool
  start : Spot
  /-- The number of tokens before it. -/
  count : Nat

/-- A text that is taken apart into tokens. -/
structure Scanner where
  rest : Source
  /-- The columns of the blocks that are open, the innermost first. -/
  indents : List Nat
  /-- The possible key of the innermost collection. -/
  possible : Option PossibleKey
  /-- The possible keys around the open brackets, the innermost first. -/
  outer : List (Option PossibleKey)
  /-- A key may begin here. -/
  allowsKey : Bool
  /-- The handles that directives gave. -/
  handles : Tag.Handles
  /-- The tokens so far, the newest first. -/
  tokens : List Token

namespace Scanner

def start (source : Source) : Scanner :=
  ⟨source, [], none, [], true, [], []⟩

/-- Some bracket is open. -/
def inFlow (s : Scanner) : Bool := !s.outer.isEmpty

/-- The first column of what belongs to the innermost block. -/
def least (s : Scanner) : Nat :=
  match s.indents with
  | [] => 0
  | indent :: _ => indent + 1

def emit (s : Scanner) (token : Token) : Scanner :=
  { s with tokens := token :: s.tokens }

/-- Puts a token after the first `count`. -/
def insert (s : Scanner) (count : Nat) (token : Token) : Scanner :=
  let later := s.tokens.length - count
  { s with tokens := s.tokens.take later ++ token :: s.tokens.drop later }

def skip (s : Scanner) (count : Nat) : Scanner :=
  { s with rest := s.rest.drop count }

def allowKey (s : Scanner) (allowsKey : Bool) : Scanner :=
  { s with allowsKey }

-----------------------------------------------------------------------------------------------
-- Indentation

/-- Opens a block at a column, unless one is open there; its token comes after the first
`count`.
-/
def openBlock (s : Scanner) (column count : Nat) (token : Token) : Scanner :=
  if s.inFlow || column < s.least then s
  else { s.insert count token with indents := column :: s.indents }

/-- Opens a block here. -/
def openHere (s : Scanner) (column : Nat) (token : Token) : Scanner :=
  s.openBlock column s.tokens.length token

/-- Closes blocks of which the test holds, the innermost first. -/
def closeWhile (s : Scanner) (test : Nat → Bool) : Scanner :=
  let closed := s.indents.takeWhile test
  { s with
    indents := s.indents.dropWhile test
    tokens := closed.map (fun _ => .blockEnd) ++ s.tokens }

/-- Closes the blocks that are indented more than the column. -/
def closeBeyond (s : Scanner) (column : Nat) : Scanner :=
  if s.inFlow then s else s.closeWhile (column < ·)

-----------------------------------------------------------------------------------------------
-- Keys

/-- No key began where one could have. -/
def dropKey (s : Scanner) : Option Scanner :=
  if s.possible.any (·.isRequired) then none else some { s with possible := none }

/-- A key may begin here. -/
def noteKey (s : Scanner) (c : Spot) : Option Scanner :=
  if s.allowsKey then do
    let s ← s.dropKey
    let isRequired := !s.inFlow && s.indents.head? == some c.column
    pure { s with possible := some ⟨isRequired, c, s.tokens.length⟩ }
  else some s

/-- The longest key, in bytes. -/
def longestKey : Nat := 1024

/-- A possible key that ends in another line or too far away is none. -/
def settleKey (c : Spot) (possible : Option PossibleKey) : Option (Option PossibleKey) :=
  match possible with
  | none => some none
  | some p =>
    if c.line ≤ p.start.line && c.index ≤ p.start.index + longestKey then some possible
    else if p.isRequired then none
    else some none

def settleKeys (s : Scanner) (c : Spot) : Option Scanner := do
  let possible ← settleKey c s.possible
  let outer ← s.outer.mapM (settleKey c)
  pure { s with possible, outer }

-----------------------------------------------------------------------------------------------
-- Between tokens

/-- Skips blanks, breaks and comments, and a byte order mark at the beginning of a line. A key may
begin after a line break, unless a bracket is open; a tab may not stand where one may begin.
-/
def skipGap (inFlow inComment allowsKey : Bool) : Source → Bool × Source
  | [] => (allowsKey, [])
  | c :: rest =>
    if isBreak c.char then skipGap inFlow false (allowsKey || !inFlow) rest
    else if inComment then skipGap inFlow true allowsKey rest
    else if c.char == ' ' || (c.char == '\t' && (inFlow || !allowsKey)) then
      skipGap inFlow false allowsKey rest
    else if c.char == '\ufeff' && c.column == 0 then skipGap inFlow false allowsKey rest
    else if c.char == '#' then skipGap inFlow true allowsKey rest
    else (allowsKey, c :: rest)

-----------------------------------------------------------------------------------------------
-- Tokens

/-- The beginning or end of a document. -/
def documentMark (s : Scanner) (token : Token) : Option Scanner := do
  let s ← (s.closeWhile fun _ => true).dropKey
  pure (((s.allowKey false).emit token).skip 3)

/-- A directive. Each is there at most once. -/
def readDirective (s : Scanner) : Option Scanner := do
  let s ← (s.closeWhile fun _ => true).dropKey
  let (directive, rest) ← Directive.read s.rest
  let s := { (s.allowKey false).emit (.directive directive) with rest }
  match directive with
  | .version => if s.tokens.count (.directive .version) > 1 then none else pure s
  | .handle handle beginning =>
    if s.handles.any (·.1 == handle) then none
    else pure { s with handles := s.handles ++ [(handle, beginning)] }

def openFlow (s : Scanner) (c : Spot) (token : Token) : Option Scanner := do
  let s ← s.noteKey c
  let s := { s with possible := none, outer := s.possible :: s.outer }
  pure (((s.allowKey true).emit token).skip 1)

def closeFlow (s : Scanner) (token : Token) : Option Scanner := do
  let s ← s.dropKey
  let s :=
    match s.outer with
    | [] => s
    | possible :: outer => { s with possible, outer }
  pure (((s.allowKey false).emit token).skip 1)

def separate (s : Scanner) : Option Scanner := do
  let s ← s.dropKey
  pure (((s.allowKey true).emit .separator).skip 1)

def openItem (s : Scanner) (c : Spot) : Option Scanner := do
  if !s.inFlow && !s.allowsKey then none
  let s ← (s.openHere c.column .blockSequence).dropKey
  pure (((s.allowKey true).emit .item).skip 1)

/-- A key with an indicator of its own. -/
def openKey (s : Scanner) (c : Spot) : Option Scanner := do
  if !s.inFlow && !s.allowsKey then none
  let s ← (s.openHere c.column .blockMapping).dropKey
  pure (((s.allowKey !s.inFlow).emit .key).skip 1)

/-- A value, and its key if that began without an indicator. -/
def openValue (s : Scanner) (c : Spot) : Option Scanner :=
  match s.possible with
  | some p =>
    let s := (s.insert p.count .key).openBlock p.start.column p.count .blockMapping
    let s := { s with possible := none, allowsKey := false }
    some ((s.emit .value).skip 1)
  | none =>
    if !s.inFlow && !s.allowsKey then none
    else
      let s := s.openHere c.column .blockMapping
      some (((s.allowKey !s.inFlow).emit .value).skip 1)

/-- The name of an anchor or an alias. -/
def readName (s : Scanner) (c : Spot) (token : String → Token) : Option Scanner := do
  let s ← s.noteKey c
  let source : Source := s.rest.drop 1
  let name := source.takeWhile fun c => isNameChar c.char
  let rest : Source := source.dropWhile fun c => isNameChar c.char
  if name.isEmpty then none
  if !rest.atGap && !rest.atOneOf ['?', ':', ',', ']', '\x7d', '%', '@', '\x60'] then none
  pure { (s.allowKey false).emit (token (String.ofList (Source.chars name))) with rest }

def readTag (s : Scanner) (c : Spot) : Option Scanner := do
  let s ← s.noteKey c
  let (tag, rest) ← Tag.read (s.handles ++ .standard) s.rest
  if !rest.atGap && !(s.inFlow && rest.atOneOf [',']) then none
  pure { (s.allowKey false).emit (.tag tag) with rest }

def readBlockScalar (s : Scanner) (literal : Bool) : Option Scanner := do
  let s ← s.dropKey
  let (text, rest) ← blockScalar literal s.least (s.rest.drop 1)
  let style := if literal then .literal else .folded
  pure { (s.allowKey true).emit (.scalar style (String.ofList text)) with rest }

def readQuoted (s : Scanner) (c : Spot) (read : Source → Reading) : Option Scanner := do
  let s ← s.noteKey c
  let (text, rest) ← read (s.rest.drop 1)
  pure { (s.allowKey false).emit (.scalar .quoted (String.ofList text)) with rest }

def readPlain (s : Scanner) (c : Spot) : Option Scanner := do
  let s ← s.noteKey c
  let p ← plain s.inFlow s.least [] s.rest
  pure { (s.allowKey p.broken).emit (.scalar .plain (String.ofList p.text)) with rest := p.rest }

/-- Characters that cannot begin a plain scalar. -/
def indicators : List Char :=
  ['-', '?', ':', ',', '[', ']', '\x7b', '\x7d', '#', '&', '*', '!', '|', '>', '\'', '"', '%', '@',
   '\x60']

/-- A plain scalar begins with this character; a hyphen may begin one that goes on at once, and so
may a question mark or a colon outside brackets.
-/
def beginsPlain (inFlow : Bool) (c : Char) (rest : Source) : Bool :=
  (!isGap c && !indicators.contains c)
    || (c == '-' && !rest.atOneOf [' ', '\t'])
    || (!inFlow && (c == '?' || c == ':') && !rest.atGap)

/-- The token that begins with a character. -/
def readToken (s : Scanner) (c : Spot) (rest : Source) : Option Scanner :=
  let indicates (inFlow : Bool) : Bool := rest.atGap || inFlow
  if c.char == '%' && c.column == 0 then s.readDirective
  else if s.rest.atMarkOf '-' then s.documentMark .documentStart
  else if s.rest.atMarkOf '.' then s.documentMark .documentEnd
  else
    match c.char with
    | '[' => s.openFlow c .flowSequence
    | '\x7b' => s.openFlow c .flowMapping
    | ']' => s.closeFlow .flowSequenceEnd
    | '\x7d' => s.closeFlow .flowMappingEnd
    | ',' => s.separate
    | '*' => s.readName c .alias
    | '&' => s.readName c .anchor
    | '!' => s.readTag c
    | '\'' => s.readQuoted c (singleQuoted [])
    | '"' => s.readQuoted c (doubleQuoted .none)
    | ch =>
      if ch == '-' && indicates false then s.openItem c
      else if ch == '?' && indicates s.inFlow then s.openKey c
      else if ch == ':' && indicates s.inFlow then s.openValue c
      else if (ch == '|' || ch == '>') && !s.inFlow then s.readBlockScalar (ch == '|')
      else if beginsPlain s.inFlow ch rest then s.readPlain c
      else none

/-- One more token, after the gap before it. -/
def step (s : Scanner) : Option Scanner :=
  let (allowsKey, rest) := skipGap s.inFlow false s.allowsKey s.rest
  let s := { s with allowsKey, rest }
  match rest with
  | [] => some s
  | c :: rest => do
    let s ← s.settleKeys c
    (s.closeBeyond c.column).readToken c rest

/-- All blocks end with the text. -/
def finish (s : Scanner) : Option (List Token) :=
  ((s.closeWhile fun _ => true).dropKey).map fun s => s.tokens.reverse

/-- All tokens. Each takes at least one character. -/
def run : (fuel : Nat) → Scanner → Option (List Token)
  | 0, s => s.finish
  | fuel + 1, s => if s.rest.isEmpty then s.finish else s.step.bind (run fuel)

end Scanner

/-- The tokens of a text. -/
def Token.ofText? (text : String) : Option (List Token) := do
  let source ← Source.ofText? text
  (Scanner.start source).run source.length

end DataflowPlan.Yaml
