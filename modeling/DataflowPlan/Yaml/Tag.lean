import DataflowPlan.Decimal.Reader
import DataflowPlan.Yaml.Source

/-!
Tags: names of what a node stands for. A tag is written in full between angle brackets, or with a
handle that stands for its beginning; directives in front of a document give the handles.
-/

namespace DataflowPlan.Yaml

structure Tag where
  name : String
deriving DecidableEq, Inhabited

namespace Tag

-----------------------------------------------------------------------------------------------
-- Kinds of tags

/-- What stands after the exclamation mark of a tag that the document makes up. -/
def own? (tag : Tag) : Option String :=
  match tag.name.toList with
  | '!' :: rest => some (String.ofList rest)
  | _ => none

/-- The exclamation mark alone, which asks for nothing. -/
def blank : Tag := ⟨"!"⟩

/-- The beginning of the tags that all documents share. -/
def shared : String := "tag:yaml.org,2002:"

def null : Tag := ⟨shared ++ "null"⟩
def boolean : Tag := ⟨shared ++ "bool"⟩
def integer : Tag := ⟨shared ++ "int"⟩
def float : Tag := ⟨shared ++ "float"⟩

/-- Handles and the beginnings that they stand for. -/
abbrev Handles := List (String × String)

/-- The handles of a document that gives none. -/
def Handles.standard : Handles :=
  [("!", "!"), ("!!", shared)]

/-- The tag of a handle and what stands after it. -/
def ofHandle? (handles : Handles) (handle suffix : String) : Option Tag :=
  (handles.find? (·.1 == handle)).map fun (_, beginning) => ⟨beginning ++ suffix⟩

-----------------------------------------------------------------------------------------------
-- Characters

/-- The marks that may stand in a tag, one of which begins an escape. -/
def marks : List Char :=
  [';', '/', '?', ':', '@', '&', '=', '+', '$', '.', '%', '!', '~', '*', '\'', '(', ')']

/-- May stand in a tag; between angle brackets a few more marks may. -/
def isTagChar (inBrackets : Bool) (c : Char) : Bool :=
  isNameChar c || marks.contains c || (inBrackets && [',', '[', ']'].contains c)

/-- The character of a code point; one that has none is replaced. -/
def charOfCode (code : Nat) : Char :=
  if h : code.isValidChar then Char.ofNatAux code h else '\ufffd'

/-- What the first octet of a character says: its bits and the number of octets that follow. -/
def lead? (octet : Nat) : Option (Nat × Nat) :=
  if octet < 0x80 then some (octet, 0)
  else if octet < 0xc0 then none
  else if octet < 0xe0 then some (octet % 0x20, 1)
  else if octet < 0xf0 then some (octet % 0x10, 2)
  else if octet < 0xf8 then some (octet % 0x08, 3)
  else none

/-- The characters that a tag stands for. An escape is an octet, and `left` octets have yet to come
for the character whose first bits are `code`.
-/
def unescape? (code left : Nat) : List Char → Option (List Char)
  | [] => if left = 0 then some [] else none
  | '%' :: a :: b :: rest =>
    match Decimal.natOfDigits? 16 [a, b], left with
    | none, _ => none
    | some octet, 0 =>
      match lead? octet with
      | none => none
      | some (code, 0) => (unescape? 0 0 rest).map (charOfCode code :: ·)
      | some (code, left + 1) => unescape? code (left + 1) rest
    | some octet, left + 1 =>
      let code := code * 0x40 + octet % 0x40
      if octet / 0x40 ≠ 2 then none
      else if left = 0 then (unescape? 0 0 rest).map (charOfCode code :: ·)
      else unescape? code left rest
  | c :: rest => if c = '%' || left ≠ 0 then none else (unescape? 0 0 rest).map (c :: ·)

-----------------------------------------------------------------------------------------------
-- Reading

/-- The characters of a tag from here on. -/
def readChars (inBrackets : Bool) (source : Source) : Reading :=
  let isPart (c : Spot) : Bool := isTagChar inBrackets c.char
  (unescape? 0 0 (Source.chars (source.takeWhile isPart))).map (·, source.dropWhile isPart)

/-- An exclamation mark with a name, and another mark if there is one. -/
def readHandle : Source → Reading
  | [] => none
  | c :: rest =>
    let isPart (c : Spot) : Bool := isNameChar c.char
    let name := Source.chars (rest.takeWhile isPart)
    let after : Source := rest.dropWhile isPart
    if c.char != '!' then none
    else if after.atOneOf ['!'] then some ('!' :: name ++ ['!'], after.drop 1)
    else some ('!' :: name, after)

/-- Two exclamation marks are around the name of the handle. -/
def isNamed (handle : List Char) : Bool :=
  handle.length > 1 && handle.getLast? == some '!'

/-- A tag, and the source after it. -/
def read (handles : Handles) (source : Source) : Option (Tag × Source) :=
  if Source.atOneOf ['<'] (source.drop 1) then do
    let (name, rest) ← readChars true (source.drop 2)
    if name.isEmpty || !rest.atOneOf ['>'] then none
    pure (⟨String.ofList name⟩, rest.drop 1)
  else do
    let (handle, rest) ← readHandle source
    let (suffix, rest) ← readChars false rest
    if isNamed handle then
      if suffix.isEmpty then none
      let tag ← ofHandle? handles (String.ofList handle) (String.ofList suffix)
      pure (tag, rest)
    else
      let suffix := handle.drop 1 ++ suffix
      if suffix.isEmpty then pure (blank, rest)
      else
        let tag ← ofHandle? handles "!" (String.ofList suffix)
        pure (tag, rest)

end Tag

-----------------------------------------------------------------------------------------------
-- Directives

/-- What stands in front of a document about how to read it. -/
inductive Directive
  /-- The document is of a version that is understood. -/
  | version
  /-- A handle stands for the beginning of tags. -/
  | handle (handle beginning : String)
deriving DecidableEq

namespace Directive

def skipBlanks (source : Source) : Source :=
  source.dropWhile fun c => isBlank c.char

/-- A number of at most nine digits. -/
def readNumber (source : Source) : Option (Nat × Source) :=
  let isPart (c : Spot) : Bool := c.char.isDigit
  let ds := Source.chars (source.takeWhile isPart)
  if ds.length ≤ 9 then (Decimal.natOfDigits? 10 ds).map (·, source.dropWhile isPart) else none

/-- A version: 1.1 or 1.2. -/
def readVersion (source : Source) : Option (Directive × Source) := do
  let (major, rest) ← readNumber (skipBlanks source)
  if !rest.atOneOf ['.'] then none
  let (minor, rest) ← readNumber (rest.drop 1)
  if major = 1 && (minor = 1 || minor = 2) then pure (version, rest) else none

/-- A handle, which has two exclamation marks or is one, and a beginning. -/
def readBeginning (source : Source) : Option (Directive × Source) := do
  let (name, rest) ← Tag.readHandle (skipBlanks source)
  if !Tag.isNamed name && name.length > 1 then none
  if !rest.atOneOf [' ', '\t'] then none
  let (beginning, rest) ← Tag.readChars true (skipBlanks rest)
  if beginning.isEmpty || !rest.atGap then none
  pure (.handle (String.ofList name) (String.ofList beginning), rest)

/-- A directive with all of its line. Only a comment may follow in it. -/
def read (source : Source) : Option (Directive × Source) := do
  let isPart (c : Spot) : Bool := isNameChar c.char
  let source := source.drop 1
  let name := String.ofList (Source.chars (source.takeWhile isPart))
  let rest : Source := source.dropWhile isPart
  if !rest.atGap then none
  let (directive, rest) ←
    if name = "YAML" then readVersion rest
    else if name = "TAG" then readBeginning rest
    else none
  let rest : Source := skipBlanks rest
  let rest := if rest.atOneOf ['#'] then rest.afterLine else rest
  if rest.line.isEmpty then pure (directive, rest) else none

end Directive

end DataflowPlan.Yaml
