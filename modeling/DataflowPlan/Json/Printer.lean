import DataflowPlan.Json.Value

/-!
Writing JSON: compact text without spaces, and text indented by two spaces. Characters from the
space on are written as they are, apart from the quote and the backslash; for a value that cannot be
read there is null.
-/

namespace DataflowPlan.Json

/-- How one character stands inside a text. -/
def escape (c : Char) : List Char :=
  if c = '"' then ['\\', '"']
  else if c = '\\' then ['\\', '\\']
  else if c = '\n' then ['\\', 'n']
  else if c = '\r' then ['\\', 'r']
  else if c = '\t' then ['\\', 't']
  else if c = '\x08' then ['\\', 'b']
  else if c = '\x0c' then ['\\', 'f']
  else if c.toNat < 0x20 then
    ['\\', 'u', '0', '0', Nat.digitChar (c.toNat / 16), Nat.digitChar (c.toNat % 16)]
  else [c]

/-- A text between quotes. -/
def renderText (s : String) : List Char :=
  '"' :: s.toList.flatMap escape ++ ['"']

namespace Value

mutual

/-- The value without any space. -/
def compact : Value → List Char
  | .null | .unreadable => ['n', 'u', 'l', 'l']
  | .boolean true => ['t', 'r', 'u', 'e']
  | .boolean false => ['f', 'a', 'l', 's', 'e']
  | .number n => n.render
  | .text s => renderText s
  | .array [] => ['[', ']']
  | .array (item :: rest) => '[' :: (item.compact ++ compactItems rest)
  | .object [] => ['\x7b', '\x7d']
  | .object ((name, value) :: rest) =>
    '\x7b' :: (renderText name ++ ':' :: (value.compact ++ compactMembers rest))

/-- The items after the first and the closing bracket. -/
def compactItems : List Value → List Char
  | [] => [']']
  | item :: rest => ',' :: (item.compact ++ compactItems rest)

/-- The members after the first and the closing brace. -/
def compactMembers : List (String × Value) → List Char
  | [] => ['\x7d']
  | (name, value) :: rest =>
    ',' :: (renderText name ++ ':' :: (value.compact ++ compactMembers rest))

end

/-- A new line, indented by two spaces a level. -/
def newline (level : Nat) : List Char :=
  '\n' :: List.replicate (2 * level) ' '

mutual

/-- The value with each item and member on a line of its own; empty ones stay closed. -/
def indented (level : Nat) : Value → List Char
  | .array (item :: rest) =>
    '[' :: (newline (level + 1) ++ item.indented (level + 1) ++ indentedItems level rest)
  | .object ((name, value) :: rest) =>
    '\x7b' :: (newline (level + 1) ++ renderText name ++ ':' :: ' ' ::
      (value.indented (level + 1) ++ indentedMembers level rest))
  | .array [] => ['[', ']']
  | .object [] => ['\x7b', '\x7d']
  | .null | .unreadable => ['n', 'u', 'l', 'l']
  | .boolean true => ['t', 'r', 'u', 'e']
  | .boolean false => ['f', 'a', 'l', 's', 'e']
  | .number n => n.render
  | .text s => renderText s

def indentedItems (level : Nat) : List Value → List Char
  | [] => newline level ++ [']']
  | item :: rest =>
    ',' :: (newline (level + 1) ++ item.indented (level + 1) ++ indentedItems level rest)

def indentedMembers (level : Nat) : List (String × Value) → List Char
  | [] => newline level ++ ['\x7d']
  | (name, value) :: rest =>
    ',' :: (newline (level + 1) ++ renderText name ++ ':' :: ' ' ::
      (value.indented (level + 1) ++ indentedMembers level rest))

end

/-- The compact text of a value. -/
def compactText (v : Value) : String :=
  String.ofList v.compact

/-- The indented text of a value. -/
def indentedText (v : Value) : String :=
  String.ofList (v.indented 0)

end Value

end DataflowPlan.Json
