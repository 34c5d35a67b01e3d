import DataflowPlan.Json.Value

/-!
Reading JSON text. A reader takes what it understands from the front of the characters and
returns the rest; the text of a value is read when nothing but blanks is left. Half of a pair of
surrogates is well formed, but no part of a text that can be read.
-/

namespace DataflowPlan.Json

/-- The four characters that may stand between the parts of a text. -/
def isSpace (c : Char) : Bool :=
  c == ' ' || c == '\n' || c == '\t' || c == '\r'

def skipSpace (text : List Char) : List Char :=
  text.dropWhile isSpace

-----------------------------------------------------------------------------------------------
-- Texts

/-- The unit of 16 bits that four hexadecimal digits write. -/
def unit? (a b c d : Char) : Option Nat :=
  Decimal.natOfDigits? 16 [a, b, c, d]

/-- The character of one unit that stands alone. -/
def charOfUnit? (u : Nat) : Option Char :=
  if h : u.isValidChar then some (Char.ofNatAux u h) else none

/-- The character of a high and a low surrogate. -/
def charOfPair? (high low : Nat) : Option Char :=
  if 0xd800 ≤ high && high < 0xdc00 && 0xdc00 ≤ low && low < 0xe000 then
    charOfUnit? (0x10000 + (high - 0xd800) * 0x400 + (low - 0xdc00))
  else none

/-- The character that a letter after a backslash stands for. -/
def unescaped? : Char → Option Char
  | '"' => some '"'
  | '\\' => some '\\'
  | '/' => some '/'
  | 'b' => some '\x08'
  | 'f' => some '\x0c'
  | 'n' => some '\n'
  | 'r' => some '\r'
  | 't' => some '\t'
  | _ => none

/-- A part of a text between quotes. -/
inductive Piece
  | char (c : Char)
  /-- A unit of 16 bits by its digits. -/
  | unit (u : Nat)

/-- The pieces up to the closing quote, and the text after it. -/
def readPieces : List Char → Option (List Piece × List Char)
  | [] => none
  | '"' :: rest => some ([], rest)
  | '\\' :: 'u' :: a :: b :: c :: d :: rest =>
    match unit? a b c d with
    | some u => (readPieces rest).map fun (pieces, rest) => (.unit u :: pieces, rest)
    | none => none
  | '\\' :: c :: rest =>
    match unescaped? c with
    | some c => (readPieces rest).map fun (pieces, rest) => (.char c :: pieces, rest)
    | none => none
  | c :: rest =>
    if c.toNat < 0x20 then none
    else (readPieces rest).map fun (pieces, rest) => (.char c :: pieces, rest)

/-- The text of pieces, each surrogate being half of a pair. -/
def textOfPieces? : List Piece → Option (List Char)
  | [] => some []
  | .char c :: rest => (textOfPieces? rest).map (c :: ·)
  | .unit u :: rest =>
    match charOfUnit? u with
    | some c => (textOfPieces? rest).map (c :: ·)
    | none =>
      match rest with
      | .unit v :: rest =>
        match charOfPair? u v with
        | some c => (textOfPieces? rest).map (c :: ·)
        | none => none
      | _ => none

/-- The text up to the closing quote, none inside if it cannot be read; and what comes after it. -/
def readText (text : List Char) : Option (Option String × List Char) :=
  (readPieces text).map fun (pieces, rest) => ((textOfPieces? pieces).map String.ofList, rest)

/-- The value of a text. -/
def valueOfText : Option String → Value
  | some s => .text s
  | none => .unreadable

/-- The object with one more member in front. -/
def Value.withMember (object : Value) (name : Option String) (value : Value) : Value :=
  match object, name with
  | .object members, some name => .object ((name, value) :: members)
  | _, _ => .unreadable

-----------------------------------------------------------------------------------------------
-- Numbers

/-- Digits without a zero in front, unless it stands alone. -/
def readWhole (text : List Char) : Option (List Char × List Char) :=
  let ds := text.takeWhile Char.isDigit
  match ds with
  | [] => none
  | '0' :: _ :: _ => none
  | _ => some (ds, text.dropWhile Char.isDigit)

/-- A point and at least one digit, or no point at all. -/
def readFraction : List Char → Option (List Char × List Char)
  | '.' :: text =>
    let ds := text.takeWhile Char.isDigit
    if ds.isEmpty then none else some (ds, text.dropWhile Char.isDigit)
  | text => some ([], text)

/-- An exponent mark, a sign and at least one digit, or no mark at all. -/
def readExponent : List Char → Option (Option Int × List Char)
  | mark :: text =>
    if mark = 'e' || mark = 'E' then
      let (negative, text) :=
        match text with
        | '-' :: rest => (true, rest)
        | '+' :: rest => (false, rest)
        | _ => (false, text)
      let ds := text.takeWhile Char.isDigit
      if ds.isEmpty then none
      else
        let n : Int := Nat.ofDigitChars 10 ds 0
        some (some (if negative then -n else n), text.dropWhile Char.isDigit)
    else some (none, mark :: text)
  | [] => some (none, [])

/-- A number; digits alone are a natural number. -/
def readNumber (text : List Char) : Option (Number × List Char) :=
  let (negative, text) :=
    match text with
    | '-' :: rest => (true, rest)
    | _ => (false, text)
  match readWhole text with
  | none => none
  | some (whole, text) =>
    match readFraction text with
    | none => none
    | some (fraction, text) =>
      match readExponent text with
      | none => none
      | some (exponent, text) =>
        if !negative && fraction.isEmpty && exponent.isNone then
          some (.natural (Nat.ofDigitChars 10 whole 0), text)
        else some (.decimal negative whole fraction (exponent.getD 0), text)

-----------------------------------------------------------------------------------------------
-- Values

mutual

/-- A value with at most `fuel` values and punctuation marks on the way to any part of it. -/
def readValue : Nat → List Char → Option (Value × List Char)
  | 0, _ => none
  | fuel + 1, text =>
    match skipSpace text with
    | 'n' :: 'u' :: 'l' :: 'l' :: rest => some (.null, rest)
    | 't' :: 'r' :: 'u' :: 'e' :: rest => some (.boolean true, rest)
    | 'f' :: 'a' :: 'l' :: 's' :: 'e' :: rest => some (.boolean false, rest)
    | '"' :: rest => (readText rest).map fun (text, rest) => (valueOfText text, rest)
    | '[' :: rest =>
      match skipSpace rest with
      | ']' :: rest => some (.array [], rest)
      | rest => (readItems fuel rest).map fun (items, rest) => (.array items, rest)
    | '\x7b' :: rest =>
      match skipSpace rest with
      | '\x7d' :: rest => some (.object [], rest)
      | rest => readMembers fuel rest
    | rest => (readNumber rest).map fun (n, rest) => (.number n, rest)

/-- Items up to the closing bracket. -/
def readItems : Nat → List Char → Option (List Value × List Char)
  | 0, _ => none
  | fuel + 1, text =>
    match readValue fuel text with
    | none => none
    | some (item, rest) =>
      match skipSpace rest with
      | ',' :: rest => (readItems fuel rest).map fun (items, rest) => (item :: items, rest)
      | ']' :: rest => some ([item], rest)
      | _ => none

/-- The object of the members up to the closing brace. -/
def readMembers : Nat → List Char → Option (Value × List Char)
  | 0, _ => none
  | fuel + 1, text =>
    match skipSpace text with
    | '"' :: rest =>
      match readText rest with
      | none => none
      | some (name, rest) =>
        match skipSpace rest with
        | ':' :: rest =>
          match readValue fuel rest with
          | none => none
          | some (value, rest) =>
            match skipSpace rest with
            | ',' :: rest =>
              (readMembers fuel rest).map fun (object, rest) => (object.withMember name value, rest)
            | '\x7d' :: rest => some ((Value.object []).withMember name value, rest)
            | _ => none
        | _ => none
    | _ => none

end

/-- The value that a text writes, with nothing but blanks around it. -/
def Value.ofChars? (text : List Char) : Option Value :=
  match readValue (text.length + 1) text with
  | some (v, rest) => if (skipSpace rest).isEmpty then some v else none
  | none => none

/-- The value that a text writes. -/
def Value.ofText? (text : String) : Option Value :=
  Value.ofChars? text.toList

end DataflowPlan.Json
