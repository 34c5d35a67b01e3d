import DataflowPlan.Digest.Blake3

/-!
Digests: 32 bytes that stand for a text, and their hexadecimal forms.
-/

namespace DataflowPlan

/-- A digest of 32 bytes. -/
structure Digest where
  bytes : List UInt8
deriving DecidableEq

namespace Digest

def ofBytes (bytes : ByteArray) : Digest :=
  ⟨Blake3.digest bytes⟩

/-- The digest of a text's UTF-8 bytes. -/
def ofText (text : String) : Digest :=
  ofBytes text.toUTF8

/-- Two lower-case digits a byte. -/
def hex (d : Digest) : String :=
  String.ofList (d.bytes.flatMap fun b =>
    [Nat.digitChar (b.toNat / 16), Nat.digitChar (b.toNat % 16)])

/-- The first twelve hexadecimal digits, enough to tell plans apart. -/
def short (d : Digest) : String :=
  String.ofList (d.hex.toList.take 12)

end Digest

end DataflowPlan
