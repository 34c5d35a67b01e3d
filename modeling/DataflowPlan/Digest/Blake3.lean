/-!
The BLAKE3 digest of a byte string: chunks of 1024 bytes are the leaves of a binary tree whose left
parts are full, and the root's words are the digest.
-/

namespace DataflowPlan.Digest.Blake3

abbrev Words := Vector UInt32 8

abbrev Block := Vector UInt32 16

/-- The words that every chunk starts from. -/
def start : Words :=
  #v[0x6a09e667, 0xbb67ae85, 0x3c6ef372, 0xa54ff53a,
     0x510e527f, 0x9b05688c, 0x1f83d9ab, 0x5be0cd19]

/-- Marks of a block's place: first and last of a chunk, parent of two trees, root. -/
def chunkStart : UInt32 := 1
def chunkEnd : UInt32 := 2
def parent : UInt32 := 4
def root : UInt32 := 8

def rotateRight (word : UInt32) (count : UInt32) : UInt32 :=
  (word >>> count) ||| (word <<< (32 - count))

/-- Mixes two message words into four words of the state. -/
def mix (v : Block) (a b c d : Fin 16) (x y : UInt32) : Block :=
  let va := v[a] + v[b] + x
  let vd := rotateRight (v[d] ^^^ va) 16
  let vc := v[c] + vd
  let vb := rotateRight (v[b] ^^^ vc) 12
  let va := va + vb + y
  let vd := rotateRight (vd ^^^ va) 8
  let vc := vc + vd
  let vb := rotateRight (vb ^^^ vc) 7
  (((v.set a va).set b vb).set c vc).set d vd

/-- One round: the columns, then the diagonals. -/
def round (v m : Block) : Block :=
  let v := mix v 0 4 8 12 m[0] m[1]
  let v := mix v 1 5 9 13 m[2] m[3]
  let v := mix v 2 6 10 14 m[4] m[5]
  let v := mix v 3 7 11 15 m[6] m[7]
  let v := mix v 0 5 10 15 m[8] m[9]
  let v := mix v 1 6 11 12 m[10] m[11]
  let v := mix v 2 7 8 13 m[12] m[13]
  mix v 3 4 9 14 m[14] m[15]

/-- The message words in the order of the next round. -/
def permute (m : Block) : Block :=
  #v[m[2], m[6], m[3], m[10], m[7], m[0], m[4], m[13],
     m[1], m[11], m[12], m[5], m[9], m[14], m[15], m[8]]

def rounds : Nat → Block → Block → Block
  | 0, v, _ => v
  | n + 1, v, m => rounds n (round v m) (permute m)

/-- One block about to be compressed. -/
structure Input where
  words : Words
  block : Block
  counter : UInt64
  length : UInt32
  marks : UInt32

/-- The eight words that a block leads to. -/
def Input.compress (i : Input) : Words :=
  let s := i.words
  let v : Block :=
    #v[s[0], s[1], s[2], s[3], s[4], s[5], s[6], s[7],
       start[0], start[1], start[2], start[3],
       i.counter.toUInt32, (i.counter >>> 32).toUInt32, i.length, i.marks]
  let v := rounds 7 v i.block
  .ofFn fun n : Fin 8 => v[n.val] ^^^ v[n.val + 8]

-----------------------------------------------------------------------------------------------
-- Chunks

def byteAt (bytes : ByteArray) (i : Nat) : UInt32 :=
  if h : i < bytes.size then bytes[i].toUInt32 else 0

/-- Four bytes, the lowest first; bytes past the end are zero. -/
def wordAt (bytes : ByteArray) (i : Nat) : UInt32 :=
  byteAt bytes i ||| (byteAt bytes (i + 1) <<< 8) ||| (byteAt bytes (i + 2) <<< 16)
    ||| (byteAt bytes (i + 3) <<< 24)

/-- The sixteen words of up to 64 bytes. -/
def blockOf (bytes : ByteArray) : Block :=
  .ofFn fun n : Fin 16 => wordAt bytes (4 * n.val)

/-- The last block of a chunk, after all earlier ones are compressed. -/
def chunkFrom (counter : UInt64) : Nat → UInt32 → Words → ByteArray → Input
  | 0, marks, words, bytes =>
    ⟨words, blockOf bytes, counter, bytes.size.toUInt32, marks ||| chunkEnd⟩
  | more + 1, marks, words, bytes =>
    if 64 < bytes.size then
      let words := Input.compress ⟨words, blockOf (bytes.extract 0 64), counter, 64, marks⟩
      chunkFrom counter more 0 words (bytes.extract 64 bytes.size)
    else ⟨words, blockOf bytes, counter, bytes.size.toUInt32, marks ||| chunkEnd⟩

/-- A chunk of at most 1024 bytes, which are sixteen blocks. -/
def chunk (counter : UInt64) (bytes : ByteArray) : Input :=
  chunkFrom counter 15 chunkStart start bytes

-----------------------------------------------------------------------------------------------
-- The tree

/-- The node above two trees. -/
def join (left right : Words) : Input :=
  ⟨start, left ++ right, 0, 64, parent⟩

/-- The largest power-of-two number of chunks that leaves something to the right. -/
def leftChunks (chunks : Nat) : Nat :=
  Nat.pow 2 (chunks - 1).log2

/-- The last input of the tree over the bytes, the first chunk having number `counter`. -/
def tree : Nat → UInt64 → ByteArray → Input
  | 0, counter, bytes => chunk counter bytes
  | height + 1, counter, bytes =>
    if bytes.size ≤ 1024 then chunk counter bytes
    else
      let left := leftChunks ((bytes.size + 1023) / 1024)
      let first := tree height counter (bytes.extract 0 (1024 * left))
      let second := tree height (counter + left.toUInt64) (bytes.extract (1024 * left) bytes.size)
      join first.compress second.compress

/-- The four bytes of a word, the lowest first. -/
def bytesOfWord (word : UInt32) : List UInt8 :=
  [word.toUInt8, (word >>> 8).toUInt8, (word >>> 16).toUInt8, (word >>> 24).toUInt8]

/-- The 32 bytes of the digest. -/
def digest (bytes : ByteArray) : List UInt8 :=
  let top := tree (bytes.size.log2 + 1) 0 bytes
  let words := Input.compress { top with marks := top.marks ||| root }
  words.toList.flatMap bytesOfWord

end DataflowPlan.Digest.Blake3
