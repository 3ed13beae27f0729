import CodeAtlas.Width

/-!
The BLAKE3 hash of a byte string, 32 bytes long, as text in hexadecimal. The input is cut into chunks of
1024 bytes, each chunk is compressed block by block, and the chunks' chaining values are joined in a
binary tree whose left side is the largest power of two of chunks that leaves something for the right.
Nothing is claimed about collisions.
-/
namespace CodeAtlas.Hash

/-- The eight words that start every chunk. -/
def startWords : List UInt32 :=
  [0x6A09E667, 0xBB67AE85, 0x3C6EF372, 0xA54FF53A, 0x510E527F, 0x9B05688C, 0x1F83D9AB, 0x5BE0CD19]

/-- The order in which a round takes the words of the round before. -/
def schedule : List Nat := [2, 6, 3, 10, 7, 0, 4, 13, 1, 11, 12, 5, 9, 14, 15, 8]

/-- The cells that one round mixes, four at a time: columns, then diagonals. -/
def quarters : List (Nat × Nat × Nat × Nat) :=
  [(0, 4, 8, 12), (1, 5, 9, 13), (2, 6, 10, 14), (3, 7, 11, 15),
   (0, 5, 10, 15), (1, 6, 11, 12), (2, 7, 8, 13), (3, 4, 9, 14)]

/-- Rotate a word to the right. -/
def rotateRight (x : UInt32) (n : UInt32) : UInt32 := (x >>> n) ||| (x <<< (32 - n))

/-- Mix two message words into four cells. -/
def mix (s : Array UInt32) (q : Nat × Nat × Nat × Nat) (x y : UInt32) : Array UInt32 :=
  let (i, j, k, l) := q
  let a := s.getD i 0 + s.getD j 0 + x
  let d := rotateRight (s.getD l 0 ^^^ a) 16
  let c := s.getD k 0 + d
  let b := rotateRight (s.getD j 0 ^^^ c) 12
  let a := a + b + y
  let d := rotateRight (d ^^^ a) 8
  let c := c + d
  let b := rotateRight (b ^^^ c) 7
  (((s.setIfInBounds i a).setIfInBounds j b).setIfInBounds k c).setIfInBounds l d

/-- One round over all cells. -/
def mixRound (message : Array UInt32) (s : Array UInt32) : Array UInt32 :=
  (quarters.zipIdx).foldl
    (fun s (q, i) => mix s q (message.getD (2 * i) 0) (message.getD (2 * i + 1) 0)) s

/-- The message words in the order of the next round. -/
def reorder (message : Array UInt32) : Array UInt32 :=
  (schedule.map fun i => message.getD i 0).toArray

/-- `rounds` rounds, the message reordered between them. -/
def mixRounds : Nat → Array UInt32 → Array UInt32 → Array UInt32
  | 0, _, s => s
  | rounds + 1, message, s => mixRounds rounds (reorder message) (mixRound message s)

/-- What a block is compressed with: its place in the input, its length and the marks on it. -/
structure Block where
  chaining : List UInt32
  words : Array UInt32
  counter : UInt64
  length : UInt32
  marks : UInt32

/-- The eight words that a block is compressed to. -/
def Block.compress (b : Block) : List UInt32 :=
  let start := b.chaining ++ startWords.take 4 ++
    [b.counter.toUInt32, (b.counter >>> 32).toUInt32, b.length, b.marks]
  let final := mixRounds 7 b.words start.toArray
  (List.range 8).map fun i => final.getD i 0 ^^^ final.getD (i + 8) 0

/-- The mark on the first block of a chunk. -/
def chunkStart : UInt32 := 1

/-- The mark on the last block of a chunk. -/
def chunkEnd : UInt32 := 2

/-- The mark on a block that joins two parts of the tree. -/
def parent : UInt32 := 4

/-- The mark on the block that yields the result. -/
def root : UInt32 := 8

/-- The little-endian words of at most 64 bytes, filled up with zeros. -/
def words (bytes : List UInt8) : Array UInt32 :=
  let a := bytes.toArray
  ((List.range 16).map fun i =>
    (a.getD (4 * i) 0).toUInt32 ||| ((a.getD (4 * i + 1) 0).toUInt32 <<< 8) |||
    ((a.getD (4 * i + 2) 0).toUInt32 <<< 16) ||| ((a.getD (4 * i + 3) 0).toUInt32 <<< 24)).toArray

/-- Pieces of `size` items; the last one may be shorter. -/
def pieces (size : Nat) (xs : List α) : List (List α) :=
  if _h : xs.length ≤ size ∨ size = 0 then [xs]
  else xs.take size :: pieces size (xs.drop size)
termination_by xs.length
decreasing_by simp only [List.length_drop]; omega

/-- The last block of a chunk, the blocks before it compressed. -/
def lastBlock (counter : UInt64) (chunk : List UInt8) : Block :=
  let blocks := pieces 64 chunk
  let count := blocks.length
  let step (acc : List UInt32 × Block) (b : List UInt8 × Nat) : List UInt32 × Block :=
    let marks := (if b.2 = 0 then chunkStart else 0) ||| (if b.2 + 1 = count then chunkEnd else 0)
    let block : Block := ⟨acc.1, words b.1, counter, b.1.length.toUInt32, marks⟩
    (block.compress, block)
  (blocks.zipIdx.foldl step (startWords, ⟨startWords, #[], 0, 0, 0⟩)).2

/-- The block that joins two parts of the tree. -/
def joinBlock (left right : List UInt32) : Block :=
  ⟨startWords, (left ++ right).toArray, 0, 64, parent⟩

/-- The number of chunks on the left of a tree over `n` chunks. -/
def leftCount (n : Nat) : Nat := Width.size (n - 1).log2

/-- The block at the root of the tree over some chunks, before it is marked; `depth` bounds the height. -/
def topBlock : Nat → List (UInt64 × List UInt8) → Block
  | _, [] => lastBlock 0 []
  | _, [(i, c)] => lastBlock i c
  | 0, (i, c) :: _ => lastBlock i c
  | depth + 1, chunks =>
    let n := leftCount chunks.length
    joinBlock (topBlock depth (chunks.take n)).compress (topBlock depth (chunks.drop n)).compress

/-- The 32 bytes that a byte string is hashed to. -/
def digest (bytes : List UInt8) : List UInt8 :=
  let chunks := (pieces 1024 bytes).zipIdx.map fun (c, i) => (i.toUInt64, c)
  let top := topBlock (chunks.length.log2 + 1) chunks
  let final := { top with marks := top.marks ||| root }
  final.compress.flatMap fun (w : UInt32) =>
    [w.toUInt8, (w >>> 8).toUInt8, (w >>> 16).toUInt8, (w >>> 24).toUInt8]

/-- Bytes as pairs of hexadecimal digits. -/
def hexText (bytes : List UInt8) : String :=
  String.ofList (bytes.flatMap fun (b : UInt8) =>
    [Nat.digitChar (b.toNat / 16), Nat.digitChar (b.toNat % 16)])

/-- The hash of a byte string as 64 hexadecimal digits. -/
def hashBytes (bytes : List UInt8) : String := hexText (digest bytes)

/-- The first digit of a hash stands for the upper half of the first byte. -/
theorem head?_hashBytes (bytes : List UInt8) :
    (hashBytes bytes).toList.head? = (digest bytes).head?.map fun b => Nat.digitChar (b.toNat / 16) := by
  unfold hashBytes hexText
  rw [String.toList_ofList]
  cases digest bytes <;> rfl

/-- The hash of a text's UTF-8 bytes. -/
def hashText (s : String) : String := hashBytes s.toUTF8.toList

end CodeAtlas.Hash
