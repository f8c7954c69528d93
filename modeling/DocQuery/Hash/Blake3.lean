/-!
# BLAKE3

The BLAKE3 hash of a byte string, in its default unkeyed mode with a 32-byte output. The input
is cut into chunks of 1024 bytes and each chunk into blocks of 64 bytes, compressed in turn
from the initial words. With several chunks, their chaining values are merged in a binary tree
whose left subtree holds the largest power of two of chunks that is less than their number.
The last compression, of the only chunk's last block or of the top parent, is flagged as the
root, and its first eight words, written little-endian, are the hash.
-/

namespace DocQuery

namespace Blake3

/-- The initial words: those of SHA-256. -/
def iv : Array UInt32 :=
  #[0x6A09E667, 0xBB67AE85, 0x3C6EF372, 0xA54FF53A, 0x510E527F, 0x9B05688C, 0x1F83D9AB, 0x5BE0CD19]

/-- The order in which message words are taken in the next round. -/
def permutation : Array Nat := #[2, 6, 3, 10, 7, 0, 4, 13, 1, 11, 12, 5, 9, 14, 15, 8]

/-- Flag of a chunk's first block. -/
def chunkStart : UInt32 := 1
/-- Flag of a chunk's last block. -/
def chunkEnd : UInt32 := 2
/-- Flag of a parent node. -/
def parent : UInt32 := 4
/-- Flag of the root compression. -/
def root : UInt32 := 8

/-- Bytes in a block. -/
def blockLen : Nat := 64
/-- Bytes in a chunk. -/
def chunkLen : Nat := 1024

/-- Rotation to the right by `n` bits. -/
def rotr (x : UInt32) (n : UInt32) : UInt32 := (x >>> n) ||| (x <<< (32 - n))

/-- The mixing function on the state words `a`, `b`, `c`, `d` with two message words. -/
def mix (s : Array UInt32) (a b c d : Nat) (mx my : UInt32) : Array UInt32 :=
  let va := s.getD a 0 + s.getD b 0 + mx
  let vd := rotr (s.getD d 0 ^^^ va) 16
  let vc := s.getD c 0 + vd
  let vb := rotr (s.getD b 0 ^^^ vc) 12
  let va := va + vb + my
  let vd := rotr (vd ^^^ va) 8
  let vc := vc + vd
  let vb := rotr (vb ^^^ vc) 7
  ((s.setIfInBounds a va).setIfInBounds b vb |>.setIfInBounds c vc).setIfInBounds d vd

/-- One round: the four columns, then the four diagonals. -/
def round (s : Array UInt32) (m : Array UInt32) : Array UInt32 :=
  let w (i : Nat) := m.getD i 0
  let s := mix s 0 4 8 12 (w 0) (w 1)
  let s := mix s 1 5 9 13 (w 2) (w 3)
  let s := mix s 2 6 10 14 (w 4) (w 5)
  let s := mix s 3 7 11 15 (w 6) (w 7)
  let s := mix s 0 5 10 15 (w 8) (w 9)
  let s := mix s 1 6 11 12 (w 10) (w 11)
  let s := mix s 2 7 8 13 (w 12) (w 13)
  mix s 3 4 9 14 (w 14) (w 15)

/-- The message words in the order of the next round. -/
def permute (m : Array UInt32) : Array UInt32 := permutation.map (m.getD · 0)

/-- Seven rounds, the message permuted between them. -/
def rounds : Nat → Array UInt32 → Array UInt32 → Array UInt32
  | 0, s, _ => s
  | n + 1, s, m => rounds n (round s m) (permute m)

/-- The compression function: sixteen output words from a chaining value, a block of sixteen
words, a counter, the block's length in bytes and the flags. -/
def compress (cv block : Array UInt32) (counter : Nat) (len : Nat) (flags : UInt32) :
    Array UInt32 :=
  let s := cv ++ iv.extract 0 4 ++
    #[counter.toUInt32, (counter >>> 32).toUInt32, len.toUInt32, flags]
  let s := rounds 7 s block
  (Array.range 8).map (fun i => s.getD i 0 ^^^ s.getD (i + 8) 0) ++
    (Array.range 8).map (fun i => s.getD (i + 8) 0 ^^^ cv.getD i 0)

/-- The little-endian word of four bytes. -/
def word (b0 b1 b2 b3 : UInt8) : UInt32 :=
  b0.toUInt32 ||| (b1.toUInt32 <<< 8) ||| (b2.toUInt32 <<< 16) ||| (b3.toUInt32 <<< 24)

/-- Sixteen little-endian words of up to 64 bytes, padded with zeros. -/
def words (bytes : List UInt8) : Array UInt32 :=
  let padded := (bytes ++ List.replicate (blockLen - bytes.length) 0).toArray
  (Array.range 16).map fun i =>
    word (padded.getD (4 * i) 0) (padded.getD (4 * i + 1) 0) (padded.getD (4 * i + 2) 0)
      (padded.getD (4 * i + 3) 0)

/-- The pieces of a list of at most `n` elements each, in order; `n` is positive. -/
def pieces {α : Type} (n : Nat) (xs : List α) : List (List α) :=
  if _hshort : xs.length ≤ n ∨ n = 0 then [xs]
  else xs.take n :: pieces n (xs.drop n)
termination_by xs.length
decreasing_by simp only [List.length_drop]; omega

/-- Compresses the blocks of a chunk from a chaining value; the last block carries the chunk
end flag and `last` flags. -/
def chunkBlocks (cv : Array UInt32) (index : Nat) (lastFlags : UInt32) :
    Bool → List (List UInt8) → Array UInt32
  | _, [] => cv
  | first, [b] =>
    compress cv (words b) index b.length ((if first then chunkStart else 0) ||| chunkEnd ||| lastFlags)
  | first, b :: rest =>
    let cv := (compress cv (words b) index b.length (if first then chunkStart else 0)).extract 0 8
    chunkBlocks cv index lastFlags false rest

/-- The output of a chunk: its chaining value in the first eight words, with `flags` added to
its last block. -/
def chunkOutput (chunk : List UInt8) (index : Nat) (flags : UInt32) : Array UInt32 :=
  chunkBlocks iv index flags true (pieces blockLen chunk)

/-- The largest power of two that is less than `n`, for `n` at least two. -/
def leftCount (n : Nat) : Nat := Nat.pow 2 (Nat.log2 (n - 1))

/-- The output of the subtree over chunks `index`, `index + 1`, ...; `flags` go to its top
compression. -/
def treeOutput (chunks : List (List UInt8)) (index : Nat) (flags : UInt32) : Array UInt32 :=
  if h : chunks.length ≤ 1 then
    chunkOutput (chunks.headD []) index flags
  else
    let k := leftCount chunks.length
    have hk : 0 < k := Nat.two_pow_pos _
    have hk' : k < chunks.length := by
      have := Nat.log2_self_le (n := chunks.length - 1) (by omega)
      unfold k leftCount; rw [Nat.pow_eq]; omega
    let left := (treeOutput (chunks.take k) index 0).extract 0 8
    let right := (treeOutput (chunks.drop k) (index + k) 0).extract 0 8
    compress iv (left ++ right) 0 blockLen (parent ||| flags)
termination_by chunks.length
decreasing_by
  · simp only [List.length_take]; omega
  · simp only [List.length_drop]; omega

/-- The two lowercase hex digits of a byte. -/
def hexByte (b : UInt8) : String :=
  let digit (n : Nat) : Char := if n < 10 then Char.ofNat (48 + n) else Char.ofNat (87 + n)
  String.ofList [digit (b.toNat / 16), digit (b.toNat % 16)]

/-- The 32-byte hash of a byte string, in lowercase hex. -/
def hashHex (bytes : List UInt8) : String :=
  let out := treeOutput (pieces chunkLen bytes) 0 root
  String.join ((out.extract 0 8).toList.flatMap fun (w : UInt32) =>
    [w.toUInt8, (w >>> 8).toUInt8, (w >>> 16).toUInt8, (w >>> 24).toUInt8].map hexByte)

end Blake3

end DocQuery
