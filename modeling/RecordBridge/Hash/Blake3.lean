/-!
# BLAKE3

The hash behind fingerprints. Bytes are cut into chunks of 1024 bytes, chunks
into blocks of 64. Compressing the blocks of a chunk one after the other gives
its chaining value, and chaining values are compressed in pairs, up a binary
tree whose left side is as large a power of two as leaves something on the
right. The digest is what compressing the root gives.

| here | operation |
| --- | --- |
| `Blake3.digest64` | `finish`, on all that was written |
-/
namespace RecordBridge.Blake3

/-- The words a hash starts from. -/
def initial : Vector UInt32 8 :=
  #v[0x6A09E667, 0xBB67AE85, 0x3C6EF372, 0xA54FF53A, 0x510E527F, 0x9B05688C, 0x1F83D9AB,
    0x5BE0CD19]

/-- Marks of a block: it starts or ends a chunk, joins two subtrees, is the root. -/
def chunkStart : UInt32 := 1
def chunkEnd : UInt32 := 2
def parent : UInt32 := 4
def root : UInt32 := 8

def chunkLength : Nat := 1024
def blockLength : Nat := 64

/-- Rotates a word to the right. -/
def rotate (word by_ : UInt32) : UInt32 := word >>> by_ ||| word <<< (32 - by_)

/-- Mixes two message words into four words of the state. -/
def mix (state : Vector UInt32 16) (a b c d : Fin 16) (x y : UInt32) : Vector UInt32 16 :=
  let state := state.set a (state[a] + state[b] + x)
  let state := state.set d (rotate (state[d] ^^^ state[a]) 16)
  let state := state.set c (state[c] + state[d])
  let state := state.set b (rotate (state[b] ^^^ state[c]) 12)
  let state := state.set a (state[a] + state[b] + y)
  let state := state.set d (rotate (state[d] ^^^ state[a]) 8)
  let state := state.set c (state[c] + state[d])
  state.set b (rotate (state[b] ^^^ state[c]) 7)

/-- One round: the columns of the state are mixed, then its diagonals. -/
def round (message state : Vector UInt32 16) : Vector UInt32 16 :=
  let state := mix state 0 4 8 12 message[0] message[1]
  let state := mix state 1 5 9 13 message[2] message[3]
  let state := mix state 2 6 10 14 message[4] message[5]
  let state := mix state 3 7 11 15 message[6] message[7]
  let state := mix state 0 5 10 15 message[8] message[9]
  let state := mix state 1 6 11 12 message[10] message[11]
  let state := mix state 2 7 8 13 message[12] message[13]
  mix state 3 4 9 14 message[14] message[15]

/-- The order message words take in the next round. -/
def permutation : Vector (Fin 16) 16 :=
  #v[2, 6, 3, 10, 7, 0, 4, 13, 1, 11, 12, 5, 9, 14, 15, 8]

/-- Rounds on a state, the message permuted after each. -/
def rounds : Nat → (message state : Vector UInt32 16) → Vector UInt32 16
  | 0, _, state => state
  | n + 1, message, state =>
    rounds n (permutation.map fun i => message[i]) (round message state)

/-- A block about to be compressed. -/
structure Block where
  chaining : Vector UInt32 8
  words : Vector UInt32 16
  counter : UInt64
  length : UInt32
  marks : UInt32

/-- Compresses a block to a chaining value. -/
def Block.compress (block : Block) : Vector UInt32 8 :=
  let tail : Vector UInt32 8 :=
    #v[initial[0], initial[1], initial[2], initial[3], block.counter.toUInt32,
      (block.counter >>> 32).toUInt32, block.length, block.marks]
  let state := rounds 7 block.words (block.chaining ++ tail)
  .ofFn fun i => state[i] ^^^ state[i.val + 8]

/-- The little-endian words of at most 64 bytes, filled with zeros. -/
def words (bytes : List UInt8) : Vector UInt32 16 :=
  let bytes := bytes.toArray
  let at_ (i : Nat) : UInt32 := (bytes[i]?.getD 0).toUInt32
  .ofFn fun i =>
    at_ (4 * i) ||| at_ (4 * i + 1) <<< 8 ||| at_ (4 * i + 2) <<< 16 ||| at_ (4 * i + 3) <<< 24

/-- Cuts bytes into pieces of `size` bytes, the last one shorter or empty. -/
def pieces (size : Nat) (bytes : List UInt8) : List (List UInt8) :=
  let rest := bytes.drop size
  if _h : size = 0 ∨ rest.isEmpty then [bytes] else bytes.take size :: pieces size rest
termination_by bytes.length
decreasing_by
  simp only [rest, List.isEmpty_iff, List.drop_eq_nil_iff] at _h
  simp only [List.length_drop]; omega

/-- The last block of a chunk, all blocks before it compressed. -/
def chunkBlocks (counter : UInt64) (marks : UInt32) (chaining : Vector UInt32 8) :
    List (List UInt8) → Block
  | [] => ⟨chaining, words [], counter, 0, marks ||| chunkEnd⟩
  | [last] => ⟨chaining, words last, counter, UInt32.ofNat last.length, marks ||| chunkEnd⟩
  | block :: rest =>
    let chaining := Block.compress
      ⟨chaining, words block, counter, UInt32.ofNat block.length, marks⟩
    chunkBlocks counter 0 chaining rest

/-- The last block of a chunk. -/
def chunkBlock (counter : Nat) (bytes : List UInt8) : Block :=
  chunkBlocks (UInt64.ofNat counter) chunkStart initial (pieces blockLength bytes)

/-- The block that joins two chaining values. -/
def parentBlock (left right : Vector UInt32 8) : Block :=
  ⟨initial, left ++ right, 0, UInt32.ofNat blockLength, parent⟩

/-- The top block of the tree over chunks, the first of them numbered `first`. -/
def tree (first : Nat) (chunks : List (List UInt8)) : Block :=
  if _h : chunks.length ≤ 1 then chunkBlock first chunks.flatten
  else
    let left := Nat.pow 2 (chunks.length - 1).log2
    parentBlock (tree first (chunks.take left)).compress
      (tree (first + left) (chunks.drop left)).compress
termination_by chunks.length
decreasing_by
  all_goals
    have : Nat.pow 2 (chunks.length - 1).log2 ≤ chunks.length - 1 :=
      Nat.log2_self_le (by omega)
    have : 0 < Nat.pow 2 (chunks.length - 1).log2 := Nat.two_pow_pos _
    simp only [List.length_take, List.length_drop]
    omega

/-- The eight words of a digest. -/
def digest (bytes : List UInt8) : Vector UInt32 8 :=
  let top := tree 0 (pieces chunkLength bytes)
  { top with marks := top.marks ||| root }.compress

/-- The first eight bytes of a digest, as a little-endian number. -/
def digest64 (bytes : List UInt8) : UInt64 :=
  let words := digest bytes
  words[0].toUInt64 ||| words[1].toUInt64 <<< 32

end RecordBridge.Blake3
