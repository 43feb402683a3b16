import Zd1200.Lib.LittleEndian

/-!
# MD5

The MD5 digest of a byte string, as `hashlib.md5` computes it.

A message is padded to whole blocks of 64 bytes, with a one bit, zeros and its
length in bits. Each block turns the chaining state by 64 rounds, and the
final state is the digest. Nothing about the digest is assumed or proved
beyond its length: a checker that compares digests compares values, and what
a rebuilt image has to satisfy is an equation between two runs of one
function.

## Main definitions

* `Md5State`: The four chaining words.
* `md5Round`: One round over the words of a block.
* `md5Block`: The 64 rounds of a block.
* `md5Pad`: The message in whole blocks.
* `md5`: The digest.

## Theorems

* `length_md5`: A digest has sixteen bytes.
-/

namespace Zd1200

/-- The four chaining words. -/
structure Md5State where
  a : UInt32
  b : UInt32
  c : UInt32
  d : UInt32
  deriving DecidableEq, Repr

/-- The state before the first block. -/
def md5Init : Md5State := ⟨0x67452301, 0xefcdab89, 0x98badcfe, 0x10325476⟩

/-- The rotation of each round, four for each group of sixteen. -/
def md5Shifts : List (List UInt32) :=
  [[7, 12, 17, 22], [5, 9, 14, 20], [4, 11, 16, 23], [6, 10, 15, 21]]

/-- The constant of each round, the fractional part of a sine. -/
def md5Sines : List UInt32 :=
  [
    0xd76aa478, 0xe8c7b756, 0x242070db, 0xc1bdceee, 0xf57c0faf, 0x4787c62a, 0xa8304613, 0xfd469501,
    0x698098d8, 0x8b44f7af, 0xffff5bb1, 0x895cd7be, 0x6b901122, 0xfd987193, 0xa679438e, 0x49b40821,
    0xf61e2562, 0xc040b340, 0x265e5a51, 0xe9b6c7aa, 0xd62f105d, 0x02441453, 0xd8a1e681, 0xe7d3fbc8,
    0x21e1cde6, 0xc33707d6, 0xf4d50d87, 0x455a14ed, 0xa9e3e905, 0xfcefa3f8, 0x676f02d9, 0x8d2a4c8a,
    0xfffa3942, 0x8771f681, 0x6d9d6122, 0xfde5380c, 0xa4beea44, 0x4bdecfa9, 0xf6bb4b60, 0xbebfbc70,
    0x289b7ec6, 0xeaa127fa, 0xd4ef3085, 0x04881d05, 0xd9d4d039, 0xe6db99e5, 0x1fa27cf8, 0xc4ac5665,
    0xf4292244, 0x432aff97, 0xab9423a7, 0xfc93a039, 0x655b59c3, 0x8f0ccc92, 0xffeff47d, 0x85845dd1,
    0x6fa87e4f, 0xfe2ce6e0, 0xa3014314, 0x4e0811a1, 0xf7537e82, 0xbd3af235, 0x2ad7d2bb, 0xeb86d391]

/-- The Boolean function of a group of sixteen rounds. -/
def md5Mix (group : Nat) (b c d : UInt32) : UInt32 :=
  match group with
  | 0 => (b &&& c) ||| (~~~b &&& d)
  | 1 => (d &&& b) ||| (~~~d &&& c)
  | 2 => b ^^^ c ^^^ d
  | _ => c ^^^ (b ||| ~~~d)

/-- Which word of the block round `i` reads. -/
def md5Index (i : Nat) : Nat :=
  match i / 16 with
  | 0 => i
  | 1 => (5 * i + 1) % 16
  | 2 => (3 * i + 5) % 16
  | _ => 7 * i % 16

/-- Rotate a word to the left. -/
def rotateLeft (w n : UInt32) : UInt32 := (w <<< n) ||| (w >>> (32 - n))

/-- Round `i` over the words of a block. -/
def md5Round (words : List UInt32) (s : Md5State) (i : Nat) : Md5State :=
  let word := words.getD (md5Index i) 0
  let f := md5Mix (i / 16) s.b s.c s.d + s.a + md5Sines.getD i 0 + word
  let shift := (md5Shifts.getD (i / 16) []).getD (i % 4) 0
  ⟨s.d, s.b + rotateLeft f shift, s.b, s.c⟩

/-- The sixteen words of the block at `offset`. -/
def md5Words (message : Bytes) (offset : Nat) : List UInt32 :=
  (List.range 16).map fun j => (leNat ((message.drop (offset + 4 * j)).take 4)).toUInt32

/-- The rounds of one block, added to the state they started from. -/
def md5Block (message : Bytes) (s : Md5State) (index : Nat) : Md5State :=
  let t := (List.range 64).foldl (md5Round (md5Words message (64 * index))) s
  ⟨s.a + t.a, s.b + t.b, s.c + t.c, s.d + t.d⟩

/-- The message in whole blocks. -/
def md5Pad (message : Bytes) : Bytes :=
  let zeros := (119 - message.length % 64) % 64
  message ++ 0x80 :: List.replicate zeros 0 ++ leBytes 8 (8 * message.length)

/-- The digest of a message. -/
def md5 (message : Bytes) : Bytes :=
  let padded := md5Pad message
  let s := (List.range (padded.length / 64)).foldl (md5Block padded) md5Init
  [s.a, s.b, s.c, s.d].flatMap fun w => leBytes 4 w.toNat

@[simp] theorem length_md5 (message : Bytes) : (md5 message).length = 16 := by
  simp only [md5, List.flatMap_cons, List.flatMap_nil, List.length_append, length_leBytes,
    List.length_nil]

/-- The message `abc`. -/
example : md5 [0x61, 0x62, 0x63] =
    [0x90, 0x01, 0x50, 0x98, 0x3c, 0xd2, 0x4f, 0xb0,
      0xd6, 0x96, 0x3f, 0x7d, 0x28, 0xe1, 0x7f, 0x72] := by
  decide +kernel

-- Only the length matters from here on.
attribute [irreducible] md5

end Zd1200
