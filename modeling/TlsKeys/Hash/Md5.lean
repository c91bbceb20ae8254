import TlsKeys.Hash.Word

/-!
The compression function of MD5: four rounds of sixteen steps over four chaining
words, and the words of the block in an order of each round's own.
-/

namespace TlsKeys.Hash.Md5

structure Round where
  mix : UInt32 → UInt32 → UInt32 → UInt32
  /-- Step `i` of the round uses block word `first + stride * i`, counted modulo 16. -/
  first : Nat
  stride : Nat
  /-- Rotations of the steps, repeated every four steps. -/
  shifts : Vector UInt32 4
  constants : List UInt32

/-- The constants are the first 32 bits after the binary point of `|sin 1|`, `|sin 2|`, … -/
def rounds : List Round := [
  { mix := choose
    first := 0
    stride := 1
    shifts := #v[7, 12, 17, 22]
    constants := [
      0xd76aa478, 0xe8c7b756, 0x242070db, 0xc1bdceee,
      0xf57c0faf, 0x4787c62a, 0xa8304613, 0xfd469501,
      0x698098d8, 0x8b44f7af, 0xffff5bb1, 0x895cd7be,
      0x6b901122, 0xfd987193, 0xa679438e, 0x49b40821] },
  { mix := fun x y z => choose z x y
    first := 1
    stride := 5
    shifts := #v[5, 9, 14, 20]
    constants := [
      0xf61e2562, 0xc040b340, 0x265e5a51, 0xe9b6c7aa,
      0xd62f105d, 0x02441453, 0xd8a1e681, 0xe7d3fbc8,
      0x21e1cde6, 0xc33707d6, 0xf4d50d87, 0x455a14ed,
      0xa9e3e905, 0xfcefa3f8, 0x676f02d9, 0x8d2a4c8a] },
  { mix := parity
    first := 5
    stride := 3
    shifts := #v[4, 11, 16, 23]
    constants := [
      0xfffa3942, 0x8771f681, 0x6d9d6122, 0xfde5380c,
      0xa4beea44, 0x4bdecfa9, 0xf6bb4b60, 0xbebfbc70,
      0x289b7ec6, 0xeaa127fa, 0xd4ef3085, 0x04881d05,
      0xd9d4d039, 0xe6db99e5, 0x1fa27cf8, 0xc4ac5665] },
  { mix := fun x y z => y ^^^ (x ||| ~~~z)
    first := 0
    stride := 7
    shifts := #v[6, 10, 15, 21]
    constants := [
      0xf4292244, 0x432aff97, 0xab9423a7, 0xfc93a039,
      0x655b59c3, 0x8f0ccc92, 0xffeff47d, 0x85845dd1,
      0x6fa87e4f, 0xfe2ce6e0, 0xa3014314, 0x4e0811a1,
      0xf7537e82, 0xbd3af235, 0x2ad7d2bb, 0xeb86d391] }]

def initial : Vector UInt32 4 :=
  #v[0x67452301, 0xefcdab89, 0x98badcfe, 0x10325476]

/-- One step: `addend` is the sum of the step's constant and its block word. -/
def step (mix : UInt32 → UInt32 → UInt32 → UInt32) (shift addend : UInt32)
    (state : Vector UInt32 4) : Vector UInt32 4 :=
  let sum := state[0] + mix state[1] state[2] state[3] + addend
  #v[state[3], state[1] + rotateLeft sum shift, state[1], state[2]]

def Round.run (round : Round) (words : Vector UInt32 16) (state : Vector UInt32 4) :
    Vector UInt32 4 :=
  round.constants.zipIdx.foldl (fun state (constant, i) =>
    have position : (round.first + round.stride * i) % 16 < 16 := Nat.mod_lt _ (by decide)
    have phase : i % 4 < 4 := Nat.mod_lt _ (by decide)
    step round.mix round.shifts[i % 4]
      (constant + words[(round.first + round.stride * i) % 16]) state) state

def words (block : Bytes) : Vector UInt32 16 :=
  ⟨(blockWords Bytes.toNatLittle block).toArray, by simp⟩

def compress (state : Vector UInt32 4) (block : Bytes) : Vector UInt32 4 :=
  let words := words block
  Vector.zipWith (· + ·) state (rounds.foldl (fun state round => round.run words state) state)

end TlsKeys.Hash.Md5
