import TlsKeys.Hash.Word

/-!
The compression function of SHA-1: eighty steps over five chaining words, and a
schedule that stretches the sixteen words of a block to eighty.
-/

namespace TlsKeys.Hash.Sha1

structure Phase where
  mix : UInt32 → UInt32 → UInt32 → UInt32
  constant : UInt32

def phases : Vector Phase 4 := #v[
  ⟨choose, 0x5a827999⟩,
  ⟨parity, 0x6ed9eba1⟩,
  ⟨majority, 0x8f1bbcdc⟩,
  ⟨parity, 0xca62c1d6⟩]

def initial : Vector UInt32 5 :=
  #v[0x67452301, 0xefcdab89, 0x98badcfe, 0x10325476, 0xc3d2e1f0]

/-- The word after `latest`, a schedule so far with its newest word first: the rotated sum,
modulo 2, of the words 3, 8, 14 and 16 places back. -/
def nextWord (latest : List UInt32) : UInt32 :=
  rotateLeft (latest.getD 2 0 ^^^ latest.getD 7 0 ^^^ latest.getD 13 0 ^^^ latest.getD 15 0) 1

/-- A schedule, newest word first, made longer by `count` words. -/
def stretch : Nat → List UInt32 → List UInt32
  | 0, latest => latest
  | count + 1, latest => stretch count (nextWord latest :: latest)

def schedule (block : Bytes) : List UInt32 :=
  (stretch 64 (blockWords Bytes.toNatBig block).reverse).reverse

def step (phase : Phase) (word : UInt32) (state : Vector UInt32 5) : Vector UInt32 5 :=
  let sum := rotateLeft state[0] 5 + phase.mix state[1] state[2] state[3] + state[4] +
    phase.constant + word
  #v[sum, state[0], rotateLeft state[1] 30, state[2], state[3]]

def compress (state : Vector UInt32 5) (block : Bytes) : Vector UInt32 5 :=
  let last := (schedule block).zipIdx.foldl (fun state (word, i) =>
    have phase : i / 20 % 4 < 4 := Nat.mod_lt _ (by decide)
    step phases[i / 20 % 4] word state) state
  Vector.zipWith (· + ·) state last

end TlsKeys.Hash.Sha1
