import TlsKeys.Hash.Basic
import TlsKeys.Hash.Md5
import TlsKeys.Hash.Sha1

/-!
The hash of a whole message: the message is padded to full blocks, and the
blocks are compressed one after the other into the chaining state.
-/

namespace TlsKeys.Hash

def initial : (hash : Hash) → hash.State
  | .md5 => Md5.initial
  | .sha1 => Sha1.initial

def compress : (hash : Hash) → hash.State → Bytes → hash.State
  | .md5 => Md5.compress
  | .sha1 => Sha1.compress

/-- What follows a message of `length` bytes: a one bit, zeros, and the number of bits of the
message in eight bytes, which keeps that number modulo `2 ^ 64`. -/
def padding (hash : Hash) (length : Nat) : Bytes :=
  0x80 :: List.replicate ((119 - length % 64) % 64) 0 ++ hash.ofNumber 8 (8 * length)

def compressBlocks (hash : Hash) (state : hash.State) (count : Nat) (bytes : Bytes) : hash.State :=
  (Bytes.cut blockLength count bytes).foldl hash.compress state

theorem compressBlocks_add (hash : Hash) (state : hash.State) (first second : Nat)
    (bytes : Bytes) :
    hash.compressBlocks state (first + second) bytes =
      hash.compressBlocks (hash.compressBlocks state first bytes) second
        (bytes.drop (blockLength * first)) := by
  simp only [compressBlocks, Bytes.cut_add, List.foldl_append]

theorem compressBlocks_append_left (hash : Hash) (state : hash.State) (count : Nat)
    (left right : Bytes) (enough : blockLength * count ≤ left.length) :
    hash.compressBlocks state count (left ++ right) = hash.compressBlocks state count left := by
  simp only [compressBlocks, Bytes.cut_append_left _ _ _ _ enough]

def digest (hash : Hash) (message : Bytes) : Bytes :=
  let padded := message ++ hash.padding message.length
  output (hash.compressBlocks hash.initial (padded.length / blockLength) padded)

@[simp] theorem length_digest (hash : Hash) (message : Bytes) :
    (hash.digest message).length = hash.outputLength := by
  simp [digest]

example : Bytes.toNatBig (md5.digest (Bytes.ofAscii "abc")) =
    0x900150983cd24fb0d6963f7d28e17f72 := by
  decide +kernel

example : Bytes.toNatBig (sha1.digest (Bytes.ofAscii "abc")) =
    0xa9993e364706816aba3e25717850c26c9cd0d89d := by
  decide +kernel

end TlsKeys.Hash
