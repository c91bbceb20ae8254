import TlsKeys.Bytes

/-!
Operations on 32-bit words that both hash functions use.
-/

namespace TlsKeys.Hash

def rotateLeft (word count : UInt32) : UInt32 :=
  word <<< count ||| word >>> (32 - count)

def choose (condition yes no : UInt32) : UInt32 :=
  (condition &&& yes) ||| (~~~condition &&& no)

def parity (x y z : UInt32) : UInt32 :=
  x ^^^ y ^^^ z

def majority (x y z : UInt32) : UInt32 :=
  (x &&& y) ||| (x &&& z) ||| (y &&& z)

def blockWords (read : Bytes → Nat) (block : Bytes) : List UInt32 :=
  (Bytes.cut 4 16 block).map fun word => (read word).toUInt32

@[simp] theorem length_blockWords (read : Bytes → Nat) (block : Bytes) :
    (blockWords read block).length = 16 := by
  simp [blockWords]

end TlsKeys.Hash
