import TlsKeys.Hash.Digest

/-!
The keyed hash HMAC of a whole message, as its definition states it.
-/

namespace TlsKeys.Hash

def shortKey (hash : Hash) (key : Bytes) : Bytes :=
  if blockLength < key.length then hash.digest key else key

theorem outputLength_le_blockLength (hash : Hash) : hash.outputLength ≤ blockLength := by
  cases hash <;> decide

theorem length_shortKey_le (hash : Hash) (key : Bytes) :
    (hash.shortKey key).length ≤ blockLength := by
  have := hash.outputLength_le_blockLength
  by_cases long : blockLength < key.length
  · simpa [shortKey, long]
  · simp [shortKey, long]
    omega

def keyBlock (hash : Hash) (key : Bytes) : Bytes :=
  hash.shortKey key ++ List.replicate (blockLength - (hash.shortKey key).length) 0

@[simp] theorem length_keyBlock (hash : Hash) (key : Bytes) :
    (hash.keyBlock key).length = blockLength := by
  have := hash.length_shortKey_le key
  simp [keyBlock]
  omega

def maskedKey (hash : Hash) (mask : UInt8) (key : Bytes) : Bytes :=
  (hash.keyBlock key).map (· ^^^ mask)

def innerMask : UInt8 := 0x36

def outerMask : UInt8 := 0x5c

def hmac (hash : Hash) (key message : Bytes) : Bytes :=
  hash.digest (hash.maskedKey outerMask key ++
    hash.digest (hash.maskedKey innerMask key ++ message))

@[simp] theorem length_hmac (hash : Hash) (key message : Bytes) :
    (hash.hmac key message).length = hash.outputLength := by
  simp [hmac]

example : Bytes.toNatBig
    (sha1.hmac (Bytes.ofAscii "Jefe") (Bytes.ofAscii "what do ya want for nothing?")) =
      0xeffcdf6ae5eb2fa2d27416d5f184df9c259a7c79 := by
  decide +kernel

end TlsKeys.Hash
