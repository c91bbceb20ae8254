import TlsKeys.Hmac.Formula

/-!
The pseudorandom function of TLS 1.0 and 1.1, as its formulas state it: each hash
expands its half of the secret on its own, and the two results are combined by
exclusive or.
-/

namespace TlsKeys

namespace Prf

/-- The link `A(i)`: the seed, authenticated `i` times. -/
def link (hash : Hash) (secret seed : Bytes) : Nat → Bytes
  | 0 => seed
  | i + 1 => hash.hmac secret (link hash secret seed i)

theorem link_hmac (hash : Hash) (secret seed : Bytes) (i : Nat) :
    link hash secret (hash.hmac secret seed) i = link hash secret seed (i + 1) := by
  induction i with
  | zero => rfl
  | succ i ih => rw [link, ih, ← link]

/-- Block `i` of the expansion, counted from 0. -/
def block (hash : Hash) (secret seed : Bytes) (i : Nat) : Bytes :=
  hash.hmac secret (link hash secret seed (i + 1) ++ seed)

def expansion (hash : Hash) (secret seed : Bytes) (count : Nat) : Bytes :=
  ((List.range (Bytes.pieceCount hash.outputLength count)).flatMap
    (block hash secret seed)).take count

/-- Half the length of a secret, rounded up. -/
def halfLength (secret : Bytes) : Nat :=
  (secret.length + 1) / 2

def firstHalf (secret : Bytes) : Bytes :=
  secret.take (halfLength secret)

/-- As many bytes as in the first half, counted from the end. -/
def lastHalf (secret : Bytes) : Bytes :=
  (secret.reverse.take (halfLength secret)).reverse

def output (secret label seed : Bytes) (count : Nat) : Bytes :=
  Bytes.xor (expansion .md5 (firstHalf secret) (label ++ seed) count)
    (expansion .sha1 (lastHalf secret) (label ++ seed) count)

end Prf

end TlsKeys
