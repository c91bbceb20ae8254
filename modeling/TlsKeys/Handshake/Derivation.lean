import TlsKeys.Generator.ByteSource

/-!
What a handshake derives, and from which seed: a label followed by the random
values or the hash of the handshake, with nothing in between.
-/

namespace TlsKeys

abbrev randomLength : Nat := 32

abbrev Random : Type := Bytes.OfLength randomLength

abbrev handshakeHashLength : Nat := 36

/-- The MD5 and the SHA-1 hash of a transcript, one after the other. -/
abbrev HandshakeHash : Type := Bytes.OfLength handshakeHashLength

namespace Label

def masterSecret : Bytes := Bytes.ofAscii "master secret"

def keyBlock : Bytes := Bytes.ofAscii "key expansion"

def clientFinished : Bytes := Bytes.ofAscii "client finished"

def serverFinished : Bytes := Bytes.ofAscii "server finished"

end Label

/-- A derivation under one secret, with the values that it depends on. -/
inductive Derivation where
  | masterSecret (clientRandom serverRandom : Random)
  | keyBlock (clientRandom serverRandom : Random)
  | clientFinished (hash : HandshakeHash)
  | serverFinished (hash : HandshakeHash)
  deriving DecidableEq

namespace Derivation

def label : Derivation → Bytes
  | masterSecret .. => Label.masterSecret
  | keyBlock .. => Label.keyBlock
  | clientFinished _ => Label.clientFinished
  | serverFinished _ => Label.serverFinished

/-- What follows the label. The key block has the random values in the other order. -/
def context : Derivation → Bytes
  | masterSecret clientRandom serverRandom => clientRandom.val ++ serverRandom.val
  | keyBlock clientRandom serverRandom => serverRandom.val ++ clientRandom.val
  | clientFinished hash => hash.val
  | serverFinished hash => hash.val

def seed (derivation : Derivation) : Bytes :=
  derivation.label ++ derivation.context

end Derivation

def Prf.fill (out : Buffer) (secret label seed : Bytes) : Except Failure Buffer := do
  let generator ← Generator.ofSecret secret (label ++ seed)
  ((Generator.fill.into out).on generator).1

def masterSecretLength : UInt64 := 48

def verifyDataLength : UInt64 := 12

def masterSecret (premasterSecret : Bytes) (clientRandom serverRandom : Random) :
    Except Failure Bytes := do
  let generator ←
    Generator.ofSecret premasterSecret (Derivation.masterSecret clientRandom serverRandom).seed
  ((ByteSource.collect masterSecretLength).on generator).1

def handshakeHash (transcript : Bytes) : HandshakeHash :=
  ⟨Hash.md5.digest transcript ++ Hash.sha1.digest transcript, by
    simp [Hash.outputLength]⟩

end TlsKeys
