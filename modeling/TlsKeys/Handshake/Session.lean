import TlsKeys.Family
import TlsKeys.Handshake.Derivation

/-!
A session: one generator keyed with the master secret, started anew for every
derivation, so that no answer depends on the calls before it.
-/

namespace TlsKeys

structure Session where
  generator : Generator
  keyBlockSeed : Bytes
  deriving DecidableEq

namespace Session

def start (masterSecret : Bytes) (clientRandom serverRandom : Random) :
    Except Failure Session := do
  let keyBlockSeed := (Derivation.keyBlock clientRandom serverRandom).seed
  let generator ← Generator.ofSecret masterSecret keyBlockSeed
  return { generator, keyBlockSeed }

def onGenerator {Value : Type} (call : Call Generator Value) : Call Session Value :=
  Call.zoom Session.generator (fun session generator => { session with generator }) call

/-- The first `count` bytes of the stream of `seed`. -/
def derive (seed : Bytes) (count : UInt64) : Call Session Bytes :=
  onGenerator do
    return (← (Generator.reseedInto seed).into (Buffer.zeros count)).bytes

def keyBlock (length : UInt64) : Call Session Bytes := do
  derive (← get).keyBlockSeed length

def clientFinished (hash : HandshakeHash) : Call Session Bytes :=
  derive (Derivation.clientFinished hash).seed verifyDataLength

def serverFinished (hash : HandshakeHash) : Call Session Bytes :=
  derive (Derivation.serverFinished hash).seed verifyDataLength

def describe (_ : Session) : String :=
  Text.inBraces "KeyDeriver" ["..."]

inductive Op where
  | keyBlock (length : UInt64)
  | clientFinished (hash : HandshakeHash)
  | serverFinished (hash : HandshakeHash)
  | describe
  deriving DecidableEq

def step (op : Op) (session : Session) : Reply × Session :=
  match op with
  | .keyBlock length => Reply.ofCall .bytes (keyBlock length) session
  | .clientFinished hash => Reply.ofCall .bytes (clientFinished hash) session
  | .serverFinished hash => Reply.ofCall .bytes (serverFinished hash) session
  | .describe => (.text session.describe, session)

end Session

structure SessionKeys where
  masterSecret : Bytes
  keyBlock : Bytes
  clientFinished : Bytes
  serverFinished : Bytes
  deriving DecidableEq

def SessionKeys.derive (premasterSecret : Bytes) (clientRandom serverRandom : Random)
    (transcript : Bytes) (keyLength : UInt64) : Except Failure SessionKeys := do
  let masterSecret ← TlsKeys.masterSecret premasterSecret clientRandom serverRandom
  let session ← Session.start masterSecret clientRandom serverRandom
  let hash := handshakeHash transcript
  let calls : Call Session SessionKeys := do
    let keyBlock ← Session.keyBlock keyLength
    let clientFinished ← Session.clientFinished hash
    let serverFinished ← Session.serverFinished hash
    return { masterSecret, keyBlock, clientFinished, serverFinished }
  (calls.on session).1

end TlsKeys
