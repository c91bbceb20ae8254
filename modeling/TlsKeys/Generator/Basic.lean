import TlsKeys.Call
import TlsKeys.Generator.Params
import TlsKeys.Prf.KeyStream

/-!
A generator of pseudorandom bytes: a stream that may not have been initialized
yet, and that can be initialized again.

Whether there is a stream is asked before any region is checked. A call that
writes into a buffer is a call on the generator and the buffer together, and a
read of any other kind fills a buffer of its own.
-/

namespace TlsKeys

inductive Generator where
  | uninitialized
  | ready (stream : KeyStream)
  deriving DecidableEq

namespace Generator

def isReady : Generator → Bool
  | uninitialized => false
  | ready _ => true

instance : Copyable Generator where
  copy
    | uninitialized => uninitialized
    | ready stream => ready (Copyable.copy stream)
  copy_eq
    | uninitialized => rfl
    | ready stream => congrArg ready (Copyable.copy_eq stream)

/-- A text that shows nothing of a stream. -/
def describeReady (isReady : Bool) : String :=
  Text.inBraces "TlsPrf" [Text.field "initialized" (toString isReady), Text.andMore]

def describe (generator : Generator) : String :=
  describeReady generator.isReady

def expansionsFor (secret? : Option Bytes) :
    Call Generator (Expansion .md5 × Expansion .sha1) := do
  match secret?, ← get with
  | some secret, _ => return KeyStream.expansions secret
  | none, ready stream => return (Copyable.copy stream.md5, Copyable.copy stream.sha1)
  | none, uninitialized => throw .missingSecret

def seedFor (seed? : Option Bytes) : Call Generator Bytes := do
  match seed?, ← get with
  | some seed, _ => return seed
  | none, ready stream => return stream.seed
  | none, uninitialized => throw .missingSeed

/-- Start the stream of a secret and a seed; a value omitted is the one in use. -/
def configure (params : Params) : Call Generator Unit := do
  let (md5, sha1) ← expansionsFor params.secret?
  let seed ← seedFor params.seed?
  set (ready (KeyStream.start md5 sha1 seed))

theorem on_configure_uninitialized (params : Params) :
    (configure params).on uninitialized =
      match params.secret?, params.seed? with
      | some secret, some seed => (.ok (), ready (KeyStream.ofSecret secret seed))
      | some _, none => (.error .missingSeed, uninitialized)
      | none, _ => (.error .missingSecret, uninitialized) := by
  obtain ⟨_ | secret, _ | seed⟩ := params <;> rfl

theorem on_configure_ready (params : Params) (stream : KeyStream) :
    (configure params).on (ready stream) =
      let (md5, sha1) := (params.secret?.map KeyStream.expansions).getD (stream.md5, stream.sha1)
      (.ok (), ready (KeyStream.start md5 sha1 (params.seed?.getD stream.seed))) := by
  obtain ⟨_ | secret, _ | seed⟩ := params <;> rfl

def ofSecret (secret seed : Bytes) : Except Failure Generator :=
  (configure (.ofBoth secret seed)).made uninitialized

@[simp] theorem ofSecret_eq_ok (secret seed : Bytes) :
    ofSecret secret seed = .ok (ready (KeyStream.ofSecret secret seed)) := rfl

def demandReady : Call Generator KeyStream := do
  match ← get with
  | uninitialized => throw .notInitialized
  | ready stream => return stream

@[simp] theorem on_demandReady_ready (stream : KeyStream) :
    demandReady.on (ready stream) = (.ok stream, ready stream) := rfl

/-- Write the next bytes of the stream over those of a region. -/
def deliver (stream : KeyStream) (region : Region) : Call (Generator × Buffer) Unit :=
  modify fun (_, dest) =>
    let (bytes, stream) := stream.read region.length
    (ready stream, dest.write region.start.toNat bytes)

/-- Write the next `length` bytes into the buffer from `offset` on. -/
def readInto (offset length : UInt64) : Call (Generator × Buffer) Unit := do
  let stream ← Call.onFirst demandReady
  let (_, dest) ← get
  let region ← Region.check dest.size offset length
  deliver stream region

def fill : Call (Generator × Buffer) Unit :=
  Call.fillBy readInto

def take (count : UInt64) : Call Generator Bytes :=
  Call.takeBy readInto count

/-- Start the stream of `seed` under the secret in use, and write its first bytes over the whole
buffer. -/
def reseedInto (seed : Bytes) : Call (Generator × Buffer) Unit := do
  Call.onFirst (configure (.ofSeed seed))
  let stream ← Call.onFirst demandReady
  let (_, dest) ← get
  deliver stream dest.whole

theorem on_readInto_ready (offset length : UInt64) (stream : KeyStream) (dest : Buffer) :
    (readInto offset length).on (ready stream, dest) =
      match Region.check dest.size offset length with
      | .ok region =>
        (.ok (), ready (stream.read region.length).2,
          dest.write region.start.toNat (stream.read region.length).1)
      | .error failure => (.error failure, ready stream, dest) := by
  simp only [readInto, Call.on_bind, Call.on_onFirst, on_demandReady_ready, Call.on_get,
    Call.on_monadLift]
  cases Region.check dest.size offset length <;> rfl

@[simp] theorem on_fill_ready (stream : KeyStream) (dest : Buffer) :
    fill.on (ready stream, dest) =
      (.ok (), ready (stream.read dest.bytes.length).2,
        dest.write 0 (stream.read dest.bytes.length).1) := by
  change (readInto 0 dest.size).on (ready stream, dest) = _
  rw [on_readInto_ready, dest.check_whole]
  simp only [Buffer.length_whole]
  rfl

theorem on_take_ready (count : UInt64) (stream : KeyStream) :
    (take count).on (ready stream) =
      (.ok ((Buffer.zeros count).write 0 (stream.read count.toNat).1).bytes,
        ready (stream.read count.toNat).2) := by
  have filled := on_fill_ready stream (Buffer.zeros count)
  rw [fill, Buffer.length_zeros] at filled
  rw [take, Call.on_takeBy, filled]

@[simp] theorem on_reseedInto_uninitialized (seed : Bytes) (dest : Buffer) :
    (reseedInto seed).on (uninitialized, dest) =
      (.error .missingSecret, uninitialized, dest) := rfl

theorem on_reseedInto_ready (seed : Bytes) (stream : KeyStream) (dest : Buffer) :
    (reseedInto seed).on (ready stream, dest) =
      let started := KeyStream.start stream.md5 stream.sha1 seed
      (.ok (), ready (started.read dest.bytes.length).2,
        dest.write 0 (started.read dest.bytes.length).1) := by
  simp only [reseedInto, Call.on_bind, Call.on_onFirst, on_configure_ready, on_demandReady_ready,
    Call.on_get, deliver, Call.on_modify, Buffer.length_whole]
  rfl

end Generator

end TlsKeys
