import TlsKeys.Proofs.History
import TlsKeys.Proofs.Reads
import TlsKeys.Proofs.StreamCalls

/-!
Generators call by call.

A raw generator is a generator over a raw stream. It may fail to start a stream
and to read from one, and a failed read leaves the stream and the buffer as it
has changed them, so a buffer may be left with a part of the bytes written.

As long as the buffer of the stream is whole, none of this happens: a raw
generator replies as the generator does, and is left as the generator is, by
every operation (`step_raw`).
-/

namespace TlsKeys

namespace Call

section View

variable {Object Viewed Value Other : Type} {view : Object → Viewed} {object : Object}

/-- On the view of an object the one call does what the other does on the object. -/
def Agree (view : Object → Viewed) (viewed : Call Viewed Value) (call : Call Object Value)
    (object : Object) : Prop :=
  viewed.on (view object) = ((call.on object).1, view (call.on object).2)

theorem Agree.bind_pure {viewed : Call Viewed Value} {call : Call Object Value}
    (agree : Agree view viewed call object) (result : Value → Other) :
    Agree view (viewed >>= fun value => pure (result value))
      (call >>= fun value => pure (result value)) object := by
  rw [Agree] at agree
  rw [Agree, on_bind, on_bind, agree]
  rcases call.on object with ⟨_ | _, _⟩ <;> rfl

theorem Agree.ofCall {viewed : Call Viewed Value} {call : Call Object Value}
    (agree : Agree view viewed call object) (reply : Value → Reply) :
    Reply.ofCall reply viewed (view object) =
      ((Reply.ofCall reply call object).1, view (Reply.ofCall reply call object).2) := by
  rw [Agree] at agree
  rw [Reply.ofCall, Reply.ofCall, agree]
  rcases call.on object with ⟨_ | _, _⟩ <;> rfl

/-- As `Agree`, of calls that write into a buffer. The buffers are seen as they are. -/
def AgreeOnBuffers (view : Object → Viewed) (viewed : Call (Viewed × Buffer) Unit)
    (call : Call (Object × Buffer) Unit) (object : Object) : Prop :=
  ∀ dest, viewed.on (view object, dest) =
    ((call.on (object, dest)).1, view (call.on (object, dest)).2.1, (call.on (object, dest)).2.2)

theorem AgreeOnBuffers.ofWrite {viewed : Call (Viewed × Buffer) Unit}
    {call : Call (Object × Buffer) Unit} (agree : AgreeOnBuffers view viewed call object)
    (dest : Buffer) :
    Reply.ofWrite dest viewed (view object) =
      ((Reply.ofWrite dest call object).1, view (Reply.ofWrite dest call object).2) := by
  rw [Reply.ofWrite, Reply.ofWrite, agree dest]
  rcases call.on (object, dest) with ⟨_ | _, _, _⟩ <;> rfl

variable {viewedInto : UInt64 → UInt64 → Call (Viewed × Buffer) Unit}
  {readInto : UInt64 → UInt64 → Call (Object × Buffer) Unit}
  (agree : ∀ offset length, AgreeOnBuffers view (viewedInto offset length) (readInto offset length)
    object)

include agree

theorem agree_fillBy : AgreeOnBuffers view (fillBy viewedInto) (fillBy readInto) object :=
  fun dest => agree 0 dest.size dest

theorem agree_takeBy (count : UInt64) :
    Agree view (takeBy viewedInto count) (takeBy readInto count) object := by
  rw [Agree, on_takeBy, on_takeBy, agree_fillBy agree]
  rcases (fillBy readInto).on (object, Buffer.zeros count) with ⟨_ | _, _, _⟩ <;> rfl

end View

end Call

inductive RawGenerator where
  | uninitialized
  | ready (stream : RawStream)

def Generator.raw : Generator → RawGenerator
  | uninitialized => .uninitialized
  | ready stream => .ready stream.raw

namespace RawGenerator

instance : Copyable RawGenerator where
  copy
    | uninitialized => uninitialized
    | ready stream => ready (Copyable.copy stream)
  copy_eq
    | uninitialized => rfl
    | ready stream => congrArg ready (Copyable.copy_eq stream)

def isReady : RawGenerator → Bool
  | uninitialized => false
  | ready _ => true

def expansionsFor (secret? : Option Bytes) :
    Call RawGenerator (RawExpansion .md5 × RawExpansion .sha1) := do
  match secret?, ← get with
  | some secret, _ => RawStream.expansions secret
  | none, ready stream => return (Copyable.copy stream.md5, Copyable.copy stream.sha1)
  | none, uninitialized => throw .missingSecret

def seedFor (seed? : Option Bytes) : Call RawGenerator Bytes := do
  match seed?, ← get with
  | some seed, _ => return seed
  | none, ready stream => return stream.seed
  | none, uninitialized => throw .missingSeed

/-- The generator is changed only if the stream has been started. -/
def restart (md5 : RawExpansion .md5) (sha1 : RawExpansion .sha1) (seed : Bytes) :
    Call RawGenerator Unit := do
  set (ready (← RawStream.start md5 sha1 seed))

def configure (params : Params) : Call RawGenerator Unit := do
  let (md5, sha1) ← expansionsFor params.secret?
  restart md5 sha1 (← seedFor params.seed?)

def demandReady : Call RawGenerator RawStream := do
  match ← get with
  | uninitialized => throw .notInitialized
  | ready stream => return stream

/-- A read of the stream over the bytes of a region. What it leaves of the stream and the region
stays, whether or not it fails. -/
def deliver (stream : RawStream) (region : Region) : Call (RawGenerator × Buffer) Unit :=
  Call.zoom (fun (_, dest) => (stream, dest.slice region))
    (fun (_, dest) (stream, bytes) => (ready stream, dest.write region.start.toNat bytes))
    RawStream.read

def readInto (offset length : UInt64) : Call (RawGenerator × Buffer) Unit := do
  let stream ← Call.onFirst demandReady
  let (_, dest) ← get
  let region ← Region.check dest.size offset length
  deliver stream region

def reseedInto (seed : Bytes) : Call (RawGenerator × Buffer) Unit := do
  Call.onFirst (configure (.ofSeed seed))
  let stream ← Call.onFirst demandReady
  let (_, dest) ← get
  deliver stream dest.whole

instance : ByteSource RawGenerator where
  name := "tls-prf"
  byte := Call.byteBy readInto
  readInto := readInto

def step (op : Generator.Op) (generator : RawGenerator) : Reply × RawGenerator :=
  match op with
  | .configure params => Reply.ofCall (fun _ => .done) (configure params) generator
  | .reseedInto seed dest => Reply.ofWrite dest (reseedInto seed) generator
  | .read read => read.stepBy readInto generator
  | .isReady => (.flag generator.isReady, generator)
  | .describe => (.text (Generator.describeReady generator.isReady), generator)
  | .sourceName => (.text (ByteSource.name RawGenerator), generator)

end RawGenerator

namespace Generator

open Call (Agree AgreeOnBuffers)

/-- The buffer of the stream, if there is one, has all its bytes. -/
def Whole : Generator → Prop
  | uninitialized => True
  | ready stream => stream.buffer.length = KeyStream.bufferLength

theorem isReady_raw (generator : Generator) : generator.raw.isReady = generator.isReady := by
  cases generator <;> rfl

theorem on_restart (md5 : Expansion .md5) (sha1 : Expansion .sha1) (seed : Bytes)
    (generator : RawGenerator) :
    (RawGenerator.restart md5.raw sha1.raw seed).on generator =
      (.ok (), .ready (KeyStream.start md5 sha1 seed).raw) := by
  rw [RawGenerator.restart, RawStream.start_eq_ok]
  rfl

theorem agree_configure (params : Params) (generator : Generator) :
    Agree raw (RawGenerator.configure params) (configure params) generator := by
  cases generator with
  | uninitialized =>
    obtain ⟨_ | secret, _ | seed⟩ := params
    all_goals
      simp only [Agree, on_configure_uninitialized, RawGenerator.configure,
        RawGenerator.expansionsFor, RawGenerator.seedFor, raw, Call.on_bind, Call.on_get,
        Call.on_pure, Call.on_throw, Call.on_monadLift, RawStream.expansions_eq_ok]
    exact on_restart ..
  | ready stream =>
    obtain ⟨_ | secret, _ | seed⟩ := params
    all_goals
      simp only [Agree, on_configure_ready, RawGenerator.configure, RawGenerator.expansionsFor,
        RawGenerator.seedFor, raw, Call.on_bind, Call.on_get, Call.on_pure, Call.on_monadLift,
        Copyable.copy_eq, RawStream.expansions_eq_ok]
      exact on_restart ..

theorem on_demandReady_raw (stream : KeyStream) :
    RawGenerator.demandReady.on (ready stream).raw = (.ok stream.raw, (ready stream).raw) := rfl

theorem on_deliver {stream : KeyStream} (whole : stream.buffer.length = KeyStream.bufferLength)
    {region : Region} {dest : Buffer} (exact : (dest.slice region).length = region.length)
    (generator : Generator) :
    (RawGenerator.deliver stream.raw region).on (generator.raw, dest) =
      (.ok (), (ready (stream.read region.length).2).raw,
        dest.write region.start.toNat (stream.read region.length).1) := by
  rw [RawGenerator.deliver, Call.on_zoom, RawStream.on_read whole, exact]
  rfl

theorem agree_readInto {generator : Generator} (whole : generator.Whole) (offset length : UInt64) :
    AgreeOnBuffers raw (RawGenerator.readInto offset length) (readInto offset length)
      generator := by
  intro dest
  cases generator with
  | uninitialized => rfl
  | ready stream =>
    rw [on_readInto_ready, RawGenerator.readInto]
    simp only [Call.on_bind, Call.on_onFirst, on_demandReady_raw, Call.on_get, Call.on_monadLift]
    cases checked : Region.check dest.size offset length with
    | error failure => rfl
    | ok region =>
      have exact := Buffer.length_slice checked
      rw [← Region.length_of_check checked] at exact
      exact on_deliver whole exact _

theorem agree_reseedInto (seed : Bytes) (generator : Generator) :
    AgreeOnBuffers raw (RawGenerator.reseedInto seed) (reseedInto seed) generator := by
  intro dest
  cases generator with
  | uninitialized => rfl
  | ready stream =>
    have configured := agree_configure (.ofSeed seed) (ready stream)
    rw [Agree, on_configure_ready] at configured
    rw [on_reseedInto_ready, RawGenerator.reseedInto]
    simp only [Call.on_bind, Call.on_onFirst, configured, on_demandReady_raw, Call.on_get]
    rw [on_deliver (KeyStream.length_buffer_start ..) (by simp), Buffer.length_whole]
    rfl

theorem Read.step_raw {generator : Generator} (whole : generator.Whole) (read : Read) :
    read.stepBy RawGenerator.readInto generator.raw =
      ((read.step generator).1, (read.step generator).2.raw) := by
  have into := agree_readInto whole
  have taken := Call.agree_takeBy into
  rcases read with _ | count | ⟨dest, offset, length⟩ | dest | _ | _ |
    (_ | ⟨dest, offset, length⟩ | dest | count)
  case byte => exact ((taken 1).bind_pure _).ofCall _
  case take => exact (taken count).ofCall _
  case into => exact (into offset length).ofWrite dest
  case fill => exact (Call.agree_fillBy into).ofWrite dest
  case word32 => exact ((taken 4).bind_pure _).ofCall _
  case word64 => exact ((taken 8).bind_pure _).ofCall _
  case source.byte => exact ((taken 1).bind_pure _).ofCall _
  case source.into => exact (into offset length).ofWrite dest
  case source.fill => exact (Call.agree_fillBy into).ofWrite dest
  case source.collect => exact (taken count).ofCall _

/-- A read leaves the stream after some number of bytes. -/
theorem Read.exists_left (read : Read) (stream : KeyStream) :
    ∃ count, (read.step (ready stream)).2 = ready (stream.read count).2 := by
  rcases read.exists_take_or_region (ready stream) with
    ⟨count, _, taken⟩ | ⟨dest, offset, length, region⟩
  · rw [taken, Reply.ofCall, on_take_ready]
    exact ⟨count.toNat, rfl⟩
  · rw [step_of_region region, Reply.ofWrite, on_readInto_ready]
    cases Region.check dest.size offset length with
    | ok region => exact ⟨region.length, rfl⟩
    | error failure => exact ⟨0, by rw [KeyStream.read_zero]⟩

theorem Whole.step {generator : Generator} (whole : generator.Whole) (op : Op) :
    (Generator.step op generator).2.Whole := by
  cases generator with
  | uninitialized =>
    cases op with
    | configure params =>
      obtain ⟨_ | secret, _ | seed⟩ := params
      case some.some => exact KeyStream.length_buffer_start ..
      all_goals trivial
    | read read =>
      rw [Generator.step, Read.step_uninitialized]
      trivial
    | _ => trivial
  | ready stream =>
    cases op with
    | configure params =>
      simp only [Generator.step, Reply.ofCall, on_configure_ready]
      exact KeyStream.length_buffer_start ..
    | reseedInto seed dest =>
      simp only [Generator.step, Reply.ofWrite, on_reseedInto_ready]
      exact (KeyStream.length_buffer_read ..).trans (KeyStream.length_buffer_start ..)
    | read read =>
      obtain ⟨count, left⟩ := read.exists_left stream
      rw [Generator.step, left]
      exact (stream.length_buffer_read count).trans whole
    | _ => exact whole

/-- By every operation, a raw generator replies as the generator does, and is left as it is. -/
theorem step_raw (op : Op) (generator : Generator) (whole : generator.Whole) :
    RawGenerator.step op generator.raw =
      ((step op generator).1, (step op generator).2.raw) := by
  cases op with
  | configure params => exact (agree_configure params generator).ofCall _
  | reseedInto seed dest => exact (agree_reseedInto seed generator).ofWrite dest
  | read read => exact read.step_raw whole
  | isReady => rw [RawGenerator.step, isReady_raw, step]
  | describe => rw [RawGenerator.step, isReady_raw, step, describe]
  | sourceName => rfl

theorem runScript_raw {generator : Generator} (whole : generator.Whole) (ops : List Op) :
    runScript RawGenerator.step ops generator.raw =
      ((runScript step ops generator).1, (runScript step ops generator).2.raw) :=
  runScript_view_of_holds raw (fun op _ whole => whole.step op) step_raw ops whole

theorem whole_uninitialized : Whole uninitialized := trivial

theorem after_raw (acts : List (Family.Act Op)) :
    Family.after RawGenerator.step .uninitialized acts =
      (Family.after step uninitialized acts).map raw := by
  have keeps (op : Op) (generator : Generator) (whole : generator.Whole) := whole.step op
  have viewed := Family.after_view raw whole_uninitialized keeps step_raw acts
  exact viewed

theorem whole_of_reached {acts : List (Family.Act Op)} {index : Nat} {generator : Generator}
    (reached : (Family.after step uninitialized acts)[index]? = some generator) :
    generator.Whole :=
  Family.forall_mem_after whole_uninitialized (fun op _ whole => whole.step op) acts
    generator (List.mem_of_getElem? reached)

end Generator

end TlsKeys
