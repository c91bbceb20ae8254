import TlsKeys.Handshake.Session
import TlsKeys.Proofs.InForce
import TlsKeys.Proofs.Scripts

/-!
One generator behind all the calls of a session.

Every call starts the generator anew, with the expansions of whatever stream
the call before has left. The seed and the position of that stream are anyone's,
but its keys are those of the master secret (`Keyed`), and a start goes by the
keys alone. So a call is answered as if it were the only one
(`Keyed.reply_runScript`), and callers that share a session cannot disturb one another.
-/

namespace TlsKeys

theorem Prf.output_isPrefix (secret label seed : Bytes) {short long : Nat} (le : short ≤ long) :
    output secret label seed short <+: output secret label seed long := by
  obtain ⟨rest, rfl⟩ := Nat.exists_eq_add_of_le le
  simp only [output_eq_streamBytes, streamBytes_add]
  exact List.prefix_append _ _

namespace Derivation

/-- The stream that a derivation under a secret reads from its beginning. -/
def stream (secret : Bytes) (derivation : Derivation) : KeyStream :=
  KeyStream.ofSecret secret derivation.seed

theorem read_stream (secret : Bytes) (derivation : Derivation) (count : Nat) :
    (derivation.stream secret).read count =
      (Prf.output secret derivation.label derivation.context count,
        .atPosition (halves secret).1 (halves secret).2 derivation.seed count) := by
  rw [stream, KeyStream.ofSecret_eq_atPosition, KeyStream.read_atPosition, Nat.zero_add, seed,
    ← Prf.output_eq_streamBytes]

end Derivation

namespace Session

/-- The first `length` bytes of the function's output for a label and what follows it. -/
structure Request where
  label : Bytes
  context : Bytes
  length : UInt64

/-- What a call asks for, in the session of two random values. -/
def Op.request? (clientRandom serverRandom : Random) : Op → Option Request
  | .keyBlock length =>
    some ⟨Bytes.ofAscii "key expansion", serverRandom.val ++ clientRandom.val, length⟩
  | .clientFinished hash => some ⟨Bytes.ofAscii "client finished", hash.val, 12⟩
  | .serverFinished hash => some ⟨Bytes.ofAscii "server finished", hash.val, 12⟩
  | .describe => none

def Request.output (masterSecret : Bytes) (request : Request) : Bytes :=
  Prf.output masterSecret request.label request.context request.length.toNat

/-- The generator stands somewhere in some stream, but under the master secret. -/
structure Keyed (masterSecret : Bytes) (clientRandom serverRandom : Random)
    (session : Session) : Prop where
  generator : ∃ seed position, session.generator =
    .ready (.atPosition (halves masterSecret).1 (halves masterSecret).2 seed position)
  keyBlockSeed : session.keyBlockSeed = (Derivation.keyBlock clientRandom serverRandom).seed

theorem exists_start (masterSecret : Bytes) (clientRandom serverRandom : Random) :
    ∃ session, start masterSecret clientRandom serverRandom = .ok session ∧
      session.Keyed masterSecret clientRandom serverRandom := by
  let seed := (Derivation.keyBlock clientRandom serverRandom).seed
  have stands := congrArg Generator.ready (KeyStream.ofSecret_eq_atPosition masterSecret seed)
  exact ⟨⟨.ready (.ofSecret masterSecret seed), seed⟩, rfl, ⟨seed, 0, stands⟩, rfl⟩

theorem on_onGenerator {Value : Type} (call : Call Generator Value) (session : Session) :
    (onGenerator call).on session =
      ((call.on session.generator).1,
        { session with generator := (call.on session.generator).2 }) := rfl

namespace Keyed

variable {masterSecret : Bytes} {clientRandom serverRandom : Random} {session : Session}

/-- Whatever stream the generator stood in, it reads that of the derivation from the beginning. -/
theorem on_derive_eq_read (keyed : session.Keyed masterSecret clientRandom serverRandom)
    (derivation : Derivation) (count : UInt64) :
    (derive derivation.seed count).on session =
      (.ok ((derivation.stream masterSecret).read count.toNat).1,
        { session with
          generator := .ready ((derivation.stream masterSecret).read count.toNat).2 }) := by
  obtain ⟨⟨earlierSeed, position, stands⟩, _⟩ := keyed
  have reseeded := Generator.on_reseedInto_atPosition masterSecret earlierSeed derivation.seed
    position (Buffer.zeros count)
  have whole : (Prf.streamBytes (halves masterSecret).1 (halves masterSecret).2 derivation.seed 0
      count.toNat).length = (Buffer.zeros count).bytes.length := by
    rw [Prf.length_streamBytes, Buffer.length_zeros]
  have bytes := Buffer.bytes_write_whole whole
  rw [Buffer.length_zeros] at reseeded
  rw [derive, on_onGenerator, stands, Call.on_bind, Call.on_into, reseeded, Derivation.read_stream,
    Prf.output_eq_streamBytes, ← Derivation.seed]
  simp only [Call.on_pure, bytes]

theorem on_derive (keyed : session.Keyed masterSecret clientRandom serverRandom)
    (derivation : Derivation) (count : UInt64) :
    ∃ next, (derive derivation.seed count).on session =
        (.ok (Prf.output masterSecret derivation.label derivation.context count.toNat), next) ∧
      next.Keyed masterSecret clientRandom serverRandom := by
  have derived := keyed.on_derive_eq_read derivation count
  rw [Derivation.read_stream] at derived
  exact ⟨_, derived, ⟨_, _, rfl⟩, keyed.keyBlockSeed⟩

theorem on_keyBlock (keyed : session.Keyed masterSecret clientRandom serverRandom)
    (length : UInt64) :
    ∃ next, (keyBlock length).on session =
        (.ok (Prf.output masterSecret (Bytes.ofAscii "key expansion")
          (serverRandom.val ++ clientRandom.val) length.toNat), next) ∧
      next.Keyed masterSecret clientRandom serverRandom := by
  have derived := keyed.on_derive (.keyBlock clientRandom serverRandom) length
  rw [← keyed.keyBlockSeed] at derived
  rw [keyBlock, Call.on_bind, Call.on_get]
  exact derived

theorem on_clientFinished (keyed : session.Keyed masterSecret clientRandom serverRandom)
    (hash : HandshakeHash) :
    ∃ next, (clientFinished hash).on session =
        (.ok (Prf.output masterSecret (Bytes.ofAscii "client finished") hash.val 12), next) ∧
      next.Keyed masterSecret clientRandom serverRandom :=
  keyed.on_derive (.clientFinished hash) verifyDataLength

theorem on_serverFinished (keyed : session.Keyed masterSecret clientRandom serverRandom)
    (hash : HandshakeHash) :
    ∃ next, (serverFinished hash).on session =
        (.ok (Prf.output masterSecret (Bytes.ofAscii "server finished") hash.val 12), next) ∧
      next.Keyed masterSecret clientRandom serverRandom :=
  keyed.on_derive (.serverFinished hash) verifyDataLength

theorem step_of_request? (keyed : session.Keyed masterSecret clientRandom serverRandom) {op : Op}
    {request : Request} (asked : op.request? clientRandom serverRandom = some request) :
    ∃ next, step op session = (.bytes (request.output masterSecret), next) ∧
      next.Keyed masterSecret clientRandom serverRandom := by
  cases op with
  | keyBlock length =>
    cases asked
    obtain ⟨next, answered, kept⟩ := keyed.on_keyBlock length
    exact ⟨next, by rw [step, Reply.ofCall, answered]; rfl, kept⟩
  | clientFinished hash =>
    cases asked
    obtain ⟨next, answered, kept⟩ := keyed.on_clientFinished hash
    exact ⟨next, by rw [step, Reply.ofCall, answered]; rfl, kept⟩
  | serverFinished hash =>
    cases asked
    obtain ⟨next, answered, kept⟩ := keyed.on_serverFinished hash
    exact ⟨next, by rw [step, Reply.ofCall, answered]; rfl, kept⟩
  | describe => cases asked

theorem keyed_step (op : Op) (keyed : session.Keyed masterSecret clientRandom serverRandom) :
    (step op session).2.Keyed masterSecret clientRandom serverRandom := by
  cases asked : op.request? clientRandom serverRandom with
  | some request =>
    obtain ⟨next, stepped, kept⟩ := keyed.step_of_request? asked
    rw [stepped]
    exact kept
  | none =>
    cases op with
    | describe => exact keyed
    | _ => cases asked

/-- What was called before does not show in a reply. -/
theorem reply_runScript (keyed : session.Keyed masterSecret clientRandom serverRandom)
    {ops : List Op} {index : Nat} {op : Op} {request : Request} (called : ops[index]? = some op)
    (asked : op.request? clientRandom serverRandom = some request) :
    (runScript step ops session).1[index]? = some (.bytes (request.output masterSecret)) := by
  obtain ⟨found, kept, replied⟩ := exists_of_getElem?_runScript
    (fun op _ keyed => keyed_step op keyed) keyed called
  obtain ⟨_, stepped, _⟩ := kept.step_of_request? asked
  rw [replied, stepped]

end Keyed

/-- Whatever is called on a session, by however many callers and in whatever order, each call
succeeds with the output that it asks for, which a generator of its own would give it, and a
shorter key block begins every longer one. -/
theorem replies_independent (masterSecret : Bytes) (clientRandom serverRandom : Random) :
    ∃ session, start masterSecret clientRandom serverRandom = .ok session ∧
      ∀ ops : List Op,
        let replies := (runScript step ops session).1
        (∀ (i : Nat) (op : Op) (request : Request), ops[i]? = some op →
          op.request? clientRandom serverRandom = some request →
          ∃ filled, Prf.fill (Buffer.zeros request.length) masterSecret request.label
              request.context = .ok filled ∧
            filled.bytes = Prf.output masterSecret request.label request.context
              request.length.toNat ∧
            replies[i]? = some (.bytes filled.bytes)) ∧
        ∀ (i j : Nat) (m n : UInt64), ops[i]? = some (.keyBlock m) → ops[j]? = some (.keyBlock n) →
          m ≤ n → ∃ shorter longer, replies[i]? = some (.bytes shorter) ∧
            replies[j]? = some (.bytes longer) ∧ shorter <+: longer := by
  obtain ⟨session, started, keyed⟩ := exists_start masterSecret clientRandom serverRandom
  refine ⟨session, started, fun ops => ⟨?_, ?_⟩⟩
  · intro i op request called asked
    obtain ⟨filled, accepted, bytes⟩ := Prf.fill_eq_ok (Buffer.zeros request.length) masterSecret
      request.label request.context
    rw [Buffer.length_zeros] at bytes
    refine ⟨filled, accepted, bytes, ?_⟩
    rw [bytes]
    exact keyed.reply_runScript called asked
  · intro i j m n calledShort calledLong le
    refine ⟨_, _, keyed.reply_runScript calledShort rfl, keyed.reply_runScript calledLong rfl, ?_⟩
    exact Prf.output_isPrefix _ _ _ (UInt64.le_iff_toNat_le.mp le)

theorem replies_independent_two_key_blocks :
    let clientRandom : Random := ⟨List.replicate 32 1, rfl⟩
    let serverRandom : Random := ⟨List.replicate 32 2, rfl⟩
    let hash : HandshakeHash := ⟨List.replicate 36 3, rfl⟩
    let ops : List Op := [.keyBlock 104, .clientFinished hash, .serverFinished hash, .keyBlock 5]
    ∃ session, start [1, 2, 3] clientRandom serverRandom = .ok session ∧
      let replies := (runScript step ops session).1
      (∃ filled, Prf.fill (Buffer.zeros 12) [1, 2, 3] (Bytes.ofAscii "server finished")
          hash.val = .ok filled ∧
        filled.bytes =
          Prf.output [1, 2, 3] (Bytes.ofAscii "server finished") hash.val (12 : UInt64).toNat ∧
        replies[2]? = some (.bytes filled.bytes)) ∧
      ∃ shorter longer, replies[3]? = some (.bytes shorter) ∧ replies[0]? = some (.bytes longer) ∧
        shorter <+: longer := by
  intro clientRandom serverRandom hash ops
  obtain ⟨session, started, answered⟩ := replies_independent [1, 2, 3] clientRandom serverRandom
  obtain ⟨alone, extended⟩ := answered ops
  have finished := alone 2 (.serverFinished hash) ⟨Bytes.ofAscii "server finished", hash.val, 12⟩
    rfl rfl
  exact ⟨session, started, finished, extended 3 0 5 104 rfl rfl (by decide)⟩

end Session

end TlsKeys
