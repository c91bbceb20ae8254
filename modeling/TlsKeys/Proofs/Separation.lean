import TlsKeys.Proofs.SessionFormulas

/-!
Different derivations run on different streams.

A seed is a label and what follows it, with no mark where the one ends and the
other begins, and what follows may be any bytes, those of a label included. But
the four labels begin with four different letters, and all seeds with one label
are of one length. So a seed begins another only if it is the same seed, and
then it was made from the same values (`seed_isPrefix_iff`).
-/

namespace TlsKeys

namespace Derivation

inductive Kind where
  | masterSecret
  | keyBlock
  | clientFinished
  | serverFinished
  deriving DecidableEq

def kind : Derivation → Kind
  | masterSecret .. => .masterSecret
  | keyBlock .. => .keyBlock
  | clientFinished _ => .clientFinished
  | serverFinished _ => .serverFinished

namespace Kind

def label : Kind → Bytes
  | masterSecret => Label.masterSecret
  | keyBlock => Label.keyBlock
  | clientFinished => Label.clientFinished
  | serverFinished => Label.serverFinished

def contextLength : Kind → Nat
  | masterSecret => 64
  | keyBlock => 64
  | clientFinished => 36
  | serverFinished => 36

/-- The first letter tells the labels apart. -/
theorem eq_of_head?_label_eq {kind other : Kind} (heads : kind.label.head? = other.label.head?) :
    kind = other := by
  cases kind <;> cases other <;> revert heads <;> decide

theorem head?_label_append (kind : Kind) (context : Bytes) :
    (kind.label ++ context).head? = kind.label.head? := by
  cases kind <;> rfl

end Kind

theorem length_append_random (first second : Random) : (first.val ++ second.val).length = 64 := by
  rw [List.length_append, first.property, second.property]
  rfl

theorem append_random_inj {first second first' second' : Random}
    (same : first.val ++ second.val = first'.val ++ second'.val) :
    first = first' ∧ second = second' := by
  have lengths : first.val.length = first'.val.length := by rw [first.property, first'.property]
  obtain ⟨firsts, seconds⟩ := List.append_inj same lengths
  exact ⟨Subtype.ext firsts, Subtype.ext seconds⟩

theorem label_eq (derivation : Derivation) : derivation.label = derivation.kind.label := by
  cases derivation <;> rfl

theorem length_context (derivation : Derivation) :
    derivation.context.length = derivation.kind.contextLength := by
  cases derivation with
  | masterSecret clientRandom serverRandom => exact length_append_random clientRandom serverRandom
  | keyBlock clientRandom serverRandom => exact length_append_random serverRandom clientRandom
  | clientFinished hash => exact hash.property
  | serverFinished hash => exact hash.property

theorem length_seed (derivation : Derivation) :
    derivation.seed.length = derivation.kind.label.length + derivation.kind.contextLength := by
  rw [seed, List.length_append, label_eq, length_context]

theorem head?_seed (derivation : Derivation) (rest : Bytes) :
    (derivation.seed ++ rest).head? = derivation.kind.label.head? := by
  rw [seed, label_eq, List.append_assoc, Kind.head?_label_append]

variable {derivation other : Derivation}

theorem eq_of_context_eq (kinds : derivation.kind = other.kind)
    (contexts : derivation.context = other.context) : derivation = other := by
  cases derivation with
  | masterSecret clientRandom serverRandom =>
    cases other with
    | masterSecret clientRandom' serverRandom' =>
      obtain ⟨rfl, rfl⟩ := append_random_inj contexts
      rfl
    | _ => cases kinds
  | keyBlock clientRandom serverRandom =>
    cases other with
    | keyBlock clientRandom' serverRandom' =>
      obtain ⟨rfl, rfl⟩ := append_random_inj contexts
      rfl
    | _ => cases kinds
  | clientFinished hash =>
    cases other with
    | clientFinished hash' => exact congrArg clientFinished (Subtype.ext contexts)
    | _ => cases kinds
  | serverFinished hash =>
    cases other with
    | serverFinished hash' => exact congrArg serverFinished (Subtype.ext contexts)
    | _ => cases kinds

theorem eq_of_seed_isPrefix (begins : derivation.seed <+: other.seed) : derivation = other := by
  have heads : derivation.kind.label.head? = other.kind.label.head? := by
    obtain ⟨rest, joined⟩ := begins
    rw [← head?_seed derivation rest, joined, ← head?_seed other [], List.append_nil]
  have kinds := Kind.eq_of_head?_label_eq heads
  have lengths : derivation.seed.length = other.seed.length := by
    rw [length_seed, length_seed, kinds]
  have same := begins.eq_of_length lengths
  rw [seed, seed, label_eq, label_eq, kinds] at same
  exact eq_of_context_eq kinds (List.append_cancel_left same)

theorem seed_stream (secret : Bytes) (derivation : Derivation) :
    (derivation.stream secret).seed = derivation.seed := rfl

theorem stream_inj (secret : Bytes) (same : derivation.stream secret = other.stream secret) :
    derivation = other := by
  have seeds : derivation.seed = other.seed := by
    rw [← seed_stream secret derivation, same, seed_stream]
  exact eq_of_seed_isPrefix (seeds ▸ List.prefix_refl _)

end Derivation

namespace Session

/-- The derivation that a call makes in the session of two random values, and the number of bytes
that it reads. -/
def Op.derivation? (clientRandom serverRandom : Random) : Op → Option (Derivation × Nat)
  | .keyBlock length => some (.keyBlock clientRandom serverRandom, length.toNat)
  | .clientFinished hash => some (.clientFinished hash, 12)
  | .serverFinished hash => some (.serverFinished hash, 12)
  | .describe => none

theorem Keyed.step_of_derivation? {masterSecret : Bytes} {clientRandom serverRandom : Random}
    {session : Session} (keyed : session.Keyed masterSecret clientRandom serverRandom) {op : Op}
    {derivation : Derivation} {count : Nat}
    (makes : op.derivation? clientRandom serverRandom = some (derivation, count)) :
    step op session =
      (.bytes ((derivation.stream masterSecret).read count).1,
        { session with generator := .ready ((derivation.stream masterSecret).read count).2 }) := by
  cases op with
  | keyBlock length =>
    cases makes
    have derived := keyed.on_derive_eq_read (.keyBlock clientRandom serverRandom) length
    rw [← keyed.keyBlockSeed] at derived
    rw [step, Reply.ofCall, keyBlock, Call.on_bind, Call.on_get]
    simp only [derived]
  | clientFinished hash =>
    cases makes
    have derived := keyed.on_derive_eq_read (.clientFinished hash) verifyDataLength
    rw [step, Reply.ofCall, clientFinished, derived]
    rfl
  | serverFinished hash =>
    cases makes
    have derived := keyed.on_derive_eq_read (.serverFinished hash) verifyDataLength
    rw [step, Reply.ofCall, serverFinished, derived]
    rfl
  | describe => cases makes

end Session

/-- The master secret and the calls of a session read the streams of their derivations from the
beginning, whatever was called before, and no derivation shares its stream with another. Its seed
does not so much as begin the seed of another, although a stream depends on a label and what follows
it by their concatenation alone. -/
theorem seed_isPrefix_iff (secret : Bytes) :
    (∀ derivation other : Derivation, derivation.seed <+: other.seed ↔ derivation = other) ∧
      (∀ derivation other : Derivation,
        derivation.stream secret = other.stream secret ↔ derivation = other) ∧
      (∀ clientRandom serverRandom, masterSecret secret clientRandom serverRandom =
        .ok (((Derivation.masterSecret clientRandom serverRandom).stream secret).read 48).1) ∧
      (∀ clientRandom serverRandom, ∃ session,
        Session.start secret clientRandom serverRandom = .ok session ∧
          session.generator =
            .ready ((Derivation.keyBlock clientRandom serverRandom).stream secret) ∧
          ∀ (earlier : List Session.Op) (op : Session.Op) (derivation : Derivation) (count : Nat),
            op.derivation? clientRandom serverRandom = some (derivation, count) →
              let reached := (runScript Session.step earlier session).2
              let (bytes, left) := (derivation.stream secret).read count
              Session.step op reached =
                (.bytes bytes, { reached with generator := .ready left })) ∧
      ∀ out label seed,
        Prf.fill out secret label seed = Prf.fill out secret [] (label ++ seed) := by
  refine ⟨fun derivation other => ⟨Derivation.eq_of_seed_isPrefix, ?_⟩,
    fun derivation other => ⟨Derivation.stream_inj secret, ?_⟩, ?_, ?_, fun _ _ _ => rfl⟩
  · rintro rfl
    exact List.prefix_refl _
  · rintro rfl
    rfl
  · intro clientRandom serverRandom
    rw [Derivation.read_stream]
    exact masterSecret_eq_ok secret clientRandom serverRandom
  · intro clientRandom serverRandom
    obtain ⟨session, started, keyed⟩ := Session.exists_start secret clientRandom serverRandom
    refine ⟨session, started, ?_, fun earlier op derivation count makes => ?_⟩
    · cases started
      rfl
    · have kept := holds_runScript (fun op _ keyed => keyed.keyed_step op) keyed earlier
      exact kept.step_of_derivation? makes

theorem seed_isPrefix_iff_label_in_hash :
    let clientRandom : Random := ⟨List.replicate 32 1, rfl⟩
    let serverRandom : Random := ⟨List.replicate 32 2, rfl⟩
    let hash : HandshakeHash := ⟨Bytes.ofAscii "server finished" ++ List.replicate 21 0, rfl⟩
    let derivation := Derivation.clientFinished hash
    (Session.Op.clientFinished hash).derivation? clientRandom serverRandom =
        some (derivation, 12) ∧
      ¬ derivation.seed <+: (Derivation.serverFinished hash).seed ∧
      ∃ session, Session.start [1, 2, 3] clientRandom serverRandom = .ok session ∧
        let reached := (runScript Session.step [.keyBlock 104, .serverFinished hash] session).2
        let (bytes, left) := (derivation.stream [1, 2, 3]).read 12
        Session.step (.clientFinished hash) reached =
          (.bytes bytes, { reached with generator := .ready left }) := by
  intro clientRandom serverRandom hash derivation
  obtain ⟨separated, _, _, runs, _⟩ := seed_isPrefix_iff [1, 2, 3]
  obtain ⟨session, started, _, read⟩ := runs clientRandom serverRandom
  refine ⟨rfl, ?_, session, started, read _ (.clientFinished hash) derivation 12 rfl⟩
  rw [separated]
  exact nofun

end TlsKeys
